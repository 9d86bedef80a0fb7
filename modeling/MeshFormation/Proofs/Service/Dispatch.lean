import MeshFormation.Layout
import MeshFormation.Proofs.Fabric.Delivery
import MeshFormation.Proofs.Router.Failure
import MeshFormation.Proofs.Router.Readiness

/-!
# Sending what a transition asked for

A service sends the messages of a transition in order. The first one that the backend refuses ends
that: the router fails, and its delegate hears of the refusal unless the transition itself had
failed the router already. As long as none is refused, nothing of the router changes.
-/

namespace MeshFormation

variable {backend : Backend} {before : List Attempt} {outbox rest : Outbox}
  {first : AddressedMessage}

/-- The call that hands a message to the transport. -/
def AddressedMessage.call (addressed : AddressedMessage) : Call :=
  .send addressed.receiver addressed.message.encode

/-- The backend accepts the messages of an outbox one after the other, after the given attempts. -/
def Backend.Takes (backend : Backend) (before : List Attempt) (outbox : Outbox) : Prop :=
  ∀ (sent : Outbox) (next : AddressedMessage) (unsent : Outbox), outbox = sent ++ next :: unsent →
    backend (before ++ sent.attempts) next.call = none

theorem Outbox.attempts_cons (first : AddressedMessage) (rest : Outbox) :
    Outbox.attempts (first :: rest) = ⟨first.call, none⟩ :: rest.attempts := rfl

namespace Backend

theorem takes_nil (backend : Backend) (before : List Attempt) : backend.Takes before [] := by
  intro sent next unsent hsplit
  exact absurd hsplit (by simp)

theorem Takes.cons (hfirst : backend before first.call = none)
    (hrest : backend.Takes (before ++ [⟨first.call, none⟩]) rest) :
    backend.Takes before (first :: rest) := by
  intro sent next unsent hsplit
  cases sent with
  | nil =>
    obtain ⟨rfl, rfl⟩ := List.cons.inj hsplit
    rw [Outbox.attempts, List.map_nil, List.append_nil]
    exact hfirst
  | cons other sent =>
    obtain ⟨rfl, hrest'⟩ := List.cons.inj hsplit
    have hnext := hrest sent next unsent hrest'
    rwa [List.append_assoc] at hnext

end Backend

namespace Node

/-- A failure in full. The delegate is told unless the node had failed before. -/
theorem fail_eq (node : Node) (reason : FailureReason) :
    node.fail reason = { node with
      progress := { node.progress with phase := .failed }
      journal := { node.journal with
        notices := node.journal.notices ++ if node.isFailed then [] else [.failed reason] } } := by
  have hprogress := node.progress_fail reason
  unfold fail at hprogress ⊢
  split
  · rename_i hnone
    have hfailed : node.isFailed = true := Progress.enter?_failed_eq_none_iff.1 hnone
    rw [hnone] at hprogress
    rw [if_pos hfailed, List.append_nil, ← hprogress]
  · rename_i progress hsome
    have hworking : node.isFailed ≠ true := by
      intro hfailed
      rw [Progress.enter?_failed_eq_none_iff.2 hfailed] at hsome
      exact absurd hsome (by simp)
    rw [hsome] at hprogress
    rw [if_neg hworking, ← hprogress]
    rfl

theorem sending_cons (node : Node) (first : AddressedMessage) (rest : Outbox) :
    node.sending (first :: rest) = (node.attempting [⟨first.call, none⟩]).sending rest := by
  simp [sending, attempting, Outbox.attempts_cons]

end Node

namespace Router

variable {router next : Router}

/-- What becomes of a router whose messages are sent to a backend. -/
inductive Sends (backend : Backend) (router : Router) (outbox : Outbox) : Router → Prop where
  | all (taken : backend.Takes router.node.journal.attempts outbox) :
    Sends backend router outbox { router with node := router.node.sending outbox }
  /-- The messages `sent` are accepted, the one behind them is refused, and no other one is
  tried. -/
  | refused (sent unsent : Outbox) (first : AddressedMessage) (refusal : Refusal) {next : Router}
    (split : outbox = sent ++ first :: unsent)
    (taken : backend.Takes router.node.journal.attempts sent)
    (answer : backend (router.node.journal.attempts ++ sent.attempts) first.call = some refusal)
    (attempts : next.node.journal.attempts =
      router.node.journal.attempts ++ sent.attempts ++ [⟨first.call, some refusal⟩])
    (notices : next.node.journal.notices = router.node.journal.notices ++
      if router.node.isFailed then []
      else [.failed (.undeliverable first.receiver refusal.message)])
    (progress : next.node.progress = { router.node.progress with phase := .failed })
    (rest : next = { router with
      node := { router.node with progress := next.node.progress, journal := next.node.journal } }) :
    Sends backend router outbox next

/-- One more message is accepted before the others. -/
theorem Sends.cons (hfirst : backend router.node.journal.attempts first.call = none)
    (hrest : Sends backend
      { router with node := router.node.attempting [⟨first.call, none⟩] } rest next) :
    Sends backend router (first :: rest) next := by
  cases hrest with
  | all taken =>
    rw [← Node.sending_cons]
    exact .all (.cons hfirst taken)
  | refused sent unsent refused refusal split taken answer attempts notices progress others =>
    apply Sends.refused (first :: sent) unsent refused refusal
    case split => rw [split, List.cons_append]
    case taken => exact .cons hfirst taken
    case answer =>
      rw [Outbox.attempts_cons, List.append_cons]
      exact answer
    case attempts =>
      rw [attempts, Outbox.attempts_cons, List.append_cons router.node.journal.attempts]
      rfl
    case notices => exact notices
    case progress => exact progress
    case rest => exact others

theorem sends_dispatch (router : Router) (backend : Backend) (outbox : Outbox) :
    Sends backend router outbox (Service.dispatch ⟨router⟩ backend outbox).router := by
  induction outbox generalizing router with
  | nil =>
    have hsends : Sends backend router [] { router with node := router.node.sending [] } :=
      .all (backend.takes_nil _)
    rwa [Node.sending_nil] at hsends
  | cons first rest ih =>
    rw [Service.dispatch]
    unfold Journal.attempt
    cases hanswer : backend router.node.journal.attempts first.call with
    | none =>
      rw [AddressedMessage.call] at hanswer
      simp only [hanswer]
      exact .cons hanswer (ih { router with node := router.node.attempting [⟨first.call, none⟩] })
    | some refusal =>
      have hcall := hanswer
      rw [AddressedMessage.call] at hcall
      simp only [hcall]
      rw [Node.fail_eq]
      apply Sends.refused [] rest first refusal
      case split => rfl
      case taken => exact backend.takes_nil _
      case answer => rwa [Outbox.attempts, List.map_nil, List.append_nil]
      case attempts => rw [Outbox.attempts, List.map_nil, List.append_nil]; rfl
      case notices => rfl
      case progress => rfl
      case rest => rfl

/-- A transition that does not fail its router tells the delegate of no failure. -/
theorem failures_handle (h : (router.handle backend event).1.node.isFailed = false) :
    (router.handle backend event).1.node.journal.failures = router.node.journal.failures := by
  by_contra htold
  have hfailed := ((router.reports_handle backend event).failures_ne_iff.1 htold).2
  rw [Node.isFailed_iff.2 hfailed] at h
  exact absurd h (by simp)

end Router

namespace Service

/-- What a service does at an event. First comes the transition of its router, which sends nothing.
If it answers an error that is all, and otherwise its messages are sent. -/
structure Dispatches (service : Service) (backend : Backend) (event : Event) (left : Router)
    (result : Except RouterError Outbox) : Prop where
  silent : ∃ made, left.node.journal.attempts = service.journal.attempts ++ made ∧
    ∀ attempt ∈ made, attempt.call.isSend = false
  untold : left.node.isFailed = false → left.node.journal.failures = service.journal.failures
  stopped : ∀ error, result = .error error → service.handle backend event = (⟨left⟩, .error error)
  sends : ∀ outbox, result = .ok outbox →
    ∃ next, service.handle backend event = (⟨next⟩, .ok ()) ∧ left.Sends backend outbox next

theorem dispatches_handle (service : Service) (backend : Backend) (event : Event) :
    service.Dispatches backend event (service.router.handle backend event).1
      (service.router.handle backend event).2 := by
  constructor
  case silent => exact (Router.continues_handle service.router backend event).attempts
  case untold => exact Router.failures_handle
  case stopped =>
    intro error herror
    rw [handle, ← Prod.eta (service.router.handle backend event), herror]
  case sends =>
    intro outbox houtbox
    refine ⟨_, ?_, Router.sends_dispatch _ backend outbox⟩
    rw [handle, ← Prod.eta (service.router.handle backend event), houtbox]

/-- The messages of a transition are sent in order, up to and including the first one that is
refused, whichever messages a backend refuses. A delivery is an event, or else changes nothing. -/
theorem dispatches_in_order (service : Service) (backend : Backend) :
    (∀ event, service.Dispatches backend event (service.router.handle backend event).1
      (service.router.handle backend event).2) ∧
    ∀ delivery,
      (∃ event, delivery.event = .ok event ∧
        service.deliver backend delivery = service.handle backend event) ∨
      ∃ fault, delivery.event = .error fault ∧
        service.deliver backend delivery = (service, .error (.codec fault)) := by
  refine ⟨fun event => service.dispatches_handle backend event, fun delivery => ?_⟩
  rw [deliver]
  cases delivery.event with
  | ok event => exact .inl ⟨event, rfl, rfl⟩
  | error fault => exact .inr ⟨fault, rfl, rfl⟩

/-- The transport to one rank is down. -/
def refusingSends (receiver : Rank) : Backend
  | _, .send other _ => if other = receiver then some ⟨"send_control_message", "down"⟩ else none
  | _, _ => none

/-- The node has reached the peers of its chassis before it finds its partner. -/
def turnsBeforePartner : List Event :=
  [.channel ⟨1, 1, "p0-a", true⟩, .channel ⟨2, 2, "p0-a", true⟩, .channel ⟨3, 3, "p0-a", true⟩,
    .connection ⟨.tx, 1, 0, true⟩, .connection ⟨.tx, 2, 0, true⟩, .connection ⟨.tx, 3, 0, true⟩]

/-- Three announcements are due and the second one is refused. The third one is not tried. -/
theorem dispatches_in_order_eight : ∃ topology start,
    Topology.ofMembers (Layout.members 8) 0 .auto = .ok topology ∧
      (Router.create .cube topology).2 = .ok start ∧
        let service : Service := ⟨start.run .accepting turnsBeforePartner⟩
        let event : Event := .channel ⟨9, 4, "p0-b", true⟩
        (service.router.handle (refusingSends 2) event).2 = .ok
            [⟨1, .outerAnnounce 0 "p0-a"⟩, ⟨2, .outerAnnounce 0 "p0-a"⟩,
              ⟨3, .outerAnnounce 0 "p0-a"⟩] ∧
          (service.handle (refusingSends 2) event).1.journal.attempts =
            (service.router.handle (refusingSends 2) event).1.node.journal.attempts ++
              [⟨.send 1 (ControlMessage.outerAnnounce 0 "p0-a").encode, none⟩,
                ⟨.send 2 (ControlMessage.outerAnnounce 0 "p0-a").encode,
                  some ⟨"send_control_message", "down"⟩⟩] ∧
          (service.handle (refusingSends 2) event).1.journal.failures =
            [.undeliverable 2 "send_control_message failed: down"] ∧
          service.Dispatches (refusingSends 2) event
            (service.router.handle (refusingSends 2) event).1
            (service.router.handle (refusingSends 2) event).2 := by
  obtain ⟨topology, start, hvalid, hcreate, houtbox, hattempts, hfailures⟩ : ∃ topology start,
      Topology.ofMembers (Layout.members 8) 0 .auto = .ok topology ∧
        (Router.create .cube topology).2 = .ok start ∧
          let service : Service := ⟨start.run .accepting turnsBeforePartner⟩
          let event : Event := .channel ⟨9, 4, "p0-b", true⟩
          (service.router.handle (refusingSends 2) event).2 = .ok
              [⟨1, .outerAnnounce 0 "p0-a"⟩, ⟨2, .outerAnnounce 0 "p0-a"⟩,
                ⟨3, .outerAnnounce 0 "p0-a"⟩] ∧
            (service.handle (refusingSends 2) event).1.journal.attempts =
              (service.router.handle (refusingSends 2) event).1.node.journal.attempts ++
                [⟨.send 1 (ControlMessage.outerAnnounce 0 "p0-a").encode, none⟩,
                  ⟨.send 2 (ControlMessage.outerAnnounce 0 "p0-a").encode,
                    some ⟨"send_control_message", "down"⟩⟩] ∧
            (service.handle (refusingSends 2) event).1.journal.failures =
              [.undeliverable 2 "send_control_message failed: down"] :=
    Router.exists_created (by decide +kernel)
  exact ⟨topology, start, hvalid, hcreate, houtbox, hattempts, hfailures,
    (dispatches_in_order _ _).1 _⟩

end Service

end MeshFormation
