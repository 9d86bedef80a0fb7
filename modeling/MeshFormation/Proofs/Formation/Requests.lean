import MeshFormation.Proofs.Fabric.Delivery
import MeshFormation.Proofs.Node.Transmits

/-!
# What a node asks for in a fabric

The backend of a fabric accepts every transmit on a wired channel, and it accepts the lock. So a
node that only asks for transmits on its own channels gets all it asks for.
-/

namespace MeshFormation

namespace Journal

/-- The transmits that were accepted, in order. -/
def requests (journal : Journal) : List (Rank × Channel) :=
  journal.accepted.filterMap fun
    | .establish source channel => some (source, channel)
    | _ => none

theorem mem_requests_iff {journal : Journal} {source : Rank} {channel : Channel} :
    (source, channel) ∈ journal.requests ↔ .establish source channel ∈ journal.accepted := by
  rw [requests, List.mem_filterMap]
  constructor
  · rintro ⟨call, hmem, hcall⟩
    cases call with
    | establish source' channel' =>
      obtain ⟨rfl, rfl⟩ := Prod.mk.inj (Option.some.inj hcall)
      exact hmem
    | _ => exact absurd hcall (by simp)
  · intro hmem
    exact ⟨_, hmem, rfl⟩

end Journal

namespace Node

/-- The node that had the lock accepted. -/
def locking (node : Node) : Node :=
  { node with journal := { node.journal with
      attempts := node.journal.attempts ++ [⟨.lock, none⟩] } }

variable {node : Node} {wiring : Wiring} {due : List (Rank × Channel)} {source : Rank}
  {channel : Channel}

@[simp] theorem requests_asking (node : Node) (due : List (Rank × Channel)) :
    (node.asking due).journal.requests = node.journal.requests ++ due := by
  have hdue : (((due.map fun request => (⟨.establish request.1 request.2, none⟩ : Attempt)).filter
      (·.refusal.isNone)).map (·.call)).filterMap (fun
        | .establish source channel => some (source, channel)
        | _ => none) = due := by
    induction due with
    | nil => rfl
    | cons request rest ih => simpa using ih
  rw [Journal.requests, Journal.accepted, asking, List.filter_append, List.map_append,
    List.filterMap_append, hdue]
  rfl

@[simp] theorem locks_asking (node : Node) (due : List (Rank × Channel)) :
    (node.asking due).journal.locks = node.journal.locks := by
  have hdue : (((due.map fun request => (⟨.establish request.1 request.2, none⟩ : Attempt)).filter
      (·.refusal.isNone)).map (·.call)).count .lock = 0 := by
    rw [List.count_eq_zero]
    intro hmem
    obtain ⟨attempt, hattempt, hlock⟩ := List.mem_map.1 hmem
    obtain ⟨request, -, rfl⟩ := List.mem_map.1 (List.mem_filter.1 hattempt).1
    exact absurd hlock (by simp)
  rw [Journal.locks, Journal.accepted, asking, List.filter_append, List.map_append,
    List.count_append, hdue]
  rfl

@[simp] theorem requests_locking (node : Node) :
    node.locking.journal.requests = node.journal.requests := by
  simp [Journal.requests, Journal.accepted, locking]

@[simp] theorem locks_locking (node : Node) :
    node.locking.journal.locks = node.journal.locks + 1 := by
  simp [Journal.locks, Journal.accepted, locking]

@[simp] theorem requests_sending (node : Node) (outbox : Outbox) :
    (node.sending outbox).journal.requests = node.journal.requests := by
  have hsent : ((outbox.attempts.filter (·.refusal.isNone)).map (·.call)).filterMap (fun
      | .establish source channel => some (source, channel)
      | _ => none) = ([] : List (Rank × Channel)) := by
    rw [Outbox.attempts]
    induction outbox with
    | nil => rfl
    | cons outbound rest ih => simp
  rw [Journal.requests, Journal.accepted, sending, List.filter_append, List.map_append,
    List.filterMap_append, hsent, List.append_nil]
  rfl

@[simp] theorem locks_sending (node : Node) (outbox : Outbox) :
    (node.sending outbox).journal.locks = node.journal.locks := by
  have hsent : ((outbox.attempts.filter (·.refusal.isNone)).map (·.call)).count .lock = 0 := by
    rw [List.count_eq_zero, Outbox.attempts]
    simp
  rw [Journal.locks, Journal.accepted, sending, List.filter_append, List.map_append,
    List.count_append, hsent]
  rfl

theorem request_backend (node : Node) {call : Call} (h : wiring.backend node.journal.attempts call =
    none) : node.request wiring.backend call = ({ node with journal := { node.journal with
      attempts := node.journal.attempts ++ [⟨call, none⟩] } }, true) := by
  simp only [request, Journal.attempt, h]

theorem establish_backend (h : wiring.contains channel = true) :
    node.establish wiring.backend source channel = (node.asking [(source, channel)], true) := by
  rw [establish, request_backend]
  · rfl
  · simp [Wiring.backend, h]

theorem establishAll_backend (h : ∀ request ∈ due, wiring.contains request.2 = true) :
    node.establishAll wiring.backend due = (node.asking due, true) := by
  induction due generalizing node with
  | nil => rw [establishAll, asking_nil]
  | cons request rest ih =>
    obtain ⟨source, channel⟩ := request
    rw [establishAll, establish_backend (h _ List.mem_cons_self)]
    dsimp only
    rw [ih fun other hmem => h other (List.mem_cons_of_mem _ hmem), ← asking_append]
    rfl

theorem lock_backend (node : Node) :
    node.request wiring.backend .lock = (node.locking, true) :=
  request_backend node rfl

end Node

/-- The transmit that an accepted request becomes. -/
def Parcel.ofRequest (node : Rank) (wiring : Wiring) (request : Rank × Channel) : Option Parcel :=
  (wiring.get? request.2).map fun (far, farChannel) =>
    .transmit request.1 node request.2 far farChannel

namespace Site

variable {site : Site} {event : Event} {rank : Rank}

/-- The transmits that an event makes a node ask for. -/
def due (site : Site) (event : Event) : List (Rank × Channel) :=
  Journal.requests ⟨site.made event, []⟩

theorem requests_after (site : Site) (event : Event) :
    (site.after event).node.journal.requests =
      site.node.journal.requests ++ site.due event := by
  rw [node_after, Node.requests_sending, Journal.requests, Journal.accepted,
    (site.attempts_handled event).1, List.filter_append, List.map_append, List.filterMap_append]
  rfl

theorem filterMap_ofAttempt {attempts : List Attempt} {wiring : Wiring}
    (h : ∀ attempt ∈ attempts, attempt.call.isSend = false) :
    attempts.filterMap (Parcel.ofAttempt rank wiring) =
      (Journal.requests ⟨attempts, []⟩).filterMap (Parcel.ofRequest rank wiring) := by
  induction attempts with
  | nil => rfl
  | cons attempt rest ih =>
    have hrest := ih fun other hmem => h other (List.mem_cons_of_mem _ hmem)
    have hfirst := h attempt List.mem_cons_self
    simp only [Journal.requests, Journal.accepted] at hrest ⊢
    rw [List.filterMap_cons, List.filter_cons, hrest]
    obtain ⟨call, refusal⟩ := attempt
    cases refusal with
    | some refusal => simp [Parcel.ofAttempt]
    | none =>
      cases call with
      | establish source channel =>
        simp only [Parcel.ofAttempt, Option.isNone_none, if_true, List.map_cons,
          List.filterMap_cons, Parcel.ofRequest]
      | disable channel => simp [Parcel.ofAttempt]
      | lock => simp [Parcel.ofAttempt]
      | send receiver payload => exact absurd hfirst (by simp [Call.isSend])

/-- An event queues the transmits that the node asked for, then the messages that it sends. -/
theorem parcels_eq (site : Site) (event : Event) (rank : Rank) : site.parcels rank event =
    (site.due event).filterMap (Parcel.ofRequest rank site.wiring) ++
      Outbox.parcels (Router.outboxOf (site.handled event).2) := by
  rw [parcels, filterMap_ofAttempt (site.attempts_handled event).2]
  rfl

end Site

end MeshFormation
