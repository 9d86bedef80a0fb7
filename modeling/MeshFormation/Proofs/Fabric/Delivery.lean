import MeshFormation.Proofs.Fabric.Start
import MeshFormation.Proofs.Router.Knowledge
import MeshFormation.Proofs.Service.Control

/-!
# One delivery and the next

A delivery changes the node it is made to, and appends to the queue the transmits that this node
had accepted and the messages that it sent. A transmit is two deliveries in a row, so a property of
fabrics that survives every single delivery survives every step.
-/

namespace MeshFormation

def Outbox.attempts (outbox : Outbox) : List Attempt :=
  outbox.map fun outbound => ⟨.send outbound.receiver outbound.message.encode, none⟩

/-- The queue entries that the messages of an outbox become. -/
def Outbox.parcels (outbox : Outbox) : List Parcel :=
  outbox.map fun outbound => .delivery outbound.receiver (.control outbound.message.encode)

/-- The node that has sent the messages of an outbox. -/
def Node.sending (node : Node) (outbox : Outbox) : Node :=
  { node with
    journal := { node.journal with attempts := node.journal.attempts ++ outbox.attempts } }

namespace Node

@[simp] theorem topology_sending (node : Node) (outbox : Outbox) :
    (node.sending outbox).topology = node.topology := rfl

@[simp] theorem rank_sending (node : Node) (outbox : Outbox) :
    (node.sending outbox).rank = node.rank := rfl

@[simp] theorem sending_nil (node : Node) : node.sending [] = node := by
  simp [sending, Outbox.attempts]

end Node

/-- Which event a readable delivery is. -/
inductive Delivery.Reads : Delivery → Event → Prop where
  | channel (event : ChannelEvent) : Reads (.channel event) (.channel event)
  | connection (event : ConnectionEvent) : Reads (.connection event) (.connection event)
  | network (event : NetworkEvent) : Reads (.network event) (.network event)
  | forward (payload : Payload) (forwarder receiver : Rank) :
    Reads (.control payload) (.forward forwarder receiver)
  | announce (payload : Payload) (announcer : Rank) (chassis : String) :
    Reads (.control payload) (.outerAnnounce announcer chassis)
  | failure (reason : FailureReason) : Reads (.failure reason) (.failure reason)

theorem Delivery.reads {delivery : Delivery} {event : Event} (h : delivery.event = .ok event) :
    delivery.Reads event := by
  cases delivery with
  | control payload =>
    rw [Delivery.event] at h
    cases hdecode : ControlMessage.decode payload with
    | error fault => simp [hdecode, Except.map] at h
    | ok message =>
      rw [hdecode] at h
      obtain rfl := Except.ok.inj h
      cases message with
      | forward forwarder receiver => exact .forward payload forwarder receiver
      | outerAnnounce announcer chassis => exact .announce payload announcer chassis
  | channel known =>
    obtain rfl := Except.ok.inj h
    exact .channel known
  | connection completed =>
    obtain rfl := Except.ok.inj h
    exact .connection completed
  | network changed =>
    obtain rfl := Except.ok.inj h
    exact .network changed
  | failure reason =>
    obtain rfl := Except.ok.inj h
    exact .failure reason

namespace Service

/-- The transport of a fabric takes every message. -/
theorem dispatch_backend (router : Router) (wiring : Wiring) (outbox : Outbox) :
    dispatch ⟨router⟩ wiring.backend outbox =
      ⟨{ router with node := router.node.sending outbox }⟩ := by
  induction outbox generalizing router with
  | nil => rw [Node.sending_nil, dispatch]
  | cons outbound rest ih =>
    rw [dispatch]
    simp only [Journal.attempt, Wiring.backend]
    rw [ih]
    simp [Node.sending, Outbox.attempts]

theorem handle_backend (service : Service) (wiring : Wiring) (event : Event) :
    (service.handle wiring.backend event).1 =
      ⟨{ (service.router.handle wiring.backend event).1 with
        node := (service.router.handle wiring.backend event).1.node.sending
          (Router.outboxOf (service.router.handle wiring.backend event).2) }⟩ := by
  rw [handle]
  cases hhandle : service.router.handle wiring.backend event with
  | mk router result =>
    cases result with
    | error error => simp [Router.outboxOf]
    | ok outbox => exact dispatch_backend router wiring outbox

end Service

namespace Router

theorem continues_channelLost (node : Node) (channel : Channel) :
    node.Continues (node.channelLost channel) := by
  unfold Node.channelLost
  split
  · exact .refl node
  · have hfail := Node.advances_fail { node with
      bindings := node.bindings.erase channel
      lostChannels := node.lostChannels.add channel } (.channelLost channel ‹_›)
    exact ⟨hfail.topology, hfail.isFailed, hfail.attempts⟩

/-- No event of any kind lets a node recover or send on its own account. -/
theorem continues_handle (router : Router) (backend : Backend) (event : Event) :
    router.node.Continues (router.handle backend event).1.node := by
  have hfail : ∀ reason, router.node.Continues (router.node.fail reason) :=
    fun reason => (router.node.advances_fail reason).toContinues
  cases event with
  | channel event =>
    by_cases hconnected : event.connected = true
    · exact (channelEffect_handle router backend hconnected).toContinues
    · rw [handle]
      split
      · exact .refl _
      · simp only [channelChanged, hconnected, Bool.not_false, if_true]
        exact continues_channelLost router.node event.channel
  | connection event =>
    obtain ⟨direction, channel, source, connected⟩ := event
    cases connected with
    | false =>
      rw [handle]
      split
      · exact .refl _
      · exact hfail _
    | true =>
      cases direction with
      | rx => exact (receiveEffect_handle router backend channel source).1.toContinues
      | tx => exact (transmitEffect_handle router backend channel source).toContinues
  | forward forwarder receiver =>
    exact (forwardEffect_handle router backend forwarder receiver).1.toContinues
  | outerAnnounce announcer chassis =>
    exact (advances_handle_outerAnnounce router backend announcer chassis).1.toContinues
  | network event => exact (advances_handle_network router backend event).1.toContinues
  | failure reason =>
    rw [handle]
    split
    · exact .refl _
    · exact hfail reason

end Router

namespace Site

def handled (site : Site) (event : Event) : Router × Except RouterError Outbox :=
  site.service.router.handle site.wiring.backend event

def after (site : Site) (event : Event) : Site :=
  { site with service := ⟨{ (site.handled event).1 with
      node := (site.handled event).1.node.sending (Router.outboxOf (site.handled event).2) }⟩ }

/-- The attempts that the router of a site makes at an event, apart from sending messages. -/
def made (site : Site) (event : Event) : List Attempt :=
  (site.handled event).1.node.journal.attempts.drop site.node.journal.attempts.length

/-- What an event at a site puts into the queue. -/
def parcels (rank : Rank) (site : Site) (event : Event) : List Parcel :=
  (site.made event).filterMap (Parcel.ofAttempt rank site.wiring) ++
    Outbox.parcels (Router.outboxOf (site.handled event).2)

@[simp] theorem wiring_after (site : Site) (event : Event) :
    (site.after event).wiring = site.wiring := rfl

theorem node_after (site : Site) (event : Event) :
    (site.after event).node =
      (site.handled event).1.node.sending (Router.outboxOf (site.handled event).2) := rfl

theorem attempts_handled (site : Site) (event : Event) :
    (site.handled event).1.node.journal.attempts =
        site.node.journal.attempts ++ site.made event ∧
      ∀ attempt ∈ site.made event, attempt.call.isSend = false := by
  obtain ⟨made, hmade, hsend⟩ :=
    (Router.continues_handle site.service.router site.wiring.backend event).attempts
  have hdrop : site.made event = made := by
    rw [Site.made, handled, hmade, Site.node, List.drop_left]
  rw [hdrop]
  exact ⟨hmade, hsend⟩

/-- A transmit that a site had accepted after an event was accepted before or at the event. -/
theorem establish_mem_accepted_after_iff {site : Site} {event : Event} {source : Rank}
    {channel : Channel} :
    .establish source channel ∈ (site.after event).node.journal.accepted ↔
      .establish source channel ∈ site.node.journal.accepted ∨
        (⟨.establish source channel, none⟩ : Attempt) ∈ site.made event := by
  rw [Journal.mem_accepted_iff, Journal.mem_accepted_iff, node_after, Node.sending]
  simp only [(site.attempts_handled event).1, Outbox.attempts, List.mem_append, List.mem_map,
    Attempt.mk.injEq, reduceCtorEq, false_and, and_false, exists_false, or_false]

/-- An event queues a transmit for every accepted request on a wired channel, and every message. -/
theorem mem_parcels_iff {rank : Rank} {site : Site} {event : Event} {parcel : Parcel} :
    parcel ∈ site.parcels rank event ↔
      (∃ source channel far farChannel,
        (⟨.establish source channel, none⟩ : Attempt) ∈ site.made event ∧
          site.wiring.get? channel = some (far, farChannel) ∧
            parcel = .transmit source rank channel far farChannel) ∨
        ∃ outbound ∈ Router.outboxOf (site.handled event).2,
          parcel = .delivery outbound.receiver (.control outbound.message.encode) := by
  have hsend := (site.attempts_handled event).2
  rw [parcels, List.mem_append, List.mem_filterMap, Outbox.parcels, List.mem_map]
  apply or_congr
  · constructor
    · rintro ⟨⟨call, refusal⟩, hmem, hparcel⟩
      cases refusal with
      | some refusal => exact absurd hparcel (by simp [Parcel.ofAttempt])
      | none =>
        cases call with
        | establish source channel =>
          obtain ⟨⟨far, farChannel⟩, hwired, rfl⟩ := Option.map_eq_some_iff.1 hparcel
          exact ⟨source, channel, far, farChannel, hmem, hwired, rfl⟩
        | disable channel => exact absurd hparcel (by simp [Parcel.ofAttempt])
        | lock => exact absurd hparcel (by simp [Parcel.ofAttempt])
        | send receiver payload => exact absurd (hsend _ hmem) (by simp [Call.isSend])
    · rintro ⟨source, channel, far, farChannel, hmem, hwired, rfl⟩
      exact ⟨_, hmem, by simp [Parcel.ofAttempt, hwired]⟩
  · constructor
    · rintro ⟨outbound, hmem, rfl⟩
      exact ⟨outbound, hmem, rfl⟩
    · rintro ⟨outbound, hmem, rfl⟩
      exact ⟨outbound, hmem, rfl⟩

end Site

theorem Outbox.filterMap_attempts (outbox : Outbox) (rank : Rank) (wiring : Wiring) :
    outbox.attempts.filterMap (Parcel.ofAttempt rank wiring) = outbox.parcels := by
  induction outbox with
  | nil => rfl
  | cons outbound rest ih =>
    simp only [Outbox.attempts, Outbox.parcels, List.map_cons, List.filterMap_cons,
      Parcel.ofAttempt] at ih ⊢
    rw [ih]

namespace Fabric

variable {fabric next : Fabric} {target : Rank} {delivery : Delivery} {event : Event} {site : Site}

@[simp] theorem sites_noteDiscovery (fabric : Fabric) (target : Rank) (delivery : Delivery) :
    (fabric.noteDiscovery target delivery).sites = fabric.sites := by
  unfold noteDiscovery
  split
  · split <;> rfl
  · rfl

@[simp] theorem queue_noteDiscovery (fabric : Fabric) (target : Rank) (delivery : Delivery) :
    (fabric.noteDiscovery target delivery).queue = fabric.queue := by
  unfold noteDiscovery
  split
  · split <;> rfl
  · rfl

@[simp] theorem errors_noteDiscovery (fabric : Fabric) (target : Rank) (delivery : Delivery) :
    (fabric.noteDiscovery target delivery).errors = fabric.errors := by
  unfold noteDiscovery
  split
  · split <;> rfl
  · rfl

/-- A readable delivery to a rank with a site is one event at that site. -/
theorem deliverTo_of_site (hsite : fabric.sites.get? target = some site)
    (hevent : delivery.event = .ok event) :
    (fabric.deliverTo target delivery).sites = fabric.sites.insert target (site.after event) ∧
      (fabric.deliverTo target delivery).queue = fabric.queue ++ site.parcels target event ∧
      (fabric.deliverTo target delivery).knownChannels =
        (fabric.noteDiscovery target delivery).knownChannels ∧
      (∀ outbox, (site.handled event).2 = .ok outbox →
        (fabric.deliverTo target delivery).errors = fabric.errors) := by
  have hdeliver : (site.service.deliver site.wiring.backend delivery).1 =
      (site.after event).service := by
    rw [Service.deliver, hevent]
    exact Service.handle_backend site.service site.wiring event
  have hattempts : (site.after event).service.journal.attempts.drop
      site.service.journal.attempts.length =
        site.made event ++ (Router.outboxOf (site.handled event).2).attempts := by
    have hmade := (site.attempts_handled event).1
    have hsent : (site.after event).service.journal.attempts =
        (site.handled event).1.node.journal.attempts ++
          (Router.outboxOf (site.handled event).2).attempts := rfl
    rw [hsent, hmade, List.append_assoc]
    exact List.drop_left
  have hresult : ∀ outbox, (site.handled event).2 = .ok outbox →
      (site.service.deliver site.wiring.backend delivery).2 = .ok () := by
    intro outbox houtbox
    rw [Service.deliver, hevent]
    change (Service.handle _ _ _).2 = _
    unfold Service.handle
    cases hhandle : site.service.router.handle site.wiring.backend event with
    | mk router result =>
      rw [Site.handled, hhandle] at houtbox
      obtain rfl : result = .ok outbox := houtbox
      rfl
  unfold deliverTo
  simp only [sites_noteDiscovery, hsite, queue_noteDiscovery, errors_noteDiscovery]
  rw [hdeliver, hattempts, List.filterMap_append, Outbox.filterMap_attempts]
  refine ⟨rfl, rfl, trivial, fun outbox houtbox => ?_⟩
  rw [hresult outbox houtbox]

theorem node?_deliverTo (hsite : fabric.sites.get? target = some site)
    (hevent : delivery.event = .ok event) (rank : Rank) :
    (fabric.deliverTo target delivery).node? rank =
      if rank = target then some (site.after event).node else fabric.node? rank := by
  rw [node?, (deliverTo_of_site hsite hevent).1, Table.get?_insert]
  split <;> rfl

theorem deliverTo_of_none (hsite : fabric.sites.get? target = none) :
    fabric.deliverTo target delivery = fabric.noteDiscovery target delivery := by
  unfold deliverTo
  simp only [sites_noteDiscovery, hsite]

theorem ofAttempt_eq_some {rank : Rank} {wiring : Wiring} {attempt : Attempt} {parcel : Parcel}
    (h : Parcel.ofAttempt rank wiring attempt = some parcel) :
    (∃ source channel far farChannel, parcel = .transmit source rank channel far farChannel) ∨
      ∃ receiver payload, parcel = .delivery receiver (.control payload) := by
  unfold Parcel.ofAttempt at h
  split at h
  · obtain ⟨farEnd, -, rfl⟩ := Option.map_eq_some_iff.1 h
    exact .inl ⟨_, _, _, _, rfl⟩
  · exact .inr ⟨_, _, (Option.some.inj h).symm⟩
  · exact absurd h (by simp)

/-- A delivery adds transmits of its node and control messages to the queue, and nothing else. -/
theorem exists_queue_deliverTo (fabric : Fabric) (target : Rank) (delivery : Delivery) :
    ∃ new, (fabric.deliverTo target delivery).queue = fabric.queue ++ new ∧ ∀ parcel ∈ new,
      (∃ source channel far farChannel, parcel = .transmit source target channel far farChannel) ∨
        ∃ receiver payload, parcel = .delivery receiver (.control payload) := by
  unfold deliverTo
  simp only [sites_noteDiscovery, queue_noteDiscovery]
  split
  · exact ⟨[], by simp, by simp⟩
  · refine ⟨_, rfl, fun parcel hmem => ?_⟩
    obtain ⟨attempt, -, hattempt⟩ := List.mem_filterMap.1 hmem
    exact ofAttempt_eq_some hattempt

/-! ## Steps -/

/-- The second fabric is the first one with an entry taken out of the queue. -/
structure Takes (fabric : Fabric) (before : List Parcel) (parcel : Parcel) (behind : List Parcel)
    (rest : Fabric) : Prop where
  queue : fabric.queue = before ++ parcel :: behind
  left : rest.queue = before ++ behind
  sites : rest.sites = fabric.sites
  known : rest.knownChannels = fabric.knownChannels
  errors : rest.errors = fabric.errors

theorem step?_eq_some {index : Nat} (h : fabric.step? index = some next) :
    ∃ before parcel behind rest, fabric.Takes before parcel behind rest ∧
      before = fabric.queue.take index ∧ fabric.queue[index]? = some parcel ∧
      next = rest.deliver parcel := by
  rw [step?] at h
  split at h
  · exact absurd h (by simp)
  · rename_i parcel hparcel
    obtain ⟨hindex, rfl⟩ := List.getElem?_eq_some_iff.1 hparcel
    refine ⟨fabric.queue.take index, _, fabric.queue.drop (index + 1),
      { fabric with
        queue := fabric.queue.eraseIdx index
        delivered := fabric.delivered + fabric.queue[index].weight },
      ⟨?_, ?_, rfl, rfl, rfl⟩, rfl, hparcel, (Option.some.inj h).symm⟩
    · rw [← List.drop_eq_getElem_cons hindex, List.take_append_drop]
    · exact List.eraseIdx_eq_take_drop_succ fabric.queue index

def push (fabric : Fabric) (parcel : Parcel) : Fabric :=
  { fabric with queue := parcel :: fabric.queue }

theorem takes_push (fabric : Fabric) (parcel : Parcel) :
    (fabric.push parcel).Takes [] parcel fabric.queue fabric :=
  ⟨rfl, rfl, rfl, rfl, rfl⟩

/-- The states that a fabric can come to, whatever entry each step takes. -/
inductive Reachable (start : Fabric) : Fabric → Prop where
  | start : Reachable start start
  | step {fabric next : Fabric} {index : Nat} (reached : Reachable start fabric)
      (step : fabric.step? index = some next) : Reachable start next

/-- The state after the entries at several places were delivered, one after the other. -/
def follow? (fabric : Fabric) : List Nat → Option Fabric
  | [] => some fabric
  | index :: rest => (fabric.step? index).bind fun next => next.follow? rest

theorem Reachable.follow? {start : Fabric} (h : Reachable start fabric) {choices : List Nat}
    (hnext : fabric.follow? choices = some next) : Reachable start next := by
  induction choices generalizing fabric with
  | nil =>
    obtain rfl := Option.some.inj hnext
    exact h
  | cons index rest ih =>
    obtain ⟨middle, hmiddle, hrest⟩ := Option.bind_eq_some_iff.1 hnext
    exact ih (h.step hmiddle) hrest

/-- A property holds in every reachable state if it survives every single delivery. After the first
half of a transmit, the second half stands in front of the queue. -/
theorem Reachable.invariant {start : Fabric} {Inv : Fabric → Prop} (hstart : Inv start)
    (hdelivery : ∀ {fabric rest : Fabric} {before behind : List Parcel} {target : Rank}
      {delivery : Delivery}, Inv fabric →
        fabric.Takes before (.delivery target delivery) behind rest →
          Inv (rest.deliverTo target delivery))
    (htransmit : ∀ {fabric rest : Fabric} {before behind : List Parcel} {source near far : Rank}
      {nearChannel farChannel : Channel}, Inv fabric →
        fabric.Takes before (.transmit source near nearChannel far farChannel) behind rest →
          Inv ((rest.deliverTo near (.connection ⟨.tx, nearChannel, source, true⟩)).push
            (.delivery far (.connection ⟨.rx, farChannel, source, true⟩))))
    (h : Reachable start fabric) : Inv fabric := by
  induction h with
  | start => exact hstart
  | step reached step ih =>
    obtain ⟨before, parcel, behind, rest, htakes, -, -, rfl⟩ := step?_eq_some step
    cases parcel with
    | delivery target delivery => exact hdelivery ih htakes
    | transmit source near nearChannel far farChannel =>
      exact hdelivery (htransmit ih htakes) (takes_push _ _)

end Fabric

end MeshFormation
