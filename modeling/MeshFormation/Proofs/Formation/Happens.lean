import MeshFormation.Proofs.Formation.Forming

/-!
# One event in a fabric

An event at one site takes an entry out of the queue, changes this site and adds entries behind: the
transmits that the node asks for and the messages that it sends.
-/

namespace MeshFormation.Fabric

variable {cabling : Cabling} {fabric next rest : Fabric} {front before behind : List Parcel}
  {parcel : Parcel} {source near far target receiver rank : Rank} {channel farChannel : Channel}
  {delivery : Delivery} {event : Event} {site other : Site} {outbox : Outbox}

/-- Taking an entry out of the queue starts an event at a node. The first half of a transmit leaves
the second half in front. -/
inductive Starts : Parcel → List Parcel → Rank → Event → Prop where
  | delivery {target : Rank} {delivery : Delivery} {event : Event}
    (readable : delivery.event = .ok event)
    (incoming : ∀ completed, delivery = .connection completed → completed.direction = .rx) :
      Starts (.delivery target delivery) [] target event
  | transmit {source near far : Rank} {channel farChannel : Channel} :
      Starts (.transmit source near channel far farChannel) [arrival far source farChannel] near
        (.connection ⟨.tx, channel, source, true⟩)

/-- An event at a site handles an entry of the queue without an error. -/
structure Happens (fabric next : Fabric) (front before : List Parcel) (parcel : Parcel)
    (behind : List Parcel) (target : Rank) (site : Site) (event : Event) : Prop where
  hosts : fabric.sites.get? target = some site
  taken : fabric.queue = before ++ parcel :: behind
  starts : Starts parcel front target event
  sites : next.sites = fabric.sites.insert target (site.after event)
  left : next.queue = front ++ (before ++ behind) ++ site.parcels target event
  known : ∀ {node channel}, (node, channel) ∈ next.knownChannels ↔
    (node, channel) ∈ fabric.knownChannels ∨
      node = target ∧ ∃ peer, event.binding? = some (channel, peer)
  errors : next.errors = fabric.errors
  binding_iff : ∀ {channel far}, (site.after event).node.boundPeer? channel = some far ↔
    site.node.boundPeer? channel = some far ∨ event.binding? = some (channel, far)

/-- What is delivered is no transmit of the node that it is delivered to. -/
theorem departure?_eq_none_of_incoming {delivery : Delivery}
    (hreadable : delivery.event = .ok event)
    (hincoming : ∀ completed, delivery = .connection completed → completed.direction = .rx) :
    event.departure? = none := by
  cases Delivery.reads hreadable with
  | connection completed => simp [Event.departure?, hincoming completed rfl]
  | _ => rfl

namespace Starts

theorem errand (h : Starts parcel front target event) :
    parcel.errand?.toList = (event.errand? target).toList ++ front.filterMap Parcel.errand? := by
  cases h with
  | transmit => rfl
  | delivery readable incoming =>
    rw [List.filterMap_nil, List.append_nil]
    cases Delivery.reads readable with
    | connection completed => simp [Parcel.errand?, Event.errand?, incoming completed rfl]
    | _ => rfl

theorem departure (h : Starts parcel front target event) (near : Rank) :
    (if isTransmitFrom near parcel then 1 else 0) =
      if near = target then (if event.departure?.isSome then 1 else 0) else 0 := by
  cases h with
  | transmit =>
    by_cases hnear : near = target
    · simp [isTransmitFrom, Event.departure?, hnear]
    · simp [isTransmitFrom, hnear, Ne.symm hnear]
  | delivery readable incoming =>
    simp [isTransmitFrom, departure?_eq_none_of_incoming readable incoming]

theorem halves (h : Starts parcel front target event) {entry : Parcel} (hmem : entry ∈ front) :
    ∃ far source channel, entry = arrival far source channel := by
  cases h with
  | delivery => exact absurd hmem (by simp)
  | transmit =>
    obtain rfl := List.mem_singleton.1 hmem
    exact ⟨_, _, _, rfl⟩

theorem delivered {delivery : Delivery}
    (h : Starts (.delivery receiver delivery) front target event) :
    receiver = target ∧ delivery.event = .ok event := by
  cases h with
  | delivery readable incoming => exact ⟨rfl, readable⟩

theorem of_departure (h : Starts parcel front target event)
    (hdeparture : event.departure? = some (source, channel)) :
    ∃ far farChannel, parcel = .transmit source target channel far farChannel := by
  have hcount := h.departure target
  rw [hdeparture] at hcount
  cases h with
  | delivery readable incoming => exact absurd hcount (by simp [isTransmitFrom])
  | @transmit source' _ far channel' farChannel =>
    obtain ⟨rfl, rfl⟩ := Prod.mk.inj (Option.some.inj hdeparture)
    exact ⟨far, farChannel, rfl⟩

theorem of_link {peer : Rank} (h : Starts parcel front target event)
    (hlink : event.link? = some peer) :
    ∃ changed, changed.peer = peer ∧ parcel = .delivery target (.network changed) := by
  cases h with
  | transmit => exact absurd hlink (by simp [Event.link?])
  | delivery readable incoming =>
    cases Delivery.reads readable with
    | network changed => exact ⟨changed, Option.some.inj hlink, rfl⟩
    | _ => exact absurd hlink (by simp [Event.link?])

end Starts

/-! ## Transmits -/

theorem of_mem_transmits {requests : List (Rank × Channel)} {wiring : Wiring} {entry : Parcel}
    (hmem : entry ∈ requests.filterMap (Parcel.ofRequest target wiring)) :
    ∃ source channel far farChannel, entry = .transmit source target channel far farChannel := by
  obtain ⟨⟨source, channel⟩, -, hentry⟩ := List.mem_filterMap.1 hmem
  obtain ⟨⟨far, farChannel⟩, -, rfl⟩ := Option.map_eq_some_iff.1 hentry
  exact ⟨source, channel, far, farChannel, rfl⟩

/-- Every transmit that a node asks for on a wired channel is queued. -/
theorem length_transmits (target : Rank)
    (hwired : ∀ request ∈ site.due event, site.wiring.contains request.2 = true) :
    ((site.due event).filterMap (Parcel.ofRequest target site.wiring)).length =
      (site.due event).length := by
  rw [List.filterMap_length_eq_length]
  intro request hmem
  rw [Parcel.ofRequest, Option.isSome_map, ← Table.contains_eq_isSome]
  exact hwired request hmem

theorem countP_parcels (near : Rank)
    (hwired : ∀ request ∈ site.due event, site.wiring.contains request.2 = true) :
    (site.parcels target event).countP (isTransmitFrom near) =
      if near = target then (site.due event).length else 0 := by
  have hmessages : (Outbox.parcels (Router.outboxOf (site.handled event).2)).countP
      (isTransmitFrom near) = 0 := by
    simp [Outbox.parcels, List.countP_eq_zero, isTransmitFrom]
  rw [Site.parcels_eq, List.countP_append, hmessages, ← length_transmits target hwired]
  split
  · rename_i hnear
    rw [Nat.add_zero, List.countP_eq_length]
    intro entry hmem
    obtain ⟨source, channel, far, farChannel, rfl⟩ := of_mem_transmits hmem
    simp [isTransmitFrom, hnear]
  · rename_i hnear
    rw [Nat.add_zero, List.countP_eq_zero]
    intro entry hmem
    obtain ⟨source, channel, far, farChannel, rfl⟩ := of_mem_transmits hmem
    simp [isTransmitFrom, Ne.symm hnear]

/-! ## Sites and queue -/

namespace Happens

variable (h : Happens fabric next front before parcel behind target site event)
include h

theorem get? (rank : Rank) : next.sites.get? rank =
    if rank = target then some (site.after event) else fabric.sites.get? rank := by
  rw [h.sites, Table.get?_insert]

theorem node? (rank : Rank) : next.node? rank =
    if rank = target then some (site.after event).node else fabric.node? rank := by
  rw [Fabric.node?, h.get?, Fabric.node?]
  split <;> rfl

theorem node?_target : next.node? target = some (site.after event).node := by
  rw [h.node?, if_pos rfl]

/-- A site of the second state is the one where the event happened, or was there before. -/
theorem site_cases (hother : next.sites.get? rank = some other) :
    (rank = target ∧ other = site.after event) ∨
      rank ≠ target ∧ fabric.sites.get? rank = some other := by
  rw [h.get?] at hother
  split at hother
  · rename_i heq
    exact .inl ⟨heq, (Option.some.inj hother).symm⟩
  · rename_i hne
    exact .inr ⟨hne, hother⟩

theorem mem_or_mem {entry : Parcel} (hmem : entry ∈ next.queue) :
    (∃ far source channel, entry = arrival far source channel ∧ entry ∈ front) ∨
      entry ∈ fabric.queue ∨ entry ∈ site.parcels target event := by
  rw [h.left, List.mem_append, List.mem_append, List.mem_append] at hmem
  rw [h.taken, List.mem_append, List.mem_cons]
  rcases hmem with (hfront | hbefore | hbehind) | hnew
  · obtain ⟨far, source, channel, rfl⟩ := h.starts.halves hfront
    exact .inl ⟨far, source, channel, rfl, hfront⟩
  · exact .inr (.inl (.inl hbefore))
  · exact .inr (.inl (.inr (.inr hbehind)))
  · exact .inr (.inr hnew)

theorem eq_or_mem {entry : Parcel} (hmem : entry ∈ fabric.queue) :
    entry = parcel ∨ entry ∈ before ++ behind := by
  rw [h.taken, List.mem_append, List.mem_cons] at hmem
  rw [List.mem_append]
  rcases hmem with hbefore | heq | hbehind
  · exact .inr (.inl hbefore)
  · exact .inl heq
  · exact .inr (.inr hbehind)

theorem mem_of_rest {entry : Parcel} (hmem : entry ∈ before ++ behind) : entry ∈ next.queue := by
  rw [h.left, List.mem_append, List.mem_append]
  exact .inl (.inr hmem)

theorem mem_of_new {entry : Parcel} (hmem : entry ∈ site.parcels target event) :
    entry ∈ next.queue := by
  rw [h.left, List.mem_append]
  exact .inr hmem

/-- No event queues a channel event. -/
theorem mem_of_channel_mem {known : ChannelEvent}
    (hmem : .delivery near (.channel known) ∈ next.queue) :
    .delivery near (.channel known) ∈ fabric.queue := by
  rcases h.mem_or_mem hmem with ⟨_, _, _, heq, -⟩ | hold | hnew
  · exact absurd heq (by simp [arrival])
  · exact hold
  · rcases Site.mem_parcels_iff.1 hnew with ⟨_, _, _, _, -, -, heq⟩ | ⟨_, -, heq⟩
    · exact absurd heq (by simp)
    · exact absurd heq (by simp)

/-- A second half that waits was put in front or waited before. -/
theorem mem_of_arrival_mem (hmem : arrival far source channel ∈ next.queue) :
    arrival far source channel ∈ front ∨ arrival far source channel ∈ fabric.queue := by
  rcases h.mem_or_mem hmem with ⟨_, _, _, -, hfront⟩ | hold | hnew
  · exact .inl hfront
  · exact .inr hold
  · exact absurd hnew arrival_notMem_parcels

theorem isSome_node?_iff :
    (next.node? rank).isSome = true ↔ (fabric.node? rank).isSome = true := by
  rw [h.node?]
  split
  · rename_i heq
    subst heq
    rw [node?_of_site h.hosts]
    simp
  · rfl

theorem done_discovery_iff : Done next (.discovery rank channel) ↔
    Done fabric (.discovery rank channel) ∨
      rank = target ∧ ∃ peer, event.binding? = some (channel, peer) := by
  by_cases hrank : rank = target
  · subst hrank
    constructor
    · rintro ⟨state, peer, hstate, hbound⟩
      obtain rfl := Option.some.inj (h.node?_target.symm.trans hstate)
      rcases h.binding_iff.1 hbound with hold | hnew
      · exact .inl ⟨site.node, peer, node?_of_site h.hosts, hold⟩
      · exact .inr ⟨rfl, peer, hnew⟩
    · rintro (⟨state, peer, hstate, hbound⟩ | ⟨-, peer, hnew⟩)
      · obtain rfl := Option.some.inj ((node?_of_site h.hosts).symm.trans hstate)
        exact ⟨_, peer, h.node?_target, h.binding_iff.2 (.inl hbound)⟩
      · exact ⟨_, peer, h.node?_target, h.binding_iff.2 (.inr hnew)⟩
  · simp [Done, h.node?, hrank]

theorem bound_of_site (hother : fabric.sites.get? rank = some other)
    (hbound : other.node.boundPeer? channel = some far) :
    ∃ site, next.sites.get? rank = some site ∧ site.node.boundPeer? channel = some far := by
  by_cases hrank : rank = target
  · subst hrank
    obtain rfl := Option.some.inj (h.hosts.symm.trans hother)
    exact ⟨_, by rw [h.get?, if_pos rfl], h.binding_iff.2 (.inl hbound)⟩
  · exact ⟨other, by rw [h.get?, if_neg hrank, hother], hbound⟩

theorem errands_taken : fabric.errands.Perm (parcel.errand?.toList ++
    (before ++ behind).filterMap Parcel.errand?) := by
  have hparcel : [parcel].filterMap Parcel.errand? = parcel.errand?.toList := by
    rw [List.filterMap_cons]
    cases parcel.errand? <;> rfl
  rw [errands, h.taken, ← hparcel, ← List.filterMap_append]
  exact List.perm_middle.filterMap _

theorem countP_queue (near : Rank)
    (hwired : ∀ request ∈ site.due event, site.wiring.contains request.2 = true) :
    next.queue.countP (isTransmitFrom near) +
      (if near = target then (if event.departure?.isSome then 1 else 0) else 0) =
        fabric.queue.countP (isTransmitFrom near) +
          if near = target then (site.due event).length else 0 := by
  have hfront : front.countP (isTransmitFrom near) = 0 := by
    rw [List.countP_eq_zero]
    intro entry hmem
    obtain ⟨far, source, channel, rfl⟩ := h.starts.halves hmem
    simp [arrival, isTransmitFrom]
  rw [h.left, h.taken, List.countP_append, List.countP_append, List.countP_append,
    List.countP_append, List.countP_cons, hfront, countP_parcels near hwired,
    h.starts.departure]
  omega

end Happens

/-! ## Deliveries -/

theorem known_noteDiscovery_iff (htraced : Traced cabling fabric)
    (hmem : .delivery target delivery ∈ fabric.queue) (hevent : delivery.event = .ok event)
    {node : Rank} : (node, channel) ∈ (rest.noteDiscovery target delivery).knownChannels ↔
      (node, channel) ∈ rest.knownChannels ∨
        node = target ∧ ∃ peer, event.binding? = some (channel, peer) := by
  cases Delivery.reads hevent with
  | channel known =>
    obtain ⟨event, hevent, hhonest⟩ := htraced.queue _ hmem
    obtain rfl := Except.ok.inj hevent
    simp [noteDiscovery, hhonest.1, Event.binding?, or_comm, eq_comm]
  | _ => simp [noteDiscovery, Event.binding?]

/-- A delivery that a node handles without an error is an event at its site. -/
theorem happens_deliverTo (htraced : Traced cabling fabric)
    (htakes : fabric.Takes before (.delivery target delivery) behind rest)
    (hsite : fabric.sites.get? target = some site) (hevent : delivery.event = .ok event)
    (hok : (site.handled event).2 = .ok outbox)
    (hbinding : ∀ {channel far}, (site.after event).node.boundPeer? channel = some far ↔
      site.node.boundPeer? channel = some far ∨ event.binding? = some (channel, far)) :
    Happens fabric (rest.deliverTo target delivery) [] before (.delivery target delivery) behind
      target site event := by
  have hrest : rest.sites.get? target = some site := htakes.sites ▸ hsite
  obtain ⟨hsites, hqueue, hknown, herrors⟩ := deliverTo_of_site hrest hevent
  refine ⟨hsite, htakes.queue, .delivery hevent ?_, ?_, ?_, ?_, ?_, hbinding⟩
  · rintro completed rfl
    obtain ⟨event, hevent, hhonest⟩ := htraced.queue _ htakes.taken_mem
    obtain rfl := Except.ok.inj hevent
    exact hhonest.1
  · rw [hsites, htakes.sites]
  · rw [hqueue, htakes.left, List.nil_append]
  · intro node channel
    rw [hknown, known_noteDiscovery_iff htraced htakes.taken_mem hevent, htakes.known]
  · rw [herrors outbox hok, htakes.errors]

/-- The first half of a transmit is an event at the near end. -/
theorem happens_transmit
    (htakes : fabric.Takes before (.transmit source near channel far farChannel) behind rest)
    (hsite : fabric.sites.get? near = some site)
    (hok : (site.handled (.connection ⟨.tx, channel, source, true⟩)).2 = .ok outbox)
    (hbinding : ∀ {other peer},
      (site.after (.connection ⟨.tx, channel, source, true⟩)).node.boundPeer? other = some peer ↔
        site.node.boundPeer? other = some peer) :
    Happens fabric ((rest.deliverTo near (.connection ⟨.tx, channel, source, true⟩)).push
      (arrival far source farChannel)) [arrival far source farChannel] before
        (.transmit source near channel far farChannel) behind near site
          (.connection ⟨.tx, channel, source, true⟩) := by
  have hrest : rest.sites.get? near = some site := htakes.sites ▸ hsite
  have hevent : (Delivery.connection ⟨.tx, channel, source, true⟩).event =
      .ok (.connection ⟨.tx, channel, source, true⟩) := rfl
  obtain ⟨hsites, hqueue, hknown, herrors⟩ := deliverTo_of_site hrest hevent
  refine ⟨hsite, htakes.queue, .transmit, ?_, ?_, ?_, ?_, ?_⟩
  · rw [push, hsites, htakes.sites]
  · rw [push, hqueue, htakes.left]
    rfl
  · intro node other
    rw [push, hknown, ← htakes.known]
    simp [noteDiscovery, Event.binding?]
  · rw [push, herrors outbox hok, htakes.errors]
  · intro other peer
    rw [hbinding]
    simp [Event.binding?]

end MeshFormation.Fabric
