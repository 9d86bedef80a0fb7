import MeshFormation.Proofs.Formation.Pair
import MeshFormation.Proofs.Formation.Parallel

/-!
# A pair

Two nodes that make up a pair each send their own data to the other one, once. A node expects the
data of its peer as long as the peer has not started to transmit or the data is on its way; so what
a node expects and what the queue holds add up, and nothing arrives twice.
-/

namespace MeshFormation

namespace Site

variable {b : Blueprint} {site : Site} {event : Event} {due : List (Rank × Channel)} {target : Rank}

/-- What a node of a pair takes in does not make it send messages. -/
theorem router_after (h : (site.handled event).2 = .ok []) :
    (site.after event).service.router = (site.handled event).1 := by
  rw [after, h]
  simp [Router.outboxOf]

theorem due_of_turns (h : b.Turns target site.wiring site.service.router event due) :
    site.due event = due := by
  have hrequests := h.requests
  have hafter := site.requests_after event
  rw [node, router_after h.ok] at hafter
  exact List.append_cancel_left (hafter.symm.trans hrequests)

end Site

namespace Fabric

variable {b : Installation} {fabric next rest : Fabric} {front before behind : List Parcel}
  {parcel : Parcel} {source near far target rank : Rank} {channel farChannel : Channel}
  {event : Event} {site other : Site} {due : List (Rank × Channel)}

def isArrivalAt (far : Rank) : Parcel → Bool
  | .delivery target (.connection _) => far == target
  | _ => false

/-- Whether an entry is one of those that an ensemble of two nodes queues. -/
def isPlain : Parcel → Bool
  | .delivery _ (.channel _) => true
  | .delivery _ (.connection _) => true
  | .transmit _ _ _ _ _ => true
  | .delivery _ _ => false

theorem Starts.countP_front (h : Starts parcel front target event) (far : Rank) :
    (if isArrivalAt far parcel then 1 else 0) =
      if far = target then (if event.arrival?.isSome then 1 else 0) else 0 := by
  cases h with
  | transmit => simp [isArrivalAt, Event.arrival?]
  | @delivery _ delivery _ readable incoming =>
    have hnone : (∀ completed, delivery ≠ .connection completed) → event.arrival? = none := by
      intro hother
      cases Delivery.reads readable with
      | connection completed => exact absurd rfl (hother completed)
      | _ => rfl
    cases delivery with
    | connection completed =>
      obtain rfl := Except.ok.inj readable
      simp [isArrivalAt, Event.arrival?, incoming completed rfl]
    | _ => simp [isArrivalAt, hnone (by simp)]

/-- A state of two nodes that form a pair. -/
structure Pairing (b : Installation) (fabric : Fabric) : Prop where
  traced : Traced b.cabling fabric
  member : ∀ {rank}, (fabric.node? rank).isSome = true ↔ b.topology.hasMember rank = true
  paired : ∀ {near site}, fabric.sites.get? near = some site → b.Paired near site.service.router
  errors : fabric.errors = []
  known : ∀ {node channel}, (node, channel) ∈ fabric.knownChannels ↔
    Done fabric (.discovery node channel)
  used : ∀ {near site channel far}, fabric.sites.get? near = some site →
    site.node.boundPeer? channel = some far → b.used near channel = true
  stated : ∀ {node event}, .delivery node (.channel event) ∈ fabric.queue →
    b.topology.chassis? event.peer = some event.chassis ∧ b.used node event.channel = true
  plain : ∀ parcel ∈ fabric.queue, isPlain parcel = true
  arrives : ∀ {far source channel}, arrival far source channel ∈ fabric.queue →
    source ≠ far ∧ b.topology.hasMember source = true ∧
      ∃ site peer, fabric.sites.get? far = some site ∧ site.node.boundPeer? channel = some peer
  departs : ∀ {near site}, fabric.sites.get? near = some site →
    site.node.progress.expected.tx + site.node.journal.requests.length =
      1 + fabric.queue.countP (isTransmitFrom near)
  balance : ∀ {near far site other}, fabric.sites.get? near = some site →
    fabric.sites.get? far = some other → near ≠ far →
      other.node.progress.expected.rx =
        site.node.progress.expected.tx + fabric.queue.countP (isArrivalAt far)

namespace Pairing

variable (h : Pairing b fabric)
include h

theorem hasMember (hsite : fabric.sites.get? near = some site) :
    b.topology.hasMember near = true :=
  h.member.1 (isSome_node?_iff_exists_site.2 ⟨site, hsite⟩)

theorem exists_site (hmember : b.topology.hasMember near = true) :
    ∃ site, fabric.sites.get? near = some site :=
  isSome_node?_iff_exists_site.1 (h.member.2 hmember)

variable (hpair : b.OfPair)
  (hhappens : Happens fabric next front before parcel behind target site event)
  (hturns : b.Turns target site.wiring site.service.router event due)
  (hwired : ∀ request ∈ due, site.wiring.contains request.2 = true)
  (hfront : ∀ {far source channel}, arrival far source channel ∈ front →
    source = target ∧ target ≠ far ∧
      ∃ site peer, fabric.sites.get? far = some site ∧ site.node.boundPeer? channel = some peer)
include hpair hhappens hturns hwired hfront

omit h hpair hturns hwired hfront in
theorem countP_arrivals (far : Rank) :
    next.queue.countP (isArrivalAt far) +
      (if far = target then (if event.arrival?.isSome then 1 else 0) else 0) =
        fabric.queue.countP (isArrivalAt far) + front.countP (isArrivalAt far) := by
  have hnew : (site.parcels target event).countP (isArrivalAt far) = 0 := by
    rw [List.countP_eq_zero]
    intro entry hmem
    rcases Site.mem_parcels_iff.1 hmem with ⟨_, _, _, _, -, -, rfl⟩ | ⟨_, -, rfl⟩
    · simp [isArrivalAt]
    · simp [isArrivalAt]
  rw [hhappens.left, hhappens.taken, List.countP_append, List.countP_append, List.countP_append,
    List.countP_append, List.countP_cons, hnew, hhappens.starts.countP_front]
  omega

omit hturns hwired in
/-- A transmit that has started is to arrive at the other node. -/
theorem countP_front (hmember : b.topology.hasMember far = true) : front.countP (isArrivalAt far) =
    if far = target then 0 else if event.departure?.isSome then 1 else 0 := by
  have hstarts := hhappens.starts
  cases hstarts with
  | delivery readable incoming =>
    simp [departure?_eq_none_of_incoming readable incoming]
  | @transmit source _ other channel farChannel =>
    obtain ⟨-, hne, site', -, hother, -⟩ := hfront (List.mem_singleton.2 rfl)
    have hcount : [arrival other source farChannel].countP (isArrivalAt far) =
        if far = other then 1 else 0 := by
      simp [isArrivalAt, arrival, List.countP_cons]
    rw [hcount]
    by_cases hfar : far = target
    · rw [if_pos hfar, if_neg (hfar ▸ hne)]
    · rw [if_neg hfar, if_pos (hpair.eq_of_ne (h.hasMember hhappens.hosts)
        (h.hasMember hother) hmember hne.symm hfar)]
      simp [Event.departure?]

omit h hpair hhappens hwired hfront in
theorem node_after_eq : (site.after event).node = (site.handled event).1.node := by
  rw [Site.node, Site.router_after hturns.ok]

omit hpair hwired hfront in
theorem plain_next :
    ∀ entry ∈ next.queue, isPlain entry = true := by
  intro entry hmem
  rcases hhappens.mem_or_mem hmem with ⟨_, _, _, rfl, -⟩ | hold | hnew
  · rfl
  · exact h.plain entry hold
  · rcases Site.mem_parcels_iff.1 hnew with ⟨_, _, _, _, -, -, rfl⟩ | ⟨outbound, hsent, -⟩
    · rfl
    · have hok : (site.handled event).2 = .ok [] := hturns.ok
      rw [hok] at hsent
      exact absurd hsent (by simp [Router.outboxOf])

omit hpair hfront in
theorem departs_next (hother : next.sites.get? rank = some other) :
    other.node.progress.expected.tx + other.node.journal.requests.length =
      1 + next.queue.countP (isTransmitFrom rank) := by
  have hdue := Site.due_of_turns hturns
  have hcount := hhappens.countP_queue rank (hdue ▸ hwired)
  rcases hhappens.site_cases hother with ⟨rfl, rfl⟩ | ⟨hne, hold⟩
  · have hdeparts := h.departs hhappens.hosts
    have htransmit : (site.handled event).1.node.progress.expected.tx +
        (if event.departure?.isSome then 1 else 0) = site.node.progress.expected.tx :=
          hturns.transmit
    rw [if_pos rfl, if_pos rfl] at hcount
    rw [Site.requests_after, List.length_append, node_after_eq hturns]
    omega
  · have hdeparts := h.departs hold
    rw [if_neg hne, if_neg hne] at hcount
    omega

omit hwired in
theorem balance_next {first second : Site} (hfirst : next.sites.get? near = some first)
    (hsecond : next.sites.get? far = some second) (hne : near ≠ far) :
    second.node.progress.expected.rx =
      first.node.progress.expected.tx + next.queue.countP (isArrivalAt far) := by
  have hcount := countP_arrivals hhappens far
  have htransmit : (site.handled event).1.node.progress.expected.tx +
      (if event.departure?.isSome then 1 else 0) = site.node.progress.expected.tx := hturns.transmit
  have hreceive : (site.handled event).1.node.progress.expected.rx +
      (if event.arrival?.isSome then 1 else 0) = site.node.progress.expected.rx := hturns.receive
  rcases hhappens.site_cases hfirst with ⟨rfl, rfl⟩ | ⟨hnear, hfirst'⟩ <;>
    rcases hhappens.site_cases hsecond with ⟨rfl, rfl⟩ | ⟨hfar, hsecond'⟩
  · exact absurd rfl hne
  · have hbalance := h.balance hhappens.hosts hsecond' hne
    rw [h.countP_front hpair hhappens hfront (h.hasMember hsecond'), if_neg hfar,
      if_neg hfar] at hcount
    rw [node_after_eq hturns]
    omega
  · have hbalance := h.balance hfirst' hhappens.hosts hne
    rw [h.countP_front hpair hhappens hfront (h.hasMember hhappens.hosts), if_pos rfl, if_pos rfl]
      at hcount
    rw [node_after_eq hturns]
    omega
  · exact absurd (hpair.eq_of_ne (h.hasMember hhappens.hosts) (h.hasMember hfirst')
      (h.hasMember hsecond') hnear hfar) hne.symm

/-- A node of a pair that took an event in leaves a state of a pair. -/
theorem turned (htraced : Traced b.cabling next)
    (hused : ∀ {channel peer}, event.binding? = some (channel, peer) →
      b.used target channel = true) :
    Pairing b next where
  traced := htraced
  member := hhappens.isSome_node?_iff.trans h.member
  paired := by
    intro near other hother
    rcases hhappens.site_cases hother with ⟨rfl, rfl⟩ | ⟨-, hold⟩
    · rw [Site.router_after hturns.ok]
      exact hturns.paired
    · exact h.paired hold
  errors := hhappens.errors.trans h.errors
  known := by
    intro node channel
    rw [hhappens.known, hhappens.done_discovery_iff, h.known]
  used := by
    intro near other channel far hother hbound
    rcases hhappens.site_cases hother with ⟨rfl, rfl⟩ | ⟨-, hold⟩
    · rcases hhappens.binding_iff.1 hbound with hbefore | hnew
      · exact h.used hhappens.hosts hbefore
      · exact hused hnew
    · exact h.used hold hbound
  stated hmem := h.stated (hhappens.mem_of_channel_mem hmem)
  plain := h.plain_next hhappens hturns
  arrives := by
    intro far source channel hmem
    have hbefore : source ≠ far ∧ b.topology.hasMember source = true ∧ ∃ site peer,
        fabric.sites.get? far = some site ∧ site.node.boundPeer? channel = some peer := by
      rcases hhappens.mem_of_arrival_mem hmem with hhalf | hold
      · obtain ⟨rfl, hne, hbound⟩ := hfront hhalf
        exact ⟨hne, h.hasMember hhappens.hosts, hbound⟩
      · exact h.arrives hold
    obtain ⟨hne, hmember, old, peer, hold, hbound⟩ := hbefore
    obtain ⟨after, hafter, hbound⟩ := hhappens.bound_of_site hold hbound
    exact ⟨hne, hmember, after, peer, hafter, hbound⟩
  departs := h.departs_next hhappens hturns hwired
  balance := h.balance_next hpair hhappens hturns hfront

omit hhappens hturns hwired hfront in
/-- The channel in use is bound, or is reported again. -/
theorem turns_channel {known : ChannelEvent}
    (hmem : .delivery target (.channel known) ∈ fabric.queue) :
    ∃ site due, fabric.sites.get? target = some site ∧
      b.Turns target site.wiring site.service.router (.channel known) due ∧
        ∀ request ∈ due, site.wiring.contains request.2 = true := by
  obtain ⟨_, hevent, hhonest⟩ := h.traced.queue _ hmem
  obtain rfl := Except.ok.inj hevent
  obtain ⟨hconnected, farChannel, hcable⟩ := hhonest
  obtain ⟨hne, hmember, hpeer⟩ := hpair.of_joined (b.joined hcable)
  obtain ⟨hchassis, hused⟩ := h.stated hmem
  obtain ⟨site, hsite⟩ := h.exists_site hmember
  have hpaired := h.paired hsite
  have hshare := hpair.sharePartition target known.peer
  by_cases hbound : ∃ channel peer, site.node.boundPeer? channel = some peer
  · obtain ⟨channel, peer, hbound⟩ := hbound
    obtain ⟨-, otherFar, hcable'⟩ := h.traced.binding (node?_of_site hsite) hbound
    obtain ⟨hne', -, hpeer'⟩ := hpair.of_joined (b.joined hcable')
    -- There is one peer, so the channel that is bound is the one in use to it.
    obtain rfl := hpair.eq_of_ne hmember hpeer hpeer' hne.symm hne'.symm
    obtain rfl := b.single hcable hused hcable' (h.used hsite hbound)
    exact ⟨site, [], hsite, hpaired.rediscover hne.symm hchassis hshare hconnected hbound, by simp⟩
  · have hfree : ∀ channel, site.node.boundPeer? channel = none := fun channel =>
      Option.eq_none_iff_forall_ne_some.2 fun peer hpeer => hbound ⟨channel, peer, hpeer⟩
    -- A node locks only when its transmit has started, and this one has asked for none.
    have hunlocked : site.node.progress.locked = false := by
      rw [Bool.eq_false_iff]
      intro hlocked
      have hdeparts := h.departs hsite
      have hnone : site.node.journal.requests = [] := hpaired.requests_eq_nil hfree
      have hzero : site.node.progress.expected.tx = 0 := hpaired.locked hlocked
      rw [hnone, hzero] at hdeparts
      simp only [List.length_nil] at hdeparts
      omega
    have hwired := h.traced.wired hsite hcable
    refine ⟨site, _, hsite,
      hpaired.discover hne.symm hchassis hshare hconnected hwired hfree hunlocked, ?_⟩
    simpa using hwired

omit hpair hhappens hturns hwired hfront in
/-- The data of the peer arrives once. -/
theorem turns_arrival (hmem : arrival far source channel ∈ fabric.queue) :
    ∃ site, fabric.sites.get? far = some site ∧
      b.Turns far site.wiring site.service.router
        (.connection ⟨.rx, channel, source, true⟩) [] := by
  obtain ⟨hne, hmember, site, peer, hsite, hbound⟩ := h.arrives hmem
  obtain ⟨other, hother⟩ := h.exists_site hmember
  have hbalance := h.balance hother hsite hne
  have hpos : 0 < fabric.queue.countP (isArrivalAt far) :=
    List.countP_pos_iff.2 ⟨_, hmem, by simp [arrival, isArrivalAt]⟩
  have hexpected : 0 < site.node.progress.expected.rx := by omega
  exact ⟨site, hsite, (h.paired hsite).receive hbound hmember hne hexpected⟩

omit hhappens hturns hwired hfront in
/-- A transmit in the queue is the one of the node's own data to its peer. -/
theorem turns_transmit (hmem : .transmit source near channel far farChannel ∈ fabric.queue) :
    source = near ∧ near ≠ far ∧ ∃ site, fabric.sites.get? near = some site ∧
      b.Turns near site.wiring site.service.router
        (.connection ⟨.tx, channel, source, true⟩) [] := by
  obtain ⟨hcable, node, hnode, hasked⟩ := h.traced.queue _ hmem
  obtain ⟨site, hsite, rfl⟩ := exists_site_of_node? hnode
  obtain ⟨hne, hmember, -⟩ := hpair.of_joined (b.joined hcable)
  have hpaired := h.paired hsite
  obtain ⟨rfl, peer, hbound⟩ := hpaired.asked.1 (Journal.mem_requests_iff.2 hasked)
  obtain ⟨-, _, hcable'⟩ := h.traced.binding hnode hbound
  obtain ⟨rfl, -⟩ := Prod.mk.inj (Option.some.inj (hcable.symm.trans hcable'))
  have hdeparts := h.departs hsite
  have honce : site.node.journal.requests.length ≤ 1 := hpaired.once
  have hpos : 0 < fabric.queue.countP (isTransmitFrom source) :=
    List.countP_pos_iff.2 ⟨_, hmem, by simp [isTransmitFrom]⟩
  have hexpected : 0 < site.node.progress.expected.tx := by omega
  exact ⟨rfl, hne, site, hsite, hpaired.transmit hbound hmember hne hexpected⟩

omit hhappens hturns hwired hfront in
theorem deliverTo {delivery : Delivery}
    (htakes : fabric.Takes before (.delivery target delivery) behind rest) :
    ∃ site event due, fabric.sites.get? target = some site ∧ delivery.event = .ok event ∧
      b.Turns target site.wiring site.service.router event due ∧
        Pairing b (rest.deliverTo target delivery) := by
  have hmem := htakes.taken_mem
  have hturns : ∃ site event due, fabric.sites.get? target = some site ∧
      delivery.event = .ok event ∧ b.Turns target site.wiring site.service.router event due ∧
        (∀ request ∈ due, site.wiring.contains request.2 = true) ∧
          ∀ {channel peer}, event.binding? = some (channel, peer) →
            b.used target channel = true := by
    cases delivery with
    | channel known =>
      obtain ⟨site, due, hsite, hturns, hwired⟩ := h.turns_channel hpair hmem
      refine ⟨site, _, due, hsite, rfl, hturns, hwired, fun hbinding => ?_⟩
      obtain ⟨rfl, rfl⟩ := Prod.mk.inj (Option.some.inj hbinding)
      exact (h.stated hmem).2
    | connection completed =>
      obtain ⟨_, hevent, hhonest⟩ := h.traced.queue _ hmem
      obtain rfl := Except.ok.inj hevent
      obtain ⟨direction, channel, source, connected⟩ := completed
      obtain ⟨rfl, rfl⟩ : direction = .rx ∧ connected = true := hhonest
      obtain ⟨site, hsite, hturns⟩ := h.turns_arrival hmem
      exact ⟨site, _, [], hsite, rfl, hturns, by simp, by simp [Event.binding?]⟩
    | control | network | failure => exact absurd (h.plain _ hmem) (by simp [isPlain])
  obtain ⟨site, event, due, hsite, hevent, hturns, hwired, hused⟩ := hturns
  have hhappens := happens_deliverTo h.traced htakes hsite hevent hturns.ok fun {channel far} => by
    rw [node_after_eq hturns]
    exact hturns.binding
  refine ⟨site, event, due, hsite, hevent, hturns, ?_⟩
  exact h.turned hpair hhappens hturns hwired (fun hfalse => absurd hfalse (by simp))
    (h.traced.deliverTo htakes).2 hused

omit hhappens hturns hwired hfront in
theorem transmit
    (htakes : fabric.Takes before (.transmit source near channel far farChannel) behind rest)
    (hknown : (far, farChannel) ∈ fabric.knownChannels) :
    ∃ site, fabric.sites.get? near = some site ∧
      b.Turns near site.wiring site.service.router (.connection ⟨.tx, channel, source, true⟩) [] ∧
        Pairing b ((rest.deliverTo near (.connection ⟨.tx, channel, source, true⟩)).push
          (arrival far source farChannel)) := by
  obtain ⟨rfl, hne, site, hsite, hturns⟩ := h.turns_transmit hpair htakes.taken_mem
  have hhappens := happens_transmit htakes hsite hturns.ok fun {other peer} => by
    rw [node_after_eq hturns]
    exact hturns.binding.trans (or_iff_left (by simp [Event.binding?]))
  refine ⟨site, hsite, hturns, ?_⟩
  refine h.turned hpair hhappens hturns (by simp) (fun {far' source' channel'} hmem => ?_)
    (h.traced.transmit htakes).2 (by simp [Event.binding?])
  obtain ⟨rfl, hcompleted⟩ := Parcel.delivery.inj (List.mem_singleton.1 hmem)
  obtain ⟨rfl, rfl⟩ : channel' = farChannel ∧ source' = source := by simpa using hcompleted
  obtain ⟨node, peer, hnode, hbound⟩ := h.known.1 hknown
  obtain ⟨other, hother, rfl⟩ := exists_site_of_node? hnode
  exact ⟨rfl, hne, other, peer, hother, hbound⟩

omit hpair hhappens hturns hwired hfront in
theorem operates : Operates b fabric where
  member := h.member
  topology hnode := by
    obtain ⟨site, hsite, rfl⟩ := exists_site_of_node? hnode
    exact (h.paired hsite).topology
  working hnode := by
    obtain ⟨site, hsite, rfl⟩ := exists_site_of_node? hnode
    exact (h.paired hsite).working
  lost hnode := by
    obtain ⟨site, hsite, rfl⟩ := exists_site_of_node? hnode
    exact (h.paired hsite).lost _
  used hnode hbound := by
    obtain ⟨site, hsite, rfl⟩ := exists_site_of_node? hnode
    exact h.used hsite hbound
  asked := by
    rintro near source channel ⟨node, hnode, hmem⟩
    obtain ⟨site, hsite, rfl⟩ := exists_site_of_node? hnode
    obtain ⟨-, far, hbound⟩ := (h.paired hsite).asked.1 (Journal.mem_requests_iff.2 hmem)
    exact h.used hsite hbound
  known := h.known
  errors := h.errors

end Pairing

/-- A pair forms on, whatever channel a node disables. -/
theorem Disables.pairing (h : Disables fabric next target site channel)
    (hpairing : Pairing b fabric) (htraced : Traced b.cabling next) : Pairing b next where
  traced := htraced
  member := h.isSome_node?_iff.trans hpairing.member
  paired hother := h.forall_site (fun hpaired => hpaired.disabling channel) hpairing.paired hother
  errors := h.errors.trans hpairing.errors
  known := by
    intro node other
    rw [h.known, h.done_iff]
    exact hpairing.known
  used hother hbound :=
    h.forall_site id (fun hsite hbound => hpairing.used hsite hbound) hother hbound
  stated := by
    rw [h.queue]
    exact hpairing.stated
  plain := by
    rw [h.queue]
    exact hpairing.plain
  arrives := by
    intro far source other hmem
    rw [h.queue] at hmem
    obtain ⟨hne, hmember, held, peer, hheld, hbound⟩ := hpairing.arrives hmem
    obtain ⟨after, hafter, hbound⟩ := h.exists_site
      (fun site => site.node.boundPeer? other = some peer) id ⟨held, hheld, hbound⟩
    exact ⟨hne, hmember, after, peer, hafter, hbound⟩
  departs := by
    intro near other hother
    rw [h.queue]
    refine h.forall_site (fun hdeparts => ?_) hpairing.departs hother
    rw [Site.requests_disabling]
    exact hdeparts
  balance := by
    intro near far first second hfirst hsecond hne
    rw [h.queue]
    rcases h.site_cases hfirst with ⟨rfl, rfl⟩ | hfirst' <;>
      rcases h.site_cases hsecond with ⟨rfl, rfl⟩ | hsecond'
    · exact absurd rfl hne
    · have hbalance := hpairing.balance h.hosts hsecond' hne
      exact hbalance
    · have hbalance := hpairing.balance hfirst' h.hosts hne
      exact hbalance
    · exact hpairing.balance hfirst' hsecond' hne

/-- A pair goes on forming on the cable in use. -/
theorem sustains_pairing (hpair : b.OfPair) : Sustains b (Pairing b) where
  joined hjoined := by
    obtain ⟨hne, hnear, -⟩ := hpair.of_joined hjoined
    exact ⟨hne, hnear, hpair.sharePartition _ _⟩
  operates h := h.operates
  disables h hdisables htraced _ := hdisables.pairing h htraced
  delivery h htakes _ := by
    obtain ⟨site, event, due, hsite, hevent, hturns, hpairing⟩ := h.deliverTo hpair htakes
    exact ⟨site, event, hsite, hevent, hturns.asks, hpairing⟩
  transmit h htakes hknown := by
    obtain ⟨site, hsite, hturns, hpairing⟩ := h.transmit hpair htakes hknown
    exact ⟨site, hsite, hturns.asks, hpairing⟩

/-! ## The first state -/

section Created

variable {members : List Member} {request : ProfileRequest} {cables : List Link} {localRank : Rank}
  (hpair : b.OfPair) (htopology : Topology.ofMembers members localRank request = .ok b.topology)
  (hcabling : b.cabling = .ofLinks cables) (hfits : Cabling.Fits cables)
  (h : Created members request cables fabric)
include hpair htopology h

/-- A node of a pair before its first event. -/
theorem Created.site_of_pair (hsite : fabric.sites.get? near = some site) :
    site.service.router = ⟨.start (b.topology.seenFrom near) ⟨1, 1, 0⟩, .pair⟩ ∧
      b.topology.hasMember near = true := by
  have hrank := h.rank_mem hsite
  obtain ⟨seen, forwarding, node, hseen, hstart, rfl⟩ := startSite_eq_ok (h.startSite hsite)
  obtain rfl := Except.ok.inj (hseen.symm.trans (Topology.ofMembers_seenFrom htopology hrank))
  have hprofile : (b.topology.seenFrom near).profile = .pair := hpair.profile
  have hexpected : (b.topology.seenFrom near).expected = ⟨1, 1, 0⟩ := by
    simp [Topology.expected, Topology.receiveCount, Topology.transmitCount,
      Topology.networkLinkCount, Topology.counterparts, hprofile]
  rw [hprofile, hexpected] at hstart
  obtain ⟨rfl, hok⟩ := Prod.mk.inj hstart
  obtain rfl := Except.ok.inj hok
  exact ⟨rfl, (Topology.hasMember_of_ofMembers htopology near).2 hrank⟩

omit hpair htopology h in
theorem paired_start (b : Blueprint) (near : Rank) :
    b.Paired near ⟨.start (b.topology.seenFrom near) ⟨1, 1, 0⟩, .pair⟩ := by
  constructor
  case asked =>
    intro source channel
    simp [Node.start, Journal.empty, Journal.requests, Journal.accepted, Node.boundPeer?]
  case heard =>
    intro source hinput
    exact absurd hinput (by
      simp [Node.start, Ledger.empty, Ledger.input?, Ledger.entry, Ledger.get?, Connectivity.blank])
  case locked => exact fun hlocked => absurd hlocked (by simp [Node.start, Progress.start])
  all_goals first | rfl | exact fun _ => rfl | exact Nat.le_refl _ | exact Nat.zero_le _

/-- Nothing but channel events waits at first. -/
theorem Created.queue_of_pair {entry : Parcel} (hmem : entry ∈ fabric.queue) :
    ∃ cableEnd ∈ Cabling.ends cables, entry = discovery members cableEnd := by
  rcases h.queue_cases hmem with hdiscovery | ⟨rank, event, rfl, hlink⟩
  · exact hdiscovery
  · obtain ⟨site, hsite, -, name, hhost⟩ := mem_networkLinks_iff.1 hlink
    have hnone : site.service.journal.hostnames = [] := by
      rw [Service.journal, (h.site_of_pair hpair htopology hsite).1]
      rfl
    rw [hnone] at hhost
    exact absurd hhost (by simp)

include hcabling hfits

/-- Two nodes that were just created form a pair, as far as their cables are used. -/
theorem Created.pairing_inUse : Pairing b (fabric.inUse b.used) := by
  have hsites : ∀ {near site}, fabric.sites.get? near = some site →
      site.service.router = ⟨.start (b.topology.seenFrom near) ⟨1, 1, 0⟩, .pair⟩ :=
    fun hsite => (h.site_of_pair hpair htopology hsite).1
  have hfree : ∀ {near site channel}, fabric.sites.get? near = some site →
      site.node.boundPeer? channel = none := by
    intro near site channel hsite
    rw [Site.node, hsites hsite]
    rfl
  have hqueue : ∀ {entry}, entry ∈ (fabric.inUse b.used).queue →
      ∃ cableEnd ∈ Cabling.ends cables, entry = discovery members cableEnd :=
    fun hmem => h.queue_of_pair hpair htopology (mem_queue_inUse.1 hmem).1
  constructor
  case traced =>
    rw [hcabling]
    exact (traced_of_create hfits h).inUse
  case member =>
    intro rank
    rw [node?_inUse, h.isSome_node?_iff, Topology.hasMember_of_ofMembers htopology]
  case paired =>
    intro near site hsite
    rw [hsites hsite]
    exact paired_start b.toBlueprint near
  case errors => exact h.errors
  case known =>
    intro node channel
    rw [mem_known_inUse, h.known]
    constructor
    · rintro ⟨hmem, -⟩
      exact absurd hmem (by simp)
    · rintro ⟨state, peer, hstate, hbound⟩
      obtain ⟨site, hsite, rfl⟩ := exists_site_of_node? hstate
      rw [hfree hsite] at hbound
      exact absurd hbound (by simp)
  case used =>
    intro near site channel far hsite hbound
    rw [hfree hsite] at hbound
    exact absurd hbound (by simp)
  case stated =>
    intro node event hmem
    obtain ⟨hold, hused⟩ := mem_queue_inUse.1 hmem
    exact ⟨h.stated htopology hcabling hfits (fun hjoined => (hpair.of_joined hjoined).2.2) hold,
      hused⟩
  case plain =>
    intro entry hmem
    obtain ⟨cableEnd, -, rfl⟩ := hqueue hmem
    rfl
  case arrives =>
    intro far source channel hmem
    obtain ⟨cableEnd, -, heq⟩ := hqueue hmem
    exact absurd heq (by simp [arrival, discovery])
  case departs =>
    intro near site hsite
    have hcount : (fabric.inUse b.used).queue.countP (isTransmitFrom near) = 0 := by
      rw [List.countP_eq_zero]
      intro entry hmem
      obtain ⟨cableEnd, -, rfl⟩ := hqueue hmem
      simp [discovery, isTransmitFrom]
    rw [hcount, Site.node, hsites hsite]
    rfl
  case balance =>
    intro near far site other hsite hother _
    have hcount : (fabric.inUse b.used).queue.countP (isArrivalAt far) = 0 := by
      rw [List.countP_eq_zero]
      intro entry hmem
      obtain ⟨cableEnd, -, rfl⟩ := hqueue hmem
      simp [discovery, isArrivalAt]
    rw [hcount, Site.node, Site.node, hsites hsite, hsites hother]
    rfl

end Created

end Fabric

end MeshFormation
