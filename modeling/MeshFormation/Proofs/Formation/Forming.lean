import MeshFormation.Proofs.Formation.Charges
import MeshFormation.Proofs.Formation.Errands
import MeshFormation.Proofs.Formation.Installation
import MeshFormation.Proofs.Formation.Routes

/-!
# An ensemble that forms

What holds in every state that an ensemble comes to when each step delivers an entry that the
delivery contract allows: all nodes are at rest, every errand that was raised waits or is done, and
what waits in the queue is true. It follows that the blueprint permits whatever is delivered next.
-/

namespace MeshFormation

namespace Blueprint.Valid

variable {b : Blueprint} {source : Rank}

/-- The data of a source reaches every node from one other node, and never the source. -/
theorem rooted (h : b.Valid) (source : Rank) : Route.Rooted (b.Feeds source) source where
  unique hfeeds hfeeds' := h.eq_of_feeds hfeeds hfeeds'
  root _ hfeeds := (h.of_feeds hfeeds).1 rfl

end Blueprint.Valid

namespace Fabric

variable {b : Installation} {fabric next rest : Fabric} {before behind : List Parcel}
  {source near far target receiver forwarder : Rank} {channel farChannel : Channel}
  {delivery : Delivery} {event : Event} {site : Site}

/-- An errand is raised by a cable in use, or by the request of the node that is to send the
data. -/
def Raised (b : Installation) (fabric : Fabric) : Errand → Prop
  | .discovery node channel =>
    (∃ peer far, b.cabling.farEnd? node channel = some (peer, far)) ∧ b.used node channel = true
  | .flow source far => ∃ near channel farChannel, fabric.Asked near source channel ∧
    b.cabling.farEnd? near channel = some (far, farChannel)

/-- A channel is known once its peer is bound, and data flows once it is an input. -/
def Done (fabric : Fabric) : Errand → Prop
  | .discovery node channel => ∃ state peer, fabric.node? node = some state ∧
    state.boundPeer? channel = some peer
  | .flow source far => ∃ state, fabric.node? far = some state ∧
    (state.ledger.input? source).isSome = true

def isTransmitFrom (near : Rank) : Parcel → Bool
  | .transmit _ node _ _ _ => node == near
  | _ => false

/-- The entry by which an outer node announces itself. -/
def announcementTo (receiver announcer : Rank) (chassis : String) : Parcel :=
  .delivery receiver (.control (ControlMessage.outerAnnounce announcer chassis).encode)

/-- A state of an ensemble that forms by the blueprint. -/
structure Forming (b : Installation) (fabric : Fabric) : Prop where
  traced : Traced b.cabling fabric
  told : Told fabric
  member : ∀ {rank}, (fabric.node? rank).isSome = true ↔ b.topology.hasMember rank = true
  rested : ∀ {near site}, fabric.sites.get? near = some site → b.Rested near site.service.router
  errors : fabric.errors = []
  known : ∀ {node channel}, (node, channel) ∈ fabric.knownChannels ↔
    Done fabric (.discovery node channel)
  agenda : Agenda fabric.errands (Raised b fabric) (Done fabric)
  arrives : ∀ {far source channel}, arrival far source channel ∈ fabric.queue →
    ∃ site peer, fabric.sites.get? far = some site ∧ site.node.boundPeer? channel = some peer ∧
      b.Feeds source peer far
  departs : ∀ {near site}, fabric.sites.get? near = some site →
    site.node.progress.expected.tx + site.node.journal.requests.length =
      site.service.router.forwarding.limit + fabric.queue.countP (isTransmitFrom near)
  stated : ∀ {node event}, .delivery node (.channel event) ∈ fabric.queue →
    b.topology.chassis? event.peer = some event.chassis
  prepared : Prepared fabric.Routed fabric.queue
  announced : ∀ {receiver announcer chassis},
    announcementTo receiver announcer chassis ∈ fabric.queue →
      b.topology.profile = .cube ∧ announcer ≠ receiver ∧
        b.topology.hasMember receiver = true ∧
          b.topology.chassis? announcer = some chassis ∧ (b.partner? announcer).isSome = true
  heard : ∀ {near site receiver}, fabric.sites.get? near = some site →
    site.service.router.forwarding.tells receiver = true →
      (∃ other, fabric.sites.get? receiver = some other ∧
        other.service.router.forwarding.hears near = true) ∨
        ∃ chassis, announcementTo receiver near chassis ∈ fabric.queue
  encoded : ∀ {receiver payload}, .delivery receiver (.control payload) ∈ fabric.queue →
    ∃ message : ControlMessage, payload = message.encode
  wanted : ∀ {near event}, .delivery near (.network event) ∈ fabric.queue →
    b.topology.profile = .hypercube ∧ b.topology.hasMember near = true ∧
      event.connected = true ∧ event.peer ∈ b.topology.counterparts near
  linked : ∀ {near site peer}, fabric.sites.get? near = some site →
    peer ∈ b.topology.counterparts near →
      site.service.router.forwarding.links.contains peer = true ∨
        ∃ event, event.peer = peer ∧ .delivery near (.network event) ∈ fabric.queue
  live : ∀ {near site peer}, fabric.sites.get? near = some site →
    site.service.router.forwarding.links.contains peer = true → peer ∈ b.topology.counterparts near

namespace Forming

variable (h : Forming b fabric)
include h

/-- A channel is bound only if its cable is used. -/
theorem used_of_bound (hsite : fabric.sites.get? near = some site)
    (hbound : site.node.boundPeer? channel = some far) : b.used near channel = true :=
  ((h.agenda.raised (.discovery near channel)).2
    (.inr ⟨site.node, far, node?_of_site hsite, hbound⟩)).2

theorem exists_site (hmember : b.topology.hasMember near = true) :
    ∃ site, fabric.sites.get? near = some site :=
  isSome_node?_iff_exists_site.1 (h.member.2 hmember)

theorem hasMember (hsite : fabric.sites.get? near = some site) :
    b.topology.hasMember near = true :=
  h.member.1 (isSome_node?_iff_exists_site.2 ⟨site, hsite⟩)

theorem not_anyFailed : ¬ fabric.AnyFailed := by
  rintro ⟨rank, node, hnode, hfailed⟩
  obtain ⟨site, hsite, rfl⟩ := exists_site_of_node? hnode
  have hworking : site.node.isFailed = false := (h.rested hsite).working
  rw [hworking] at hfailed
  exact absurd hfailed (by simp)

/-- A node asks only for transmits of the blueprint, on channels that it has bound. -/
theorem feeds_of_asked (hasked : fabric.Asked near source channel)
    (hcable : b.cabling.farEnd? near channel = some (far, farChannel)) :
    ∃ site, fabric.sites.get? near = some site ∧ site.node.boundPeer? channel = some far ∧
      b.Feeds source near far := by
  obtain ⟨node, hnode, hmem⟩ := hasked
  obtain ⟨site, hsite, rfl⟩ := exists_site_of_node? hnode
  have hrested := h.rested hsite
  obtain ⟨far', hbound, hcharged⟩ := hrested.asked.1 (Journal.mem_requests_iff.2 hmem)
  obtain ⟨-, other, hcable'⟩ := h.traced.binding hnode hbound
  obtain ⟨rfl, -⟩ := Prod.mk.inj (Option.some.inj (hcable.symm.trans hcable'))
  refine ⟨site, hsite, hbound, ?_⟩
  rcases hcharged with rfl | ⟨rule, -, hassigned⟩
  · exact .direct (hrested.joined hbound)
  · exact hassigned.feeds

/-- Every route follows the blueprint. -/
theorem isChain_of_route? {node : Node} {route : Route} (hnode : fabric.node? near = some node)
    (hroute : node.ledger.route? far = some route) :
    route.origin = near ∧ route.destination = far ∧ route.hops.IsChain (b.Feeds near) := by
  obtain ⟨horigin, hdestination, hchain⟩ := h.traced.route hnode hroute
  refine ⟨horigin, hdestination, hchain.imp fun first second hfeeds => ?_⟩
  obtain ⟨channel, farChannel, hcable, hasked, -⟩ := hfeeds
  obtain ⟨-, -, -, hfeeds⟩ := h.feeds_of_asked hasked hcable
  exact hfeeds

theorem wired (hsite : fabric.sites.get? near = some site)
    (hbound : site.node.boundPeer? channel = some far) :
    site.wiring.contains channel = true := by
  obtain ⟨-, other, hcable⟩ := h.traced.binding (node?_of_site hsite) hbound
  exact h.traced.wired hsite hcable

/-! ## What is delivered next -/

variable (hvalid : b.Valid)
include hvalid

omit hvalid in
theorem not_done {errand : Errand} (hmem : errand ∈ fabric.errands) : ¬ Done fabric errand :=
  h.agenda.undone errand hmem

omit h hvalid in
theorem mem_errands {parcel : Parcel} {errand : Errand} (hmem : parcel ∈ fabric.queue)
    (herrand : parcel.errand? = some errand) : errand ∈ fabric.errands :=
  List.mem_filterMap.2 ⟨parcel, hmem, herrand⟩

/-- A locked node has bound all its channels: the data of every peer arrives, and that of a peer
with a cable arrives on this cable. -/
theorem unlocked_of_free (hsite : fabric.sites.get? near = some site)
    (hcable : b.cabling.farEnd? near channel = some (far, farChannel))
    (hused : b.used near channel = true)
    (hfree : site.node.boundPeer? channel = none) : site.node.progress.locked = false := by
  rw [Bool.eq_false_iff]
  intro hlocked
  have hjoined := b.joined hcable
  obtain ⟨hne, -, hmember, hshare⟩ := hvalid.of_joined hjoined
  have hpeer := Topology.mem_peers_iff.2 ⟨hne.symm, hmember, hshare⟩
  obtain ⟨other, peer, hbound, hfeeds⟩ := (h.rested hsite).exists_feeds_of_locked hlocked hpeer
  obtain rfl := hvalid.eq_of_feeds hfeeds (.direct hjoined.symm)
  obtain ⟨-, otherFar, hcable'⟩ := h.traced.binding (node?_of_site hsite) hbound
  obtain rfl := b.single hcable hused hcable' (h.used_of_bound hsite hbound)
  have hsome : site.node.boundPeer? channel = some peer := hbound
  rw [hfree] at hsome
  exact absurd hsome (by simp)

theorem permits_channel {known : ChannelEvent}
    (hmem : .delivery target (.channel known) ∈ fabric.queue) :
    ∃ site, fabric.sites.get? target = some site ∧
      b.Permits target site.wiring site.service.router (.channel known) := by
  obtain ⟨event, hevent, hhonest⟩ := h.traced.queue _ hmem
  obtain rfl := Except.ok.inj hevent
  obtain ⟨hconnected, farChannel, hcable⟩ := hhonest
  have hjoined := b.joined hcable
  obtain ⟨-, hmember, -, -⟩ := hvalid.of_joined hjoined
  obtain ⟨site, hsite⟩ := h.exists_site hmember
  have hused : b.used target known.channel = true :=
    ((h.agenda.raised (.discovery target known.channel)).2 (.inl (mem_errands hmem rfl))).2
  have hfree : site.node.boundPeer? known.channel = none := by
    cases hbound : site.node.boundPeer? known.channel with
    | none => rfl
    | some peer =>
      exact absurd ⟨site.node, peer, node?_of_site hsite, hbound⟩
        (h.not_done (mem_errands hmem rfl))
  refine ⟨site, hsite, .channel hconnected ?_ hfree ?_ hjoined (h.stated hmem)
    (h.unlocked_of_free hvalid hsite hcable hused hfree)⟩
  · exact h.traced.wired hsite hcable
  · intro channel hbound
    obtain ⟨-, otherFar, hcable'⟩ := h.traced.binding (node?_of_site hsite) hbound
    obtain rfl := b.single hcable hused hcable' (h.used_of_bound hsite hbound)
    have hsome : site.node.boundPeer? known.channel = some known.peer := hbound
    rw [hfree] at hsome
    exact absurd hsome (by simp)

omit hvalid in
theorem permits_arrival (hmem : arrival far source channel ∈ fabric.queue) :
    ∃ site, fabric.sites.get? far = some site ∧
      b.Permits far site.wiring site.service.router (.connection ⟨.rx, channel, source, true⟩) := by
  obtain ⟨site, peer, hsite, hbound, hfeeds⟩ := h.arrives hmem
  refine ⟨site, hsite, .receive hbound hfeeds ?_⟩
  cases hinput : site.service.router.node.ledger.input? source with
  | none => rfl
  | some known =>
    have hdone : Done fabric (.flow source far) :=
      ⟨site.node, node?_of_site hsite, Option.isSome_iff_exists.2 ⟨known, hinput⟩⟩
    exact absurd hdone (h.not_done (mem_errands hmem rfl))

theorem permits_transmit (hmem : .transmit source near channel far farChannel ∈ fabric.queue) :
    ∃ site, fabric.sites.get? near = some site ∧
      b.Permits near site.wiring site.service.router
        (.connection ⟨.tx, channel, source, true⟩) := by
  obtain ⟨hcable, hasked⟩ := h.traced.queue _ hmem
  obtain ⟨site, hsite, hbound, hfeeds⟩ := h.feeds_of_asked hasked hcable
  refine ⟨site, hsite, .transmit hbound hfeeds ?_ ?_⟩
  · have hdeparts := h.departs hsite
    have hlength := (h.rested hsite).length_requests_le hvalid (h.hasMember hsite)
    have hpos : 0 < fabric.queue.countP (isTransmitFrom near) :=
      List.countP_pos_iff.2 ⟨_, hmem, beq_self_eq_true near⟩
    have htx : site.service.router.node.progress.expected.tx = site.node.progress.expected.tx := rfl
    have hrequests : site.service.router.node.journal.requests = site.node.journal.requests := rfl
    rw [hrequests] at hlength
    omega
  · rintro route rfl hroute
    obtain ⟨horigin, hdestination, hchain⟩ := h.isChain_of_route? (node?_of_site hsite) hroute
    have hdirect : (Route.direct source far).hops.IsChain (b.Feeds source) :=
      List.isChain_pair.2 hfeeds
    rw [Route.eq_of_isChain (hvalid.rooted source) hchain horigin hdirect rfl hdestination]
    rfl

theorem permits_forward
    (hqueue : fabric.queue = before ++ forwardTo source forwarder receiver :: behind)
    (hfirst : before.any (isControlTo source) = false) :
    ∃ site, fabric.sites.get? source = some site ∧
      b.Permits source site.wiring site.service.router (.forward forwarder receiver) := by
  have hprepared := h.prepared
  rw [hqueue] at hprepared
  obtain ⟨node, hnode, hroute⟩ := hprepared.knows hfirst
  obtain ⟨site, hsite, rfl⟩ := exists_site_of_node? hnode
  obtain ⟨base, hbase⟩ := Option.isSome_iff_exists.1 hroute
  have hmem : forwardTo source forwarder receiver ∈ fabric.queue := by
    rw [hqueue]
    simp
  obtain ⟨event, hevent, hhonest⟩ := h.traced.queue _ hmem
  rw [event_control_encode] at hevent
  obtain rfl := Except.ok.inj hevent
  obtain ⟨channel, farChannel, hcable, hasked, -⟩ := hhonest
  obtain ⟨other, hother, -, hfeeds⟩ := h.feeds_of_asked hasked hcable
  obtain ⟨hne, -, hreceiver, -⟩ := hvalid.of_feeds hfeeds
  obtain ⟨horigin, hdestination, hchain⟩ := h.isChain_of_route? hnode hbase
  refine ⟨site, hsite, .forward hne.symm (h.hasMember hother) hreceiver hbase ?_⟩
  have hlonger : (base.relayed receiver).hops.IsChain (b.Feeds source) := by
    rw [Route.isChain_relayed_iff, hdestination]
    exact ⟨hchain, hfeeds⟩
  exact Route.fault?_of_isChain (hvalid.rooted source) hlonger horigin

omit hvalid in
theorem permits_announce {announcer : Rank} {chassis : String}
    (hmem : announcementTo receiver announcer chassis ∈ fabric.queue) :
    ∃ site, fabric.sites.get? receiver = some site ∧
      b.Permits receiver site.wiring site.service.router (.outerAnnounce announcer chassis) := by
  obtain ⟨hcube, hne, hmember, hchassis, houter⟩ := h.announced hmem
  obtain ⟨site, hsite⟩ := h.exists_site hmember
  exact ⟨site, hsite, .announce hcube hne hchassis houter⟩

omit hvalid in
theorem permits_network {changed : NetworkEvent}
    (hmem : .delivery near (.network changed) ∈ fabric.queue) :
    ∃ site, fabric.sites.get? near = some site ∧
      b.Permits near site.wiring site.service.router (.network changed) := by
  obtain ⟨hhypercube, hmember, hconnected, hwanted⟩ := h.wanted hmem
  obtain ⟨site, hsite⟩ := h.exists_site hmember
  exact ⟨site, hsite, .network hhypercube hconnected hwanted⟩

omit hvalid in
/-- A connection in the queue tells a node that data of a source arrives. -/
theorem eq_rx {completed : ConnectionEvent}
    (hmem : .delivery target (.connection completed) ∈ fabric.queue) :
    ∃ channel source, completed = ⟨.rx, channel, source, true⟩ := by
  obtain ⟨event, hevent, hhonest⟩ := h.traced.queue _ hmem
  obtain rfl := Except.ok.inj hevent
  obtain ⟨direction, channel, source, connected⟩ := completed
  obtain ⟨rfl, rfl⟩ : direction = .rx ∧ connected = true := hhonest
  exact ⟨channel, source, rfl⟩

/-- Whatever is delivered to a node in its turn is permitted there. -/
theorem permits (hqueue : fabric.queue = before ++ .delivery target delivery :: behind)
    (hfirst : ∀ payload, delivery = .control payload →
      before.any (isControlTo target) = false) :
    ∃ site event, fabric.sites.get? target = some site ∧ delivery.event = .ok event ∧
      b.Permits target site.wiring site.service.router event := by
  have hmem : .delivery target delivery ∈ fabric.queue := by
    rw [hqueue]
    simp
  cases delivery with
  | channel known =>
    obtain ⟨site, hsite, hpermits⟩ := h.permits_channel hvalid hmem
    exact ⟨site, _, hsite, rfl, hpermits⟩
  | connection completed =>
    obtain ⟨channel, source, rfl⟩ := h.eq_rx hmem
    obtain ⟨site, hsite, hpermits⟩ := h.permits_arrival hmem
    exact ⟨site, _, hsite, rfl, hpermits⟩
  | network changed =>
    obtain ⟨site, hsite, hpermits⟩ := h.permits_network hmem
    exact ⟨site, _, hsite, rfl, hpermits⟩
  | control payload =>
    obtain ⟨message, rfl⟩ := h.encoded hmem
    cases message with
    | forward forwarder receiver =>
      obtain ⟨site, hsite, hpermits⟩ := h.permits_forward hvalid hqueue (hfirst _ rfl)
      exact ⟨site, _, hsite, event_control_encode _, hpermits⟩
    | outerAnnounce announcer chassis =>
      obtain ⟨site, hsite, hpermits⟩ := h.permits_announce hmem
      exact ⟨site, _, hsite, event_control_encode _, hpermits⟩
  | failure reason =>
    obtain ⟨event, hevent, hhonest⟩ := h.traced.queue _ hmem
    obtain rfl := Except.ok.inj hevent
    exact hhonest.elim

end Forming

end Fabric

end MeshFormation
