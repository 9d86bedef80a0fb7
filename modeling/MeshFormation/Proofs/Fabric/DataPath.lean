import MeshFormation.Proofs.Fabric.Delivery
import Mathlib.Data.List.Chain

/-!
# Every route follows the data

A node builds its routes from what other nodes tell it. This module shows that they tell the truth:
along every hop of a route the first node was asked to transmit the data of the route's origin over
a cable to the second one, where the data arrives unless that node has failed. The invariant relates
the bindings and the accepted calls of all nodes to the entries of the queue, and it holds for every
cabling and every order of deliveries.

The one demand on the cabling is that the channel numbers of a node, which are 32-bit words, do not
run out; beyond that point two cables of a node share a number and no longer can be told apart.
-/

namespace MeshFormation

/-- The second node is the first one at a later time. -/
structure Node.Grows (node after : Node) : Prop where
  topology : after.topology = node.topology
  isFailed : node.isFailed = true → after.isFailed = true
  accepted : ∀ {source channel}, .establish source channel ∈ node.journal.accepted →
    .establish source channel ∈ after.journal.accepted
  ledger : node.ledger.Grows after.ledger

theorem Node.Grows.refl (node : Node) : node.Grows node := ⟨rfl, id, id, .refl _⟩

theorem Node.Grows.trans {first second third : Node} (h : first.Grows second)
    (h' : second.Grows third) : first.Grows third :=
  ⟨h'.topology.trans h.topology, fun hfailed => h'.isFailed (h.isFailed hfailed),
    fun hmem => h'.accepted (h.accepted hmem), h.ledger.trans h'.ledger⟩

namespace Fabric

variable {members : List Member} {request : ProfileRequest} {links : List Link}
  {cabling : Cabling} {fabric next rest : Fabric} {before behind : List Parcel}
  {source near far target : Rank} {channel farChannel : Channel} {delivery : Delivery}
  {event : Event} {site : Site}

def Asked (fabric : Fabric) (near source : Rank) (channel : Channel) : Prop :=
  ∃ node, fabric.node? near = some node ∧ .establish source channel ∈ node.journal.accepted

/-- The data of a source arrives at a node on a channel, or the node has failed. -/
def Receives (fabric : Fabric) (far source : Rank) (channel : Channel) : Prop :=
  ∃ node, fabric.node? far = some node ∧
    (node.isFailed = true ∨ node.ledger.input? source = some channel)

/-- The data of a source flows from one node to another: a cable connects them, the first node was
asked to transmit the data there, and the second one receives it at the far end of this cable. -/
def DataPath (cabling : Cabling) (fabric : Fabric) (source near far : Rank) : Prop :=
  ∃ channel farChannel, cabling.farEnd? near channel = some (far, farChannel) ∧
    fabric.Asked near source channel ∧ fabric.Receives far source farChannel

/-- The second half of a transmit. -/
def arrival (far source : Rank) (channel : Channel) : Parcel :=
  .delivery far (.connection ⟨.rx, channel, source, true⟩)

/-- The data of a source flows from one node to another, or is about to: between the two halves of
a transmit it still has to be received. -/
def Feeds (cabling : Cabling) (fabric : Fabric) (source near far : Rank) : Prop :=
  ∃ channel farChannel, cabling.farEnd? near channel = some (far, farChannel) ∧
    fabric.Asked near source channel ∧ (fabric.node? far).isSome = true ∧
      (fabric.Receives far source farChannel ∨ arrival far source farChannel ∈ fabric.queue)

/-- What an event in a queue promises: a channel event is about a cable, a completion is an incoming
one, and a forward tells of data that flows. -/
def Honest (cabling : Cabling) (fabric : Fabric) (target : Rank) : Event → Prop
  | .channel known => known.connected = true ∧
    ∃ farChannel, cabling.farEnd? target known.channel = some (known.peer, farChannel)
  | .connection completed => completed.direction = .rx ∧ completed.connected = true
  | .forward forwarder receiver => fabric.Feeds cabling target forwarder receiver
  | .outerAnnounce _ _ => True
  | .network _ => True
  | .failure _ => False

/-- What an entry of the queue promises. A transmit in the queue was asked for at its near end. -/
def Genuine (cabling : Cabling) (fabric : Fabric) : Parcel → Prop
  | .transmit source near channel far farChannel =>
    cabling.farEnd? near channel = some (far, farChannel) ∧ fabric.Asked near source channel
  | .delivery target delivery =>
    ∃ event, delivery.event = .ok event ∧ fabric.Honest cabling target event

/-- What the state of a fabric is at all times. -/
structure Traced (cabling : Cabling) (fabric : Fabric) : Prop where
  wiring : ∀ {rank site}, fabric.sites.get? rank = some site →
    site.wiring = cabling.wiringOf rank
  rank : ∀ {rank node}, fabric.node? rank = some node → node.rank = rank
  member : ∀ {rank node other}, fabric.node? rank = some node →
    node.topology.hasMember other = true → (fabric.node? other).isSome = true
  binding : ∀ {rank node channel peer}, fabric.node? rank = some node →
    node.boundPeer? channel = some peer → (fabric.node? peer).isSome = true ∧
      ∃ farChannel, cabling.farEnd? rank channel = some (peer, farChannel)
  queue : ∀ parcel ∈ fabric.queue, fabric.Genuine cabling parcel
  route : ∀ {rank node peer route}, fabric.node? rank = some node →
    node.ledger.route? peer = some route →
      route.origin = rank ∧ route.destination = peer ∧
        route.hops.IsChain (fabric.Feeds cabling rank)

/-! ## What a delivery keeps -/

theorem node?_of_site (hsite : fabric.sites.get? target = some site) :
    fabric.node? target = some site.node := by
  rw [node?, hsite]
  rfl

theorem node?_of_sites (h : next.sites = fabric.sites) (rank : Rank) :
    next.node? rank = fabric.node? rank := by
  rw [node?, h, node?]

theorem exists_site_of_node? {node : Node} (h : fabric.node? target = some node) :
    ∃ site, fabric.sites.get? target = some site ∧ site.node = node :=
  Option.map_eq_some_iff.1 h

theorem isSome_node?_iff_exists_site :
    (fabric.node? target).isSome = true ↔ ∃ site, fabric.sites.get? target = some site := by
  rw [node?, Option.isSome_map, Option.isSome_iff_exists]

section Wiring

variable {peer : Rank} {channel farChannel : Channel} (h : Traced cabling fabric)
  (hsite : fabric.sites.get? target = some site)
  (hcable : cabling.farEnd? target channel = some (peer, farChannel))
include h hsite hcable

theorem Traced.get?_wiring : site.wiring.get? channel = some (peer, farChannel) := by
  rw [h.wiring hsite]
  exact hcable

theorem Traced.wired : site.wiring.contains channel = true := by
  rw [Table.contains_eq_isSome, h.get?_wiring hsite hcable]
  rfl

end Wiring

/-- Every node of the second fabric is a node of the first one at a later time. -/
structure Keeps (fabric next : Fabric) : Prop where
  node : ∀ {rank node}, fabric.node? rank = some node →
    ∃ after, next.node? rank = some after ∧ node.Grows after
  old : ∀ {rank after}, next.node? rank = some after → (fabric.node? rank).isSome = true

namespace Keeps

theorem of_sites (h : next.sites = fabric.sites) : fabric.Keeps next where
  node hnode := ⟨_, (node?_of_sites h _).trans hnode, .refl _⟩
  old hnode := by
    rw [← node?_of_sites h, hnode]
    rfl

theorem trans {third : Fabric} (h : fabric.Keeps next) (h' : next.Keeps third) :
    fabric.Keeps third where
  node hnode := by
    obtain ⟨middle, hmiddle, hgrows⟩ := h.node hnode
    obtain ⟨after, hafter, hgrows'⟩ := h'.node hmiddle
    exact ⟨after, hafter, hgrows.trans hgrows'⟩
  old hnode := by
    obtain ⟨middle, hmiddle⟩ := Option.isSome_iff_exists.1 (h'.old hnode)
    exact h.old hmiddle

theorem exists_node (h : fabric.Keeps next) {rank : Rank}
    (hnode : (fabric.node? rank).isSome = true) : (next.node? rank).isSome = true := by
  obtain ⟨node, hnode⟩ := Option.isSome_iff_exists.1 hnode
  obtain ⟨after, hafter, -⟩ := h.node hnode
  rw [hafter]
  rfl

theorem asked (h : fabric.Keeps next) (hasked : fabric.Asked near source channel) :
    next.Asked near source channel := by
  obtain ⟨node, hnode, hmem⟩ := hasked
  obtain ⟨after, hafter, hgrows⟩ := h.node hnode
  exact ⟨after, hafter, hgrows.accepted hmem⟩

theorem receives (h : fabric.Keeps next) (hreceives : fabric.Receives far source channel) :
    next.Receives far source channel := by
  obtain ⟨node, hnode, hreceived⟩ := hreceives
  obtain ⟨after, hafter, hgrows⟩ := h.node hnode
  exact ⟨after, hafter, hreceived.imp hgrows.isFailed hgrows.ledger.input⟩

end Keeps

/-- What happens to a site when it handles an event, in terms of its node. -/
theorem learns_after (site : Site) (hgain : event.isGain = true) :
    Router.Learns site.node (site.handled event).1.node event
      (Router.outboxOf (site.handled event).2) :=
  site.service.router.learns_handle site.wiring.backend hgain

theorem grows_after (site : Site) (hgain : event.isGain = true) :
    site.node.Grows (site.after event).node := by
  have hlearns := learns_after site hgain
  exact ⟨hlearns.topology, hlearns.isFailed,
    fun hmem => Site.establish_mem_accepted_after_iff.2 (.inl hmem), hlearns.grows⟩

theorem keeps_deliverTo (hsite : fabric.sites.get? target = some site)
    (hevent : delivery.event = .ok event) (hgain : event.isGain = true) :
    fabric.Keeps (fabric.deliverTo target delivery) := by
  constructor
  · intro rank node hnode
    rw [node?_deliverTo hsite hevent]
    by_cases hrank : rank = target
    · subst hrank
      obtain rfl := Option.some.inj ((node?_of_site hsite).symm.trans hnode)
      exact ⟨_, if_pos rfl, grows_after site hgain⟩
    · exact ⟨node, by rw [if_neg hrank, hnode], .refl node⟩
  · intro rank after hafter
    rw [node?_deliverTo hsite hevent] at hafter
    split at hafter
    · rename_i hrank
      rw [hrank, node?_of_site hsite]
      rfl
    · rw [hafter]
      rfl

/-- The second fabric comes after the first, and data that was about to arrive in the first one
still is or has arrived. -/
structure Follows (fabric next : Fabric) : Prop extends fabric.Keeps next where
  arrives : ∀ {far source channel}, (fabric.node? far).isSome = true →
    arrival far source channel ∈ fabric.queue →
      next.Receives far source channel ∨ arrival far source channel ∈ next.queue

theorem Follows.feeds (h : fabric.Follows next) {source near far : Rank}
    (hfeeds : fabric.Feeds cabling source near far) : next.Feeds cabling source near far := by
  obtain ⟨channel, farChannel, hcable, hasked, hnode, harrives⟩ := hfeeds
  refine ⟨channel, farChannel, hcable, h.asked hasked, h.exists_node hnode, ?_⟩
  rcases harrives with hreceives | hpending
  · exact .inl (h.receives hreceives)
  · exact h.arrives hnode hpending

theorem Follows.honest (h : fabric.Follows next) (hhonest : fabric.Honest cabling target event) :
    next.Honest cabling target event := by
  cases event with
  | forward forwarder receiver => exact h.feeds hhonest
  | channel known => exact hhonest
  | connection completed => exact hhonest
  | outerAnnounce announcer chassis => exact hhonest
  | network changed => exact hhonest
  | failure reason => exact hhonest

theorem Follows.genuine (h : fabric.Follows next) {parcel : Parcel}
    (hgenuine : fabric.Genuine cabling parcel) : next.Genuine cabling parcel := by
  cases parcel with
  | transmit source near channel far farChannel => exact ⟨hgenuine.1, h.asked hgenuine.2⟩
  | delivery target delivery =>
    obtain ⟨event, hevent, hhonest⟩ := hgenuine
    exact ⟨event, hevent, h.honest hhonest⟩

theorem Honest.isGain (h : fabric.Honest cabling target event) : event.isGain = true := by
  cases event with
  | channel known => exact h.1
  | connection completed => exact h.2
  | forward forwarder receiver => rfl
  | outerAnnounce announcer chassis => rfl
  | network changed => rfl
  | failure reason => exact h.elim

theorem genuine_arrival (far source : Rank) (channel : Channel) :
    fabric.Genuine cabling (arrival far source channel) :=
  ⟨_, rfl, rfl, rfl⟩

theorem Takes.mem_or_eq {taken parcel : Parcel} (h : fabric.Takes before taken behind rest)
    (hmem : parcel ∈ fabric.queue) : parcel = taken ∨ parcel ∈ rest.queue := by
  rw [h.queue, List.mem_append, List.mem_cons] at hmem
  rw [h.left, List.mem_append]
  rcases hmem with hmem | rfl | hmem
  · exact .inr (.inl hmem)
  · exact .inl rfl
  · exact .inr (.inr hmem)

theorem Takes.mem_queue {taken parcel : Parcel} (h : fabric.Takes before taken behind rest)
    (hmem : parcel ∈ rest.queue) : parcel ∈ fabric.queue := by
  rw [h.left, List.mem_append] at hmem
  rw [h.queue, List.mem_append, List.mem_cons]
  exact hmem.imp_right .inr

theorem Takes.taken_mem {taken : Parcel} (h : fabric.Takes before taken behind rest) :
    taken ∈ fabric.queue := by
  rw [h.queue]
  simp

theorem Takes.node? {taken : Parcel} (h : fabric.Takes before taken behind rest) (rank : Rank) :
    rest.node? rank = fabric.node? rank :=
  node?_of_sites h.sites rank

/-- Once an arrival is delivered, its node has failed or has the input. -/
theorem receives_deliverTo {far source : Rank} (hsite : fabric.sites.get? far = some site) :
    (fabric.deliverTo far (.connection ⟨.rx, channel, source, true⟩)).Receives far source
      channel := by
  have heffect := (site.service.router.receiveEffect_handle site.wiring.backend channel source).1
  refine ⟨_, by rw [node?_deliverTo hsite rfl, if_pos rfl], ?_⟩
  exact heffect.done

theorem follows_deliverTo (htakes : fabric.Takes before (.delivery target delivery) behind rest)
    (hsite : fabric.sites.get? target = some site) (hevent : delivery.event = .ok event)
    (hgain : event.isGain = true) : fabric.Follows (rest.deliverTo target delivery) := by
  have hrest : rest.sites.get? target = some site := htakes.sites ▸ hsite
  refine ⟨(Keeps.of_sites htakes.sites).trans (keeps_deliverTo hrest hevent hgain), ?_⟩
  intro far source channel hfar hmem
  rcases htakes.mem_or_eq hmem with heq | hmem
  · left
    obtain ⟨rfl, rfl⟩ := Parcel.delivery.inj heq
    exact receives_deliverTo hrest
  · right
    rw [(deliverTo_of_site hrest hevent).2.1]
    exact List.mem_append_left _ hmem

/-- The first half of a transmit also keeps what was about to arrive. -/
theorem follows_transmit
    (htakes : fabric.Takes before (.transmit source near channel far farChannel) behind rest)
    (hsite : fabric.sites.get? near = some site) :
    fabric.Follows ((rest.deliverTo near (.connection ⟨.tx, channel, source, true⟩)).push
      (arrival far source farChannel)) := by
  have hrest : rest.sites.get? near = some site := htakes.sites ▸ hsite
  have hkeeps := keeps_deliverTo hrest
    (show (Delivery.connection ⟨.tx, channel, source, true⟩).event = .ok _ from rfl) rfl
  have hqueue := (deliverTo_of_site hrest
    (show (Delivery.connection ⟨.tx, channel, source, true⟩).event = .ok _ from rfl)).2.1
  refine ⟨((Keeps.of_sites htakes.sites).trans hkeeps).trans (.of_sites rfl), ?_⟩
  intro far' source' channel' hfar hmem
  right
  rcases htakes.mem_or_eq hmem with heq | hmem
  · exact absurd heq (by simp [arrival])
  · apply List.mem_cons_of_mem
    rw [hqueue]
    exact List.mem_append_left _ hmem

/-! ## The invariant -/

/-- An event that tells the truth is handled at one site, and what was in the queue is not lost. -/
structure Handles (cabling : Cabling) (fabric next : Fabric) (target : Rank) (site : Site)
    (event : Event) : Prop where
  present : fabric.sites.get? target = some site
  gain : event.isGain = true
  follows : fabric.Follows next
  sites : next.sites = fabric.sites.insert target (site.after event)
  queue : ∀ parcel ∈ next.queue, parcel ∈ fabric.queue ∨ parcel ∈ site.parcels target event ∨
    ∃ far source channel, parcel = arrival far source channel
  truth : fabric.Honest cabling target event ∨
    ∃ channel source, event = .connection ⟨.tx, channel, source, true⟩
  transmit : ∀ {channel source bound}, event = .connection ⟨.tx, channel, source, true⟩ →
    site.node.boundPeer? channel = some bound → next.Feeds cabling source target bound

namespace Handles

theorem old (h : Handles cabling fabric next target site event) :
    fabric.node? target = some site.node :=
  node?_of_site h.present

theorem node? (h : Handles cabling fabric next target site event) (rank : Rank) :
    next.node? rank =
      if rank = target then some (site.after event).node else fabric.node? rank := by
  rw [Fabric.node?, h.sites, Table.get?_insert]
  split <;> rfl

/-- A node of the second fabric is the one that handled the event, or was there before. -/
theorem node_cases (h : Handles cabling fabric next target site event) {rank : Rank} {node : Node}
    (hnode : next.node? rank = some node) :
    (rank = target ∧ node = (site.after event).node) ∨ fabric.node? rank = some node := by
  rw [h.node?] at hnode
  split at hnode
  · rename_i heq
    exact .inl ⟨heq, (Option.some.inj hnode).symm⟩
  · exact .inr hnode

theorem cable (h : Handles cabling fabric next target site event) {known : ChannelEvent}
    (hevent : event = .channel known) :
    ∃ farChannel, cabling.farEnd? target known.channel = some (known.peer, farChannel) := by
  subst hevent
  rcases h.truth with hhonest | ⟨channel, source, hevent⟩
  · exact hhonest.2
  · exact absurd hevent (by simp)

theorem forward (h : Handles cabling fabric next target site event) {forwarder receiver : Rank}
    (hevent : event = .forward forwarder receiver) :
    fabric.Feeds cabling target forwarder receiver := by
  subst hevent
  rcases h.truth with hhonest | ⟨channel, source, hevent⟩
  · exact hhonest
  · exact absurd hevent (by simp)

theorem binding (h : Handles cabling fabric next target site event)
    (htraced : Traced cabling fabric) {channel : Channel} {peer : Rank}
    (hbound : (site.after event).node.boundPeer? channel = some peer) :
    (next.node? peer).isSome = true ∧
      ∃ farChannel, cabling.farEnd? target channel = some (peer, farChannel) := by
  rcases (learns_after site h.gain).binding hbound with hbound | ⟨known, hevent, rfl, rfl, hmember⟩
  · obtain ⟨hpeer, hcable⟩ := htraced.binding h.old hbound
    exact ⟨h.follows.exists_node hpeer, hcable⟩
  · exact ⟨h.follows.exists_node (htraced.member h.old hmember), h.cable hevent⟩

/-- What a truthful event makes a node queue is truthful: its transmits go over its own cables, and
a forward is sent only once the relay was started. -/
theorem genuine (h : Handles cabling fabric next target site event)
    (htraced : Traced cabling fabric) {parcel : Parcel}
    (hmem : parcel ∈ site.parcels target event) :
    next.Genuine cabling parcel := by
  rcases Site.mem_parcels_iff.1 hmem with
    ⟨source, channel, far, farChannel, hmade, hwired, rfl⟩ | ⟨outbound, hsent, rfl⟩
  · refine ⟨?_, _, by rw [h.node?, if_pos rfl], ?_⟩
    · rw [Cabling.farEnd?, ← htraced.wiring h.present, hwired]
    · exact Site.establish_mem_accepted_after_iff.2 (.inr hmade)
  · refine ⟨_, event_control_encode outbound.message, ?_⟩
    rcases (learns_after site h.gain).sends outbound hsent with
      ⟨chassis, hannounce⟩ | ⟨channel, source, bound, hevent, hbound, rfl⟩
    · rw [hannounce]
      trivial
    · have hfeeds := h.transmit hevent hbound
      rw [← htraced.rank h.old] at hfeeds
      exact hfeeds

/-- A route of the node was known before, is the direct one along a transmit that has just started,
or extends a known one by the hop that a forward tells of. -/
theorem route (h : Handles cabling fabric next target site event)
    (htraced : Traced cabling fabric) {peer : Rank} {route : Route}
    (hroute : (site.after event).node.ledger.route? peer = some route) :
    route.origin = target ∧ route.destination = peer ∧
      route.hops.IsChain (next.Feeds cabling target) := by
  have hrank : site.node.rank = target := htraced.rank h.old
  rcases (learns_after site h.gain).route hroute with
    hknown | ⟨channel, hevent, hbound, rfl⟩ | ⟨forwarder, base, hevent, hbase, rfl⟩
  · obtain ⟨horigin, hdestination, hchain⟩ := htraced.route h.old hknown
    exact ⟨horigin, hdestination, hchain.imp fun _ _ => h.follows.feeds⟩
  · refine ⟨hrank, rfl, ?_⟩
    have hfeeds := h.transmit hevent hbound
    rw [hrank] at hfeeds ⊢
    exact List.isChain_pair.2 hfeeds
  · obtain ⟨horigin, hdestination, hchain⟩ := htraced.route h.old hbase
    refine ⟨horigin, rfl, ?_⟩
    rw [Route.hops, List.isChain_append]
    refine ⟨hchain.imp fun _ _ => h.follows.feeds, .singleton peer, ?_⟩
    intro last hlast first hfirst
    rw [Route.getLast?_hops, hdestination] at hlast
    obtain rfl := Option.some.inj hlast
    obtain rfl := Option.some.inj hfirst
    exact h.follows.feeds (h.forward hevent)

end Handles

/-- One event at one site keeps the invariant. -/
theorem Traced.handled (h : Traced cabling fabric)
    (hhandles : Handles cabling fabric next target site event) : Traced cabling next := by
  have hlearns := learns_after site hhandles.gain
  constructor
  case wiring =>
    intro rank other hother
    rw [hhandles.sites, Table.get?_insert] at hother
    split at hother
    · rename_i heq
      subst heq
      obtain rfl := Option.some.inj hother
      rw [Site.wiring_after]
      exact h.wiring hhandles.present
    · exact h.wiring hother
  case rank =>
    intro rank node hnode
    rcases hhandles.node_cases hnode with ⟨rfl, rfl⟩ | hnode
    · rw [Site.node_after, Node.rank_sending, hlearns.toContinues.rank]
      exact h.rank hhandles.old
    · exact h.rank hnode
  case member =>
    intro rank node other hnode hmember
    apply hhandles.follows.exists_node
    rcases hhandles.node_cases hnode with ⟨rfl, rfl⟩ | hnode
    · rw [Site.node_after, Node.topology_sending, hlearns.topology] at hmember
      exact h.member hhandles.old hmember
    · exact h.member hnode hmember
  case binding =>
    intro rank node channel peer hnode hbound
    rcases hhandles.node_cases hnode with ⟨rfl, rfl⟩ | hnode
    · exact hhandles.binding h hbound
    · obtain ⟨hpeer, hcable⟩ := h.binding hnode hbound
      exact ⟨hhandles.follows.exists_node hpeer, hcable⟩
  case queue =>
    intro parcel hmem
    rcases hhandles.queue parcel hmem with hmem | hmem | ⟨far, source, channel, rfl⟩
    · exact hhandles.follows.genuine (h.queue parcel hmem)
    · exact hhandles.genuine h hmem
    · exact genuine_arrival far source channel
  case route =>
    intro rank node peer route hnode hroute
    rcases hhandles.node_cases hnode with ⟨rfl, rfl⟩ | hnode
    · exact hhandles.route h hroute
    · obtain ⟨horigin, hdestination, hchain⟩ := h.route hnode hroute
      exact ⟨horigin, hdestination, hchain.imp fun _ _ => hhandles.follows.feeds⟩

theorem Traced.congr (h : Traced cabling fabric) (hsites : next.sites = fabric.sites)
    (hfollows : fabric.Follows next) (hqueue : ∀ parcel ∈ next.queue, parcel ∈ fabric.queue ∨
      ∃ far source channel, parcel = arrival far source channel) : Traced cabling next := by
  have hnode := node?_of_sites hsites
  refine ⟨fun hget => h.wiring (hsites ▸ hget), fun hget => h.rank ((hnode _).symm.trans hget),
    fun hget hmember => hfollows.exists_node (h.member ((hnode _).symm.trans hget) hmember),
    fun hget hbound => ?_, fun parcel hmem => ?_, fun hget hroute => ?_⟩
  · obtain ⟨hpeer, hcable⟩ := h.binding ((hnode _).symm.trans hget) hbound
    exact ⟨hfollows.exists_node hpeer, hcable⟩
  · rcases hqueue parcel hmem with hmem | ⟨far, source, channel, rfl⟩
    · exact hfollows.genuine (h.queue parcel hmem)
    · exact genuine_arrival far source channel
  · obtain ⟨horigin, hdestination, hchain⟩ := h.route ((hnode _).symm.trans hget) hroute
    exact ⟨horigin, hdestination, hchain.imp fun _ _ => hfollows.feeds⟩

/-- A delivery that is lost for want of a site. -/
theorem follows_of_none {parcel : Parcel} (htakes : fabric.Takes before parcel behind rest)
    (hsites : next.sites = fabric.sites)
    (hqueue : ∀ parcel ∈ rest.queue, parcel ∈ next.queue)
    (hlost : ∀ {far source channel}, (fabric.node? far).isSome = true →
      parcel = arrival far source channel → next.Receives far source channel) :
    fabric.Follows next := by
  refine ⟨.of_sites hsites, fun hfar hmem => ?_⟩
  rcases htakes.mem_or_eq hmem with heq | hmem
  · exact .inl (hlost hfar heq.symm)
  · exact .inr (hqueue _ hmem)

theorem Traced.deliverTo (h : Traced cabling fabric)
    (htakes : fabric.Takes before (.delivery target delivery) behind rest) :
    fabric.Follows (rest.deliverTo target delivery) ∧
      Traced cabling (rest.deliverTo target delivery) := by
  have hgenuine := h.queue _ htakes.taken_mem
  cases hsite : fabric.sites.get? target with
  | none =>
    have hlost : rest.deliverTo target delivery = rest.noteDiscovery target delivery :=
      deliverTo_of_none (htakes.sites ▸ hsite)
    have hsites : (rest.deliverTo target delivery).sites = fabric.sites := by
      rw [hlost, sites_noteDiscovery, htakes.sites]
    have hqueue : (rest.deliverTo target delivery).queue = rest.queue := by
      rw [hlost, queue_noteDiscovery]
    have hfollows : fabric.Follows (rest.deliverTo target delivery) := by
      refine follows_of_none htakes hsites (fun _ hmem => hqueue ▸ hmem) fun hfar heq => ?_
      obtain ⟨rfl, -⟩ := Parcel.delivery.inj heq
      simp [node?, hsite] at hfar
    exact ⟨hfollows, h.congr hsites hfollows fun parcel hmem =>
      .inl (htakes.mem_queue (hqueue ▸ hmem))⟩
  | some site =>
    obtain ⟨event, hevent, hhonest⟩ := hgenuine
    have hrest : rest.sites.get? target = some site := htakes.sites ▸ hsite
    obtain ⟨hsites, hqueue, -, -⟩ := deliverTo_of_site hrest hevent
    have hfollows := follows_deliverTo htakes hsite hevent hhonest.isGain
    refine ⟨hfollows, h.handled ⟨hsite, hhonest.isGain, hfollows, htakes.sites ▸ hsites, ?_,
      .inl hhonest, ?_⟩⟩
    · intro parcel hmem
      rw [hqueue, List.mem_append] at hmem
      exact hmem.imp htakes.mem_queue .inl
    · rintro channel source bound rfl -
      exact absurd hhonest.1 (by simp)

theorem Traced.transmit (h : Traced cabling fabric)
    (htakes : fabric.Takes before (.transmit source near channel far farChannel) behind rest) :
    fabric.Follows ((rest.deliverTo near (.connection ⟨.tx, channel, source, true⟩)).push
        (arrival far source farChannel)) ∧
      Traced cabling ((rest.deliverTo near (.connection ⟨.tx, channel, source, true⟩)).push
        (arrival far source farChannel)) := by
  obtain ⟨hcable, node, hnode, hmem⟩ := h.queue _ htakes.taken_mem
  obtain ⟨site, hsite, rfl⟩ := exists_site_of_node? hnode
  have hrest : rest.sites.get? near = some site := htakes.sites ▸ hsite
  obtain ⟨hsites, hqueue, -, -⟩ := deliverTo_of_site hrest
    (show (Delivery.connection ⟨.tx, channel, source, true⟩).event = .ok _ from rfl)
  have hfollows := follows_transmit htakes hsite
  refine ⟨hfollows, h.handled ⟨hsite, rfl, hfollows, htakes.sites ▸ hsites, ?_,
    .inr ⟨channel, source, rfl⟩, ?_⟩⟩
  · intro parcel hmem
    rcases List.mem_cons.1 hmem with rfl | hmem
    · exact .inr (.inr ⟨far, source, farChannel, rfl⟩)
    · rw [hqueue, List.mem_append] at hmem
      exact hmem.imp htakes.mem_queue .inl
  · intro channel' source' bound hevent hbound
    obtain ⟨rfl, rfl⟩ : channel = channel' ∧ source = source' := by simpa using hevent
    obtain ⟨hpeer, farChannel', hcable'⟩ := h.binding hnode hbound
    obtain ⟨rfl, rfl⟩ := Prod.mk.inj (Option.some.inj (hcable.symm.trans hcable'))
    exact ⟨channel, farChannel, hcable, hfollows.asked ⟨_, hnode, hmem⟩,
      hfollows.exists_node hpeer, .inr List.mem_cons_self⟩

/-! ## Reachable states -/

theorem traced_of_create (hfits : Cabling.Fits links)
    (h : Created members request links fabric) : Traced (.ofLinks links) fabric := by
  constructor
  case wiring =>
    intro rank site hsite
    obtain ⟨topology, forwarding, node, -, -, rfl⟩ := startSite_eq_ok (h.startSite hsite)
    rfl
  case rank =>
    intro rank node hnode
    obtain ⟨topology, htopology, hosts, rfl⟩ := h.node? hnode
    exact Topology.localRank_of_ofMembers htopology
  case member =>
    intro rank node other hnode hmember
    obtain ⟨topology, htopology, hosts, rfl⟩ := h.node? hnode
    exact (h.isSome_node?_iff other).2 ((Topology.hasMember_of_ofMembers htopology other).1 hmember)
  case binding =>
    intro rank node channel peer hnode hbound
    obtain ⟨topology, -, hosts, rfl⟩ := h.node? hnode
    exact absurd hbound (by simp [Node.boundPeer?, Node.start])
  case queue =>
    intro parcel hmem
    rw [h.queue, List.mem_append] at hmem
    rcases hmem with hmem | hmem
    · obtain ⟨cableEnd, hend, rfl⟩ := List.mem_map.1 hmem
      obtain ⟨farChannel, hcable⟩ := (Cabling.mem_ends_iff hfits).1 hend
      exact ⟨_, rfl, rfl, farChannel, hcable⟩
    · rw [networkLinks, List.mem_flatMap] at hmem
      obtain ⟨row, -, hmem⟩ := hmem
      obtain ⟨host, -, rfl⟩ := List.mem_map.1 hmem
      exact ⟨_, rfl, trivial⟩
  case route =>
    intro rank node peer route hnode hroute
    obtain ⟨topology, -, hosts, rfl⟩ := h.node? hnode
    exact absurd hroute (by simp [Node.start, Ledger.route?, Ledger.entry, Ledger.get?,
      Ledger.empty, Connectivity.blank])

/-- A reachable state comes after the first one. -/
theorem Reachable.keeps {start : Fabric} (hstart : Traced cabling start)
    (h : Reachable start fabric) : start.Keeps fabric := by
  have hboth : Traced cabling fabric ∧ start.Keeps fabric := by
    refine @Reachable.invariant fabric start
      (fun fabric => Traced cabling fabric ∧ start.Keeps fabric) ⟨hstart, .of_sites rfl⟩ ?_ ?_ h
    · rintro fabric rest before behind target delivery ⟨hinv, hkeeps⟩ htakes
      obtain ⟨hfollows, hnext⟩ := hinv.deliverTo htakes
      exact ⟨hnext, hkeeps.trans hfollows.toKeeps⟩
    · rintro fabric rest before behind source near far channel farChannel ⟨hinv, hkeeps⟩ htakes
      obtain ⟨hfollows, hnext⟩ := hinv.transmit htakes
      exact ⟨hnext, hkeeps.trans hfollows.toKeeps⟩
  exact hboth.2

theorem Reachable.traced {start : Fabric} (hstart : Traced cabling start)
    (h : Reachable start fabric) : Traced cabling fabric :=
  h.invariant hstart (fun hinv htakes => (hinv.deliverTo htakes).2)
    fun hinv htakes => (hinv.transmit htakes).2

/-- No completion waits on its own in a queue: both halves of a transmit are one entry. -/
def Settled (fabric : Fabric) : Prop :=
  ∀ far completed, Parcel.delivery far (.connection completed) ∉ fabric.queue

theorem Settled.deliverTo (h : Settled fabric) : Settled (fabric.deliverTo target delivery) := by
  intro far completed hmem
  obtain ⟨new, hqueue, hnew⟩ := exists_queue_deliverTo fabric target delivery
  rw [hqueue, List.mem_append] at hmem
  rcases hmem with hmem | hmem
  · exact h far completed hmem
  · rcases hnew _ hmem with ⟨_, _, _, _, heq⟩ | ⟨_, _, heq⟩
    · exact absurd heq (by simp)
    · exact absurd heq (by simp)

theorem Reachable.settled {start : Fabric} (hstart : Settled start) (h : Reachable start fabric) :
    Settled fabric := by
  induction h with
  | start => exact hstart
  | step reached step ih =>
    obtain ⟨before, parcel, behind, rest, htakes, -, -, rfl⟩ := step?_eq_some step
    have hrest : Settled rest := fun far completed hmem => ih far completed (htakes.mem_queue hmem)
    cases parcel with
    | delivery target delivery => exact hrest.deliverTo
    | transmit source near channel far farChannel => exact hrest.deliverTo.deliverTo

theorem settled_of_create (h : Created members request links fabric) : Settled fabric := by
  intro far completed hmem
  rw [h.queue, List.mem_append, networkLinks] at hmem
  simp [discovery] at hmem

theorem Feeds.dataPath {source near far : Rank} (h : fabric.Feeds cabling source near far)
    (hsettled : Settled fabric) : fabric.DataPath cabling source near far := by
  obtain ⟨channel, farChannel, hcable, hasked, -, hreceives | hpending⟩ := h
  · exact ⟨channel, farChannel, hcable, hasked, hreceives⟩
  · exact absurd hpending (hsettled _ _)

/-- In every reachable state, the data of a node flows along every hop of each of its routes. -/
theorem isChain_dataPath_of_route? {start : Fabric} (hfits : Cabling.Fits links)
    (hcreate : create members request links = .ok start) (hreached : Reachable start fabric)
    {peer : Rank} {node : Node} {route : Route} (hnode : fabric.node? source = some node)
    (hroute : node.ledger.route? peer = some route) :
    route.hops.IsChain (fabric.DataPath (.ofLinks links) source) := by
  have hcreated := created_of_create hcreate
  have hsettled := hreached.settled (settled_of_create hcreated)
  have htraced := hreached.traced (traced_of_create hfits hcreated)
  exact (htraced.route hnode hroute).2.2.imp fun _ _ hfeeds => hfeeds.dataPath hsettled

/-- The cables of a cube node to its chassis mates and to its partner, and no others. -/
def star : List Link := [(0, 1), (0, 2), (0, 3), (0, 4)]

/-- With these cables node 0 relays the data of its partner to its mates, and tells the partner
so. -/
theorem exists_drained_star : ∃ start fabric sender receiver,
    create (Layout.members 8) .auto star = .ok start ∧ Reachable start fabric ∧
      fabric.queue = [] ∧ fabric.sites.values.all (!·.node.isFailed) = true ∧
        fabric.node? 4 = some sender ∧ fabric.node? 3 = some receiver ∧
          sender.ledger.route? 3 = some (.relayed (.direct 4 0) 3) ∧
            receiver.ledger.input? 4 = some 0 := by
  have hrun : ((create (Layout.members 8) .auto star).toOption.bind fun start =>
      (start.follow? (List.replicate 27 0)).bind fun fabric =>
        (fabric.node? 4).bind fun sender => (fabric.node? 3).map fun receiver =>
          decide (fabric.queue = [] ∧ fabric.sites.values.all (!·.node.isFailed) = true ∧
            sender.ledger.route? 3 = some (.relayed (.direct 4 0) 3) ∧
              receiver.ledger.input? 4 = some 0)) = some true := by decide +kernel
  obtain ⟨start, hstart, hrun⟩ := Option.bind_eq_some_iff.1 hrun
  obtain ⟨fabric, hfabric, hrun⟩ := Option.bind_eq_some_iff.1 hrun
  obtain ⟨sender, hsender, hrun⟩ := Option.bind_eq_some_iff.1 hrun
  obtain ⟨receiver, hreceiver, hfacts⟩ := Option.map_eq_some_iff.1 hrun
  obtain ⟨hqueue, hworking, hroute, hinput⟩ := of_decide_eq_true hfacts
  exact ⟨start, fabric, sender, receiver, eq_ok_of_toOption hstart,
    Reachable.start.follow? hfabric, hqueue, hworking, hsender, hreceiver, hroute, hinput⟩

/-- The data of node 4 flows to node 0 and from there to node 3. -/
theorem isChain_dataPath_of_route?_star : ∃ start fabric node route,
    create (Layout.members 8) .auto star = .ok start ∧ Reachable start fabric ∧
      fabric.node? 4 = some node ∧ node.ledger.route? 3 = some route ∧ route.hops = [4, 0, 3] ∧
        route.hops.IsChain (fabric.DataPath (.ofLinks star) 4) := by
  obtain ⟨start, fabric, node, -, hcreate, hreached, -, -, hnode, -, hroute, -⟩ :=
    exists_drained_star
  exact ⟨start, fabric, node, _, hcreate, hreached, hnode, hroute, rfl,
    isChain_dataPath_of_route? (Cabling.fits_of_length (by decide)) hcreate hreached hnode hroute⟩

end Fabric

end MeshFormation
