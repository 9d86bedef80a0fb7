import MeshFormation.Proofs.Fabric.DataPath

/-!
# Routes and inputs agree once nothing is left to deliver

A node that receives the data of a source has told the source so: the transmit toward it was either
the source's own, which gives the source a direct route when it completes, or a relay, whose
completion sends the source a forward. A forward in the queue is the only way in which the source
may not know yet. With an empty queue and no failed node, the routes of a source therefore lead
exactly to the nodes that receive its data.
-/

namespace MeshFormation.Fabric

variable {members : List Member} {request : ProfileRequest} {links : List Link}
  {cabling : Cabling} {fabric next rest : Fabric} {before behind : List Parcel}
  {source near far target receiver : Rank} {channel farChannel : Channel} {delivery : Delivery}
  {site : Site}

def AnyFailed (fabric : Fabric) : Prop :=
  ∃ rank node, fabric.node? rank = some node ∧ node.isFailed = true

def Routed (fabric : Fabric) (source receiver : Rank) : Prop :=
  ∃ node, fabric.node? source = some node ∧ (node.ledger.route? receiver).isSome = true

/-- The entry by which a forwarder tells a source that it relays to a receiver. -/
def forwardTo (source forwarder receiver : Rank) : Parcel :=
  .delivery source (.control (ControlMessage.forward forwarder receiver).encode)

/-- A source has a route to a receiver or is about to get one, unless some node has failed. -/
def Informed (fabric : Fabric) (source receiver : Rank) : Prop :=
  fabric.AnyFailed ∨ fabric.Routed source receiver ∨
    (fabric.node? source).isSome = true ∧
      ∃ forwarder, forwardTo source forwarder receiver ∈ fabric.queue

/-- Every source is informed of the nodes that receive its data or are about to. -/
structure Told (fabric : Fabric) : Prop where
  input : ∀ {rank source node}, fabric.node? rank = some node → source ≠ rank →
    (node.ledger.input? source).isSome = true → fabric.Informed source rank
  arrival : ∀ {far source channel}, arrival far source channel ∈ fabric.queue → source ≠ far →
    fabric.Informed source far

theorem Keeps.anyFailed (h : fabric.Keeps next) (hfailed : fabric.AnyFailed) : next.AnyFailed := by
  obtain ⟨rank, node, hnode, hfailed⟩ := hfailed
  obtain ⟨after, hafter, hgrows⟩ := h.node hnode
  exact ⟨rank, after, hafter, hgrows.isFailed hfailed⟩

theorem Keeps.routed (h : fabric.Keeps next) (hrouted : fabric.Routed source receiver) :
    next.Routed source receiver := by
  obtain ⟨node, hnode, hroute⟩ := hrouted
  obtain ⟨after, hafter, hgrows⟩ := h.node hnode
  obtain ⟨route, hroute⟩ := Option.isSome_iff_exists.1 hroute
  exact ⟨after, hafter, by rw [hgrows.ledger.route hroute]; rfl⟩

/-- What a source is informed of stays so if every forward is kept or reaches the source. -/
theorem Keeps.informed (h : fabric.Keeps next)
    (hforward : ∀ {source forwarder receiver}, (fabric.node? source).isSome = true →
      forwardTo source forwarder receiver ∈ fabric.queue → next.Informed source receiver)
    (hinformed : fabric.Informed source receiver) : next.Informed source receiver := by
  rcases hinformed with hfailed | hrouted | ⟨hnode, forwarder, hmem⟩
  · exact .inl (h.anyFailed hfailed)
  · exact .inr (.inl (h.routed hrouted))
  · exact hforward hnode hmem

theorem informed_deliverTo_forward {forwarder : Rank}
    (hsite : fabric.sites.get? source = some site) :
    (fabric.deliverTo source
      (.control (ControlMessage.forward forwarder receiver).encode)).Informed source receiver := by
  have hevent := event_control_encode (.forward forwarder receiver)
  have heffect := (site.service.router.forwardEffect_handle site.wiring.backend forwarder
    receiver).1
  have hnode := node?_deliverTo hsite hevent source
  rw [if_pos rfl] at hnode
  rcases heffect.done with hfailed | hroute
  · exact .inl ⟨source, _, hnode, hfailed⟩
  · exact .inr (.inl ⟨_, hnode, hroute⟩)

/-- A delivery adds to the queue only. -/
theorem mem_queue_deliverTo {event : Event} {entry : Parcel} (hevent : delivery.event = .ok event)
    (hmem : entry ∈ fabric.queue) : entry ∈ (fabric.deliverTo target delivery).queue := by
  cases hsite : fabric.sites.get? target with
  | none =>
    rw [deliverTo_of_none hsite, queue_noteDiscovery]
    exact hmem
  | some site =>
    rw [(deliverTo_of_site hsite hevent).2.1]
    exact List.mem_append_left _ hmem

theorem arrival_notMem_parcels {rank : Rank} {event : Event} :
    arrival far source channel ∉ site.parcels rank event := by
  intro hmem
  rcases Site.mem_parcels_iff.1 hmem with ⟨_, _, _, _, -, -, heq⟩ | ⟨_, -, heq⟩
  · exact absurd heq (by simp [arrival])
  · exact absurd heq (by simp [arrival])

/-- A delivery keeps what a source is informed of: a forward that is delivered reaches the
source. -/
theorem Traced.informed_deliverTo (htraced : Traced cabling fabric)
    (htakes : fabric.Takes before (.delivery target delivery) behind rest)
    (h : fabric.Informed source receiver) :
    (rest.deliverTo target delivery).Informed source receiver := by
  have hkeeps := (htraced.deliverTo htakes).1.toKeeps
  obtain ⟨event, hevent, -⟩ := htraced.queue _ htakes.taken_mem
  refine hkeeps.informed (fun {source forwarder receiver} hsource hmem => ?_) h
  rcases htakes.mem_or_eq hmem with heq | hmem
  · obtain ⟨rfl, rfl⟩ := Parcel.delivery.inj heq
    obtain ⟨site, hsite⟩ := isSome_node?_iff_exists_site.1 hsource
    exact informed_deliverTo_forward (htakes.sites ▸ hsite)
  · exact .inr (.inr ⟨hkeeps.exists_node hsource, forwarder, mem_queue_deliverTo hevent hmem⟩)

theorem Told.deliverTo (h : Told fabric) (htraced : Traced cabling fabric)
    (htakes : fabric.Takes before (.delivery target delivery) behind rest) :
    Told (rest.deliverTo target delivery) := by
  have hinformed : ∀ {source receiver}, fabric.Informed source receiver →
      (rest.deliverTo target delivery).Informed source receiver :=
    htraced.informed_deliverTo htakes
  obtain ⟨event, hevent, hhonest⟩ := htraced.queue _ htakes.taken_mem
  cases hsite : fabric.sites.get? target with
  | none =>
    have hlost : rest.deliverTo target delivery = rest.noteDiscovery target delivery :=
      deliverTo_of_none (htakes.sites ▸ hsite)
    have hnode : ∀ rank, (rest.deliverTo target delivery).node? rank = fabric.node? rank :=
      node?_of_sites (by rw [hlost, sites_noteDiscovery, htakes.sites])
    have hqueue : (rest.deliverTo target delivery).queue = rest.queue := by
      rw [hlost, queue_noteDiscovery]
    refine ⟨fun hget hne hinput => hinformed (h.input ((hnode _).symm.trans hget) hne hinput),
      fun hmem hne => hinformed (h.arrival (htakes.mem_queue (hqueue ▸ hmem)) hne)⟩
  | some site =>
    have hrest : rest.sites.get? target = some site := htakes.sites ▸ hsite
    have hqueue := (deliverTo_of_site hrest hevent).2.1
    constructor
    · intro rank source node hget hne hinput
      rw [node?_deliverTo hrest hevent] at hget
      split at hget
      · rename_i hrank
        subst hrank
        obtain rfl := Option.some.inj hget
        obtain ⟨channel, hchannel⟩ := Option.isSome_iff_exists.1 hinput
        rcases (learns_after site hhonest.isGain).input hchannel with hold | hrx
        · exact hinformed (h.input (node?_of_site hsite) hne (by rw [hold]; rfl))
        · -- The input is new, so its arrival was the entry that was taken.
          subst hrx
          cases Delivery.reads hevent
          exact hinformed (h.arrival htakes.taken_mem hne)
      · exact hinformed (h.input ((htakes.node? _).symm.trans hget) hne hinput)
    · intro far source channel hmem hne
      rw [hqueue, List.mem_append] at hmem
      rcases hmem with hmem | hmem
      · exact hinformed (h.arrival (htakes.mem_queue hmem) hne)
      · exact absurd hmem arrival_notMem_parcels

/-- The half of a transmit at its near end informs the source of the far end: of its own data by the
direct route, and of a relay by a forward. -/
theorem Traced.informed_transmit (htraced : Traced cabling fabric)
    (htakes : fabric.Takes before (.transmit source near channel far farChannel) behind rest) :
    ((rest.deliverTo near (.connection ⟨.tx, channel, source, true⟩)).push
      (Fabric.arrival far source farChannel)).Informed source far := by
  have hkeeps := (htraced.transmit htakes).1.toKeeps
  obtain ⟨hcable, node, hnode, -⟩ := htraced.queue _ htakes.taken_mem
  obtain ⟨site, hsite, rfl⟩ := exists_site_of_node? hnode
  have hevent : (Delivery.connection ⟨.tx, channel, source, true⟩).event =
      .ok (.connection ⟨.tx, channel, source, true⟩) := rfl
  have hrest : rest.sites.get? near = some site := htakes.sites ▸ hsite
  have hqueue := (deliverTo_of_site hrest hevent).2.1
  have hafter := (node?_deliverTo hrest hevent near).trans (if_pos rfl)
  have heffect := site.service.router.transmitEffect_handle site.wiring.backend channel source
  rcases heffect.done with hfailed | ⟨hmember, bound, hbound, hdone⟩
  · exact .inl ⟨near, _, hafter, hfailed⟩
  obtain ⟨-, farChannel', hcable'⟩ := htraced.binding hnode hbound
  obtain ⟨rfl, -⟩ := Prod.mk.inj (Option.some.inj (hcable.symm.trans hcable'))
  have hrank : site.service.router.node.rank = near := htraced.rank hnode
  split at hdone
  · rename_i hown
    obtain rfl : source = near := hown.trans hrank
    exact .inr (.inl ⟨_, hafter, hdone⟩)
  · refine .inr (.inr ⟨hkeeps.exists_node (htraced.member hnode hmember), near,
      List.mem_cons_of_mem _ ?_⟩)
    rw [hqueue, List.mem_append, Site.mem_parcels_iff]
    rw [hrank] at hdone
    exact .inr (.inr ⟨_, hdone, rfl⟩)

theorem Told.transmit (h : Told fabric) (htraced : Traced cabling fabric)
    (htakes : fabric.Takes before (.transmit source near channel far farChannel) behind rest) :
    Told ((rest.deliverTo near (.connection ⟨.tx, channel, source, true⟩)).push
      (Fabric.arrival far source farChannel)) := by
  have hkeeps := (htraced.transmit htakes).1.toKeeps
  obtain ⟨-, node, hnode, -⟩ := htraced.queue _ htakes.taken_mem
  obtain ⟨site, hsite, rfl⟩ := exists_site_of_node? hnode
  have hevent : (Delivery.connection ⟨.tx, channel, source, true⟩).event =
      .ok (.connection ⟨.tx, channel, source, true⟩) := rfl
  have hrest : rest.sites.get? near = some site := htakes.sites ▸ hsite
  have hqueue := (deliverTo_of_site hrest hevent).2.1
  have hafter := node?_deliverTo hrest hevent
  set next := (rest.deliverTo near (.connection ⟨.tx, channel, source, true⟩)).push
    (Fabric.arrival far source farChannel) with hnext
  have hinformed : ∀ {source receiver}, fabric.Informed source receiver →
      next.Informed source receiver := by
    refine hkeeps.informed fun {source forwarder receiver} hsource hmem => ?_
    rcases htakes.mem_or_eq hmem with heq | hmem
    · exact absurd heq (by simp [forwardTo])
    · exact .inr (.inr ⟨hkeeps.exists_node hsource, forwarder,
        List.mem_cons_of_mem _ (mem_queue_deliverTo hevent hmem)⟩)
  constructor
  · intro rank source' node hget hne hinput
    have hget' := (hafter rank).symm.trans hget
    split at hget'
    · rename_i hrank
      subst hrank
      obtain rfl := Option.some.inj hget'
      obtain ⟨known, hknown⟩ := Option.isSome_iff_exists.1 hinput
      rcases (learns_after site rfl).input hknown with hold | hrx
      · exact hinformed (h.input (node?_of_site hsite) hne (by rw [hold]; rfl))
      · exact absurd hrx (by simp)
    · exact hinformed (h.input ((htakes.node? _).symm.trans hget') hne hinput)
  · intro far' source' channel' hmem hne
    rcases List.mem_cons.1 hmem with heq | hmem
    · -- The second half of the transmit: the first half has just informed the source.
      obtain ⟨rfl, hcompleted⟩ := Parcel.delivery.inj heq
      obtain ⟨rfl, rfl⟩ : channel' = farChannel ∧ source' = source := by simpa using hcompleted
      exact htraced.informed_transmit htakes
    · rw [hqueue, List.mem_append] at hmem
      rcases hmem with hmem | hmem
      · exact hinformed (h.arrival (htakes.mem_queue hmem) hne)
      · exact absurd hmem arrival_notMem_parcels

theorem told_of_create (h : Created members request links fabric) : Told fabric := by
  constructor
  · intro rank source node hnode hne hinput
    obtain ⟨topology, -, hosts, rfl⟩ := h.node? hnode
    exact absurd hinput (by simp [Node.start, Ledger.input?, Ledger.entry, Ledger.get?,
      Ledger.empty, Connectivity.blank])
  · intro far source channel hmem hne
    exact absurd hmem (settled_of_create h _ _)

theorem Reachable.told {start : Fabric} (htraced : Traced cabling start) (htold : Told start)
    (h : Reachable start fabric) : Told fabric := by
  have hboth : Traced cabling fabric ∧ Told fabric := by
    refine @Reachable.invariant fabric start (fun fabric => Traced cabling fabric ∧ Told fabric)
      ⟨htraced, htold⟩ ?_ ?_ h
    · rintro fabric rest before behind target delivery ⟨hinv, htold⟩ htakes
      exact ⟨(hinv.deliverTo htakes).2, htold.deliverTo hinv htakes⟩
    · rintro fabric rest before behind source near far channel farChannel ⟨hinv, htold⟩ htakes
      exact ⟨(hinv.transmit htakes).2, htold.transmit hinv htakes⟩
  exact hboth.2

/-- A node to which the last hop of a route leads receives the data, unless it has failed. -/
theorem input?_of_route? (htraced : Traced cabling fabric) (hsettled : Settled fabric)
    (hfailed : ¬ fabric.AnyFailed) {node peer : Node} {route : Route}
    (hnode : fabric.node? source = some node) (hpeer : fabric.node? receiver = some peer)
    (hroute : node.ledger.route? receiver = some route) :
    (peer.ledger.input? source).isSome = true := by
  obtain ⟨-, hdestination, hchain⟩ := htraced.route hnode hroute
  have hlast : ∃ near, fabric.Feeds cabling source near receiver := by
    cases route with
    | direct origin destination =>
      obtain rfl : destination = receiver := hdestination
      exact ⟨origin, List.isChain_pair.1 hchain⟩
    | relayed base destination =>
      obtain rfl : destination = receiver := hdestination
      rw [Route.hops, List.isChain_append] at hchain
      exact ⟨base.destination, hchain.2.2 _ (by rw [Route.getLast?_hops]; rfl) _ rfl⟩
  obtain ⟨near, hfeeds⟩ := hlast
  obtain ⟨-, farChannel, -, -, other, hother, hreceived⟩ := hfeeds.dataPath hsettled
  obtain rfl := Option.some.inj (hpeer.symm.trans hother)
  rcases hreceived with hfailed' | hinput
  · exact absurd ⟨receiver, peer, hpeer, hfailed'⟩ hfailed
  · rw [hinput]
    rfl

/-- Whether the routes of every node lead exactly to the other nodes that have an input for it. -/
def RoutesMatchInputs (fabric : Fabric) : Prop :=
  ∀ {rank peer node other}, fabric.node? rank = some node → fabric.node? peer = some other →
    rank ≠ peer → ((node.ledger.route? peer).isSome = true ↔
      (other.ledger.input? rank).isSome = true)

/-- Whether every node has an input from every other member of its partition. -/
def InputsComplete (fabric : Fabric) : Prop :=
  ∀ {rank node source}, fabric.node? rank = some node → source ≠ rank →
    node.topology.hasMember source = true → node.topology.sharePartition rank source = true →
      (node.ledger.input? source).isSome = true

/-- Whether every node has a route to every other member of its partition. -/
def RoutesComplete (fabric : Fabric) : Prop :=
  ∀ {rank node peer}, fabric.node? rank = some node → peer ≠ rank →
    node.topology.hasMember peer = true → node.topology.sharePartition rank peer = true →
      (node.ledger.route? peer).isSome = true

/-- All nodes of a reachable state see the same members and partitions. -/
theorem Reachable.topology {start : Fabric} (hcreated : Created members request links start)
    (htraced : Traced cabling start) (h : Reachable start fabric) {rank : Rank} {node : Node}
    (hnode : fabric.node? rank = some node) :
    Topology.ofMembers members rank request = .ok node.topology := by
  have hkeeps := h.keeps htraced
  obtain ⟨first, hfirst⟩ := Option.isSome_iff_exists.1 (hkeeps.old hnode)
  obtain ⟨after, hafter, hgrows⟩ := hkeeps.node hfirst
  obtain rfl := Option.some.inj (hnode.symm.trans hafter)
  obtain ⟨topology, htopology, hosts, rfl⟩ := hcreated.node? hfirst
  rw [hgrows.topology]
  exact htopology

/-- In every reachable state with an empty queue and no failed node, a node has a route to another
one exactly if the other one has an input for it. So if the inputs are complete within all
partitions, the routes are. -/
theorem routes_iff_inputs_of_quiescent {start : Fabric} (hfits : Cabling.Fits links)
    (hcreate : create members request links = .ok start) (hreached : Reachable start fabric)
    (hqueue : fabric.queue = []) (hfailed : ¬ fabric.AnyFailed) :
    fabric.RoutesMatchInputs ∧ (fabric.InputsComplete → fabric.RoutesComplete) := by
  have hcreated := created_of_create hcreate
  have hstart := traced_of_create hfits hcreated
  have htraced := hreached.traced hstart
  have htold := hreached.told hstart (told_of_create hcreated)
  have hsettled := hreached.settled (settled_of_create hcreated)
  have hiff : fabric.RoutesMatchInputs := by
    intro rank peer node other hnode hother hne
    constructor
    · intro hroute
      obtain ⟨route, hroute⟩ := Option.isSome_iff_exists.1 hroute
      exact input?_of_route? htraced hsettled hfailed hnode hother hroute
    · intro hinput
      rcases htold.input hother hne hinput with
        hany | ⟨node', hnode', hroute⟩ | ⟨-, forwarder, hmem⟩
      · exact absurd hany hfailed
      · obtain rfl := Option.some.inj (hnode.symm.trans hnode')
        exact hroute
      · rw [hqueue] at hmem
        exact absurd hmem (by simp)
  refine ⟨hiff, fun hinputs {rank node peer} hnode hne hmember hpartition => ?_⟩
  obtain ⟨other, hother⟩ := Option.isSome_iff_exists.1 (htraced.member hnode hmember)
  rw [hiff hnode hother hne.symm]
  have htopology := hreached.topology hcreated hstart hnode
  have hrank : rank ∈ members.map (·.rank) := (Topology.hasMember_of_ofMembers htopology rank).1
    (by
      obtain ⟨table, profile, -, hlocal, -, hshape, -⟩ :=
        Topology.ofMembers_eq_ok_iff.1 htopology
      rw [hshape]
      exact hlocal)
  have hpeer : peer ∈ members.map (·.rank) :=
    (Topology.hasMember_of_ofMembers htopology peer).1 hmember
  have hseen := Topology.ofMembers_seenFrom htopology hpeer
  have hsame : other.topology = node.topology.seenFrom peer :=
    Except.ok.inj ((hreached.topology hcreated hstart hother).symm.trans hseen)
  apply hinputs hother hne.symm
  · rw [hsame]
    exact (Topology.hasMember_of_ofMembers hseen rank).2 hrank
  · rw [hsame]
    have hcomm : (node.topology.seenFrom peer).sharePartition peer rank =
        node.topology.sharePartition rank peer := Bool.beq_comm
    rw [hcomm]
    exact hpartition

theorem not_anyFailed_of_all (h : fabric.sites.values.all (!·.node.isFailed) = true) :
    ¬ fabric.AnyFailed := by
  rintro ⟨rank, node, hnode, hfailed⟩
  obtain ⟨site, hsite, rfl⟩ := exists_site_of_node? hnode
  have hmem : site ∈ fabric.sites.values :=
    List.mem_map.2 ⟨_, Table.get?_eq_some_iff.1 hsite, rfl⟩
  have hnot := List.all_eq_true.1 h site hmem
  simp [hfailed] at hnot

/-- Node 4 has a route over node 0 to node 3, where its data arrives on the channel to node 0. -/
theorem routes_iff_inputs_of_quiescent_star : ∃ start fabric sender receiver,
    create (Layout.members 8) .auto star = .ok start ∧ Reachable start fabric ∧
      fabric.queue = [] ∧ ¬ fabric.AnyFailed ∧ fabric.node? 4 = some sender ∧
        fabric.node? 3 = some receiver ∧
          sender.ledger.route? 3 = some (.relayed (.direct 4 0) 3) ∧
            receiver.ledger.input? 4 = some 0 ∧ fabric.RoutesMatchInputs ∧
              (fabric.InputsComplete → fabric.RoutesComplete) := by
  obtain ⟨start, fabric, sender, receiver, hcreate, hreached, hqueue, hworking, hsender, hreceiver,
    hroute, hinput⟩ := exists_drained_star
  have hfailed := not_anyFailed_of_all hworking
  exact ⟨start, fabric, sender, receiver, hcreate, hreached, hqueue, hfailed, hsender, hreceiver,
    hroute, hinput, routes_iff_inputs_of_quiescent (Cabling.fits_of_length (by decide)) hcreate
      hreached hqueue hfailed⟩

end MeshFormation.Fabric
