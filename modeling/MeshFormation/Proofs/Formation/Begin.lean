import MeshFormation.Proofs.Fabric.Surplus
import MeshFormation.Proofs.Formation.Runs
import Mathlib.Algebra.Group.Action.Defs
import Mathlib.Algebra.Order.BigOperators.Group.List

/-!
# The first state of an ensemble that forms

A node that was just created knows nothing, has asked for nothing, and expects as many connections
as its partition needs. The queue then holds one channel event for each end of a cable and one
network event for each link that a node asked for.
-/

namespace MeshFormation

namespace HypercubeForwarding

variable {topology : Topology} {ranks : List Rank}

theorem exists_hostnames (h : ∀ rank ∈ ranks,
    ((topology.member? rank).bind (·.hostname)).isSome = true) :
    ∃ hosts, hostnames topology ranks = .ok hosts := by
  induction ranks with
  | nil => exact ⟨[], rfl⟩
  | cons rank rest ih =>
    obtain ⟨hostname, hhostname⟩ := Option.isSome_iff_exists.1 (h rank List.mem_cons_self)
    obtain ⟨others, hothers⟩ := ih fun other hmem => h other (List.mem_cons_of_mem _ hmem)
    exact ⟨(rank, hostname) :: others, by rw [hostnames, hhostname, hothers]⟩

end HypercubeForwarding

namespace Blueprint

variable {b : Blueprint} {near : Rank} {router : Router} {node : Node} {forwarding : Forwarding}

/-- A router that has seen no event. -/
structure Begins (b : Blueprint) (near : Rank) (router : Router) : Prop where
  node : ∃ hosts : List (Rank × String), hosts.map Prod.fst = b.topology.counterparts near ∧
    router.node = { Node.start (b.topology.seenFrom near) (b.topology.seenFrom near).expected with
      journal := ⟨[], hosts.map fun link => .hostname link.2 link.1⟩ }
  profile : router.forwarding.profile = b.topology.profile
  partner : router.forwarding.crossPartner? = none
  hears : ∀ other, router.forwarding.hears other = false
  tells : ∀ other, router.forwarding.tells other = false
  ran : ∀ rule, router.forwarding.ran rule = false
  links : router.forwarding.links = ∅
  requestedLinks : ∀ peer, router.forwarding.requestedLinks.contains peer = true ↔
    peer ∈ b.topology.counterparts near

theorem begins_of_start (hprofile : b.topology.profile ≠ .pair)
    (h : Forwarding.start b.topology.profile (.start (b.topology.seenFrom near)
      (b.topology.seenFrom near).expected) = (node, .ok forwarding)) :
    b.Begins near ⟨node, forwarding⟩ := by
  cases hkind : b.topology.profile with
  | pair => exact absurd hkind hprofile
  | cube =>
    rw [hkind] at h
    obtain ⟨rfl, hok⟩ := Prod.mk.inj h
    obtain rfl := Except.ok.inj hok
    have hnone : b.topology.counterparts near = [] := by simp [Topology.counterparts, hkind]
    refine ⟨⟨[], hnone.symm, rfl⟩, hkind.symm, rfl, fun _ => rfl, fun _ => rfl, ?_, rfl, ?_⟩
    · intro rule
      cases rule <;> rfl
    · intro peer
      rw [hnone]
      simp [Forwarding.requestedLinks, Table.contains_eq_isSome]
  | hypercube =>
    rw [hkind, Forwarding.start, HypercubeForwarding.start] at h
    have hsame : (Node.start (b.topology.seenFrom near)
        (b.topology.seenFrom near).expected).topology.counterparts
          (Node.start (b.topology.seenFrom near) (b.topology.seenFrom near).expected).rank =
            b.topology.counterparts near := rfl
    rw [hsame] at h
    cases hhosts : HypercubeForwarding.hostnames (Node.start (b.topology.seenFrom near)
        (b.topology.seenFrom near).expected).topology (b.topology.counterparts near) with
    | error fault =>
      rw [hhosts] at h
      exact absurd (Prod.mk.inj h).2 (by simp)
    | ok hosts =>
      rw [hhosts] at h
      obtain ⟨rfl, hok⟩ := Prod.mk.inj h
      obtain rfl := Except.ok.inj hok
      have hranks := HypercubeForwarding.map_fst_hostnames hhosts
      refine ⟨⟨hosts, hranks, ?_⟩, hkind.symm, rfl, fun _ => rfl, fun _ => rfl, ?_, rfl, ?_⟩
      · rw [Forwarding.foldl_notify_hostname]
        rfl
      · intro rule
        cases rule <;> rfl
      · intro peer
        have hcontains := @HypercubeForwarding.contains_foldl_add hosts peer ∅
        rw [hranks] at hcontains
        simpa [Forwarding.requestedLinks, Table.contains_eq_isSome] using hcontains

namespace Begins

variable (h : b.Begins near router)
include h

theorem boundPeer? (channel : Channel) : router.node.boundPeer? channel = none := by
  obtain ⟨hosts, -, hnode⟩ := h.node
  rw [hnode]
  rfl

theorem input? (source : Rank) : router.node.ledger.input? source = none := by
  obtain ⟨hosts, -, hnode⟩ := h.node
  rw [hnode]
  rfl

theorem reaches (peer : Rank) : router.node.ledger.reaches peer = false := by
  obtain ⟨hosts, -, hnode⟩ := h.node
  rw [hnode]
  rfl

theorem requests : router.node.journal.requests = [] := by
  obtain ⟨hosts, -, hnode⟩ := h.node
  rw [hnode]
  rfl

theorem expected : router.node.progress.expected = (b.topology.seenFrom near).expected := by
  obtain ⟨hosts, -, hnode⟩ := h.node
  rw [hnode]
  rfl

theorem readySignals : router.node.journal.readySignals = 0 := by
  obtain ⟨hosts, -, hnode⟩ := h.node
  rw [hnode, Journal.readySignals, List.count_eq_zero]
  simp

theorem limit (hprofile : b.topology.profile ≠ .pair) :
    router.node.progress.expected.tx = router.forwarding.limit := by
  have hkind := h.profile
  rw [h.expected, Forwarding.limit, h.partner]
  cases hprofile' : b.topology.profile with
  | pair => exact absurd hprofile' hprofile
  | cube =>
    rw [hprofile'] at hkind
    simp [hkind, Topology.expected, Topology.transmitCount, Topology.seenFrom,
      hprofile', chassisSize]
  | hypercube =>
    rw [hprofile'] at hkind
    simp [hkind, Topology.expected, Topology.transmitCount, Topology.seenFrom, hprofile',
      partitionSize]

theorem receiveCount (hvalid : b.Valid) (hmember : b.topology.hasMember near = true) :
    router.node.progress.expected.rx = 7 ∧ (b.topology.peers near).length = 7 := by
  refine ⟨?_, (hvalid.balanced hmember).length_peers hmember⟩
  rw [h.expected]
  cases hkind : b.topology.profile with
  | pair => exact absurd hkind hvalid.profile
  | cube => simp [Topology.expected, Topology.receiveCount, Topology.seenFrom, hkind, partitionSize]
  | hypercube =>
    simp [Topology.expected, Topology.receiveCount, Topology.seenFrom, hkind, partitionSize]

theorem consistent : b.Consistent near router.node router.forwarding := by
  constructor
  case topology =>
    obtain ⟨hosts, -, hnode⟩ := h.node
    rw [hnode]
    rfl
  case profile => exact h.profile
  case joined =>
    intro channel far hbound
    rw [h.boundPeer?] at hbound
    exact absurd hbound (by simp)
  case once =>
    intro channel other far hbound
    rw [h.boundPeer?] at hbound
    exact absurd hbound (by simp)
  case input =>
    intro source channel hinput
    rw [h.input?] at hinput
    exact absurd hinput (by simp)
  case reached =>
    intro far hreaches
    rw [h.reaches] at hreaches
    exact absurd hreaches (by simp)
  case partner =>
    intro partner
    simp [h.partner, h.boundPeer?]
  case heard =>
    intro other hheard
    rw [h.hears] at hheard
    exact absurd hheard (by simp)

theorem network : router.node.progress.expected.network +
    (b.topology.counterparts near).countP router.forwarding.links.contains =
      (b.topology.counterparts near).length := by
  have hnetwork : router.node.progress.expected.network =
      (b.topology.counterparts near).length := by
    rw [h.expected]
    rfl
  have hlinks : (b.topology.counterparts near).countP router.forwarding.links.contains = 0 := by
    rw [List.countP_eq_zero, h.links]
    simp [Table.contains_eq_isSome]
  omega

/-- A node is at rest before its first event. -/
theorem rested (hvalid : b.Valid) (hmember : b.topology.hasMember near = true) :
    b.Rested near router := by
  obtain ⟨hosts, hranks, hnode⟩ := h.node
  obtain ⟨hrx, hpeers⟩ := h.receiveCount hvalid hmember
  have hopen : router.node.progress.expected.meshDone = false := by
    rw [Expected.meshDone, hrx]
    rfl
  have hphase : router.node.progress.phase = .forming := by rw [hnode]; rfl
  have hlocked : router.node.progress.locked = false := by rw [hnode]; rfl
  constructor
  case toSteady =>
    constructor
    case toConsistent => exact h.consistent
    case lost => rw [hnode]; exact fun _ => rfl
    case working => rw [Node.isFailed, Progress.isFailed, hphase]; rfl
    case nodup => rw [h.requests]; exact .nil
    case asked => simp [h.requests, h.boundPeer?]
    case ran =>
      intro rule hran
      rw [h.ran] at hran
      exact absurd hran (by simp)
    case tells => simp [h.tells, h.reaches]
    case receive => simp [h.input?, hrx, hpeers]
    case transmit => exact (h.limit hvalid.profile).le
    case wanted => exact h.requestedLinks
    case network => exact h.network
    case locked => simp [hlocked]
    case ready => simp [hphase]
    case locks => rw [hnode]; rfl
    case signals => simp [h.readySignals, hphase]
  case complete => simp [hopen]
  case signalled => simp [Expected.allDone, hopen]
  case due =>
    intro rule _ hdue
    obtain ⟨partner, hpartner, -⟩ := hdue.partner
    rw [h.partner] at hpartner
    exact absurd hpartner (by simp)

end Begins

end Blueprint

namespace Fabric

variable {members : List Member} {request : ProfileRequest} {links : List Link} {fabric : Fabric}
  {topology : Topology} {localRank near : Rank} {site : Site} {event : NetworkEvent}

theorem chassis?_statedChassis (h : Topology.ofMembers members localRank request = .ok topology)
    (hmember : topology.hasMember near = true) :
    topology.chassis? near = some (statedChassis members near) := by
  have hfind := Topology.member?_of_ofMembers h near
  obtain ⟨name, hname⟩ := Topology.exists_chassis?_iff.2 hmember
  rw [Topology.chassis?, hfind] at hname ⊢
  obtain ⟨member, hmember', rfl⟩ := Option.map_eq_some_iff.1 hname
  rw [statedChassis, hmember']
  rfl

theorem mem_networkLinks_iff {sites : Table Site} :
    .delivery near (.network event) ∈ networkLinks sites ↔ ∃ site, sites.get? near = some site ∧
      event.connected = true ∧
        ∃ name, (name, event.peer) ∈ site.service.journal.hostnames := by
  rw [networkLinks, List.mem_flatMap]
  constructor
  · rintro ⟨⟨rank, site⟩, hrow, hmem⟩
    obtain ⟨⟨name, peer⟩, hhost, heq⟩ := List.mem_map.1 hmem
    obtain ⟨rfl, hevent⟩ := Parcel.delivery.inj heq
    obtain rfl := Delivery.network.inj hevent
    exact ⟨site, Table.get?_eq_some_iff.2 hrow, rfl, name, hhost⟩
  · rintro ⟨site, hsite, hconnected, name, hhost⟩
    refine ⟨(near, site), Table.get?_eq_some_iff.1 hsite,
      List.mem_map.2 ⟨(name, event.peer), hhost, ?_⟩⟩
    obtain ⟨peer, connected⟩ := event
    obtain rfl : connected = true := hconnected
    rfl

/-- Only network events stand behind the channel events. -/
theorem of_mem_networkLinks {sites : Table Site} {entry : Parcel}
    (h : entry ∈ networkLinks sites) :
    ∃ rank event, entry = .delivery rank (.network event) := by
  obtain ⟨⟨rank, site⟩, -, hmem⟩ := List.mem_flatMap.1 h
  obtain ⟨⟨name, peer⟩, -, rfl⟩ := List.mem_map.1 hmem
  exact ⟨rank, _, rfl⟩

end Fabric

namespace Blueprint.Begins

variable {b : Blueprint} {near peer : Rank} {router : Router}

theorem hostnames_iff (h : b.Begins near router) :
    (∃ name, (name, peer) ∈ router.node.journal.hostnames) ↔
      peer ∈ b.topology.counterparts near := by
  obtain ⟨hosts, hranks, hnode⟩ := h.node
  rw [hnode, Journal.hostnames, List.filterMap_map, ← hranks, List.mem_map]
  constructor
  · rintro ⟨name, hmem⟩
    obtain ⟨host, hhost, heq⟩ := List.mem_filterMap.1 hmem
    obtain ⟨rfl, rfl⟩ := Prod.mk.inj (Option.some.inj heq)
    exact ⟨host, hhost, rfl⟩
  · rintro ⟨host, hhost, rfl⟩
    exact ⟨host.2, List.mem_filterMap.2 ⟨host, hhost, rfl⟩⟩

theorem length_hostnames_le (h : b.Begins near router) :
    router.node.journal.hostnames.length ≤ b.topology.ranks.length := by
  obtain ⟨hosts, hranks, hnode⟩ := h.node
  have hcounterparts : (b.topology.counterparts near).length ≤ b.topology.ranks.length := by
    rw [Topology.counterparts]
    split
    · exact List.length_filter_le _ _
    · exact Nat.zero_le _
  rw [← hranks, List.length_map] at hcounterparts
  rw [hnode, Journal.hostnames]
  refine Nat.le_trans (List.length_filterMap_le _ _) ?_
  rw [List.length_map]
  exact hcounterparts

end Blueprint.Begins

namespace Fabric

variable {members : List Member} {request : ProfileRequest} {links : List Link} {fabric : Fabric}
  {topology : Topology} {localRank near : Rank} {site : Site}

/-- An errand of the part in use is any but the discovery of an unused channel. -/
theorem mem_errands_inUse {used : Rank → Channel → Bool} {errand : Errand} :
    errand ∈ (fabric.inUse used).errands ↔ errand ∈ fabric.errands ∧
      ∀ node channel, errand = .discovery node channel → used node channel = true := by
  have hparcel : ∀ {parcel : Parcel}, parcel.errand? = some errand →
      (parcel.inUse used = true ↔
        ∀ node channel, errand = .discovery node channel → used node channel = true) := by
    intro parcel herrand
    unfold Parcel.errand? at herrand
    split at herrand
    · obtain rfl := Option.some.inj herrand
      exact ⟨by rintro hused _ _ ⟨⟩; exact hused, fun hall => hall _ _ rfl⟩
    · obtain rfl := Option.some.inj herrand
      simp [Parcel.inUse]
    · obtain rfl := Option.some.inj herrand
      simp [Parcel.inUse]
    · exact absurd herrand (by simp)
  rw [errands, errands, List.mem_filterMap, List.mem_filterMap]
  constructor
  · rintro ⟨parcel, hmem, herrand⟩
    obtain ⟨hmem, hused⟩ := mem_queue_inUse.1 hmem
    exact ⟨⟨parcel, hmem, herrand⟩, (hparcel herrand).1 hused⟩
  · rintro ⟨⟨parcel, hmem, herrand⟩, hused⟩
    exact ⟨parcel, mem_queue_inUse.2 ⟨hmem, (hparcel herrand).2 hused⟩, herrand⟩

section Created

section Nodes

variable {b : Blueprint} (hvalid : b.Valid)
  (htopology : Topology.ofMembers members localRank request = .ok b.topology)
  (h : Created members request links fabric)
include hvalid htopology h

theorem Created.begins (hsite : fabric.sites.get? near = some site) :
    b.Begins near site.service.router ∧ b.topology.hasMember near = true := by
  have hrank := h.rank_mem hsite
  obtain ⟨seen, forwarding, node, hseen, hstart, rfl⟩ := startSite_eq_ok (h.startSite hsite)
  obtain rfl := Except.ok.inj (hseen.symm.trans (Topology.ofMembers_seenFrom htopology hrank))
  exact ⟨Blueprint.begins_of_start hvalid.profile hstart,
    (Topology.hasMember_of_ofMembers htopology near).2 hrank⟩

omit hvalid htopology in
/-- What the queue holds at first. -/
theorem Created.queue_cases {entry : Parcel} (hmem : entry ∈ fabric.queue) :
    (∃ cableEnd ∈ Cabling.ends links, entry = discovery members cableEnd) ∨
      ∃ rank event, entry = .delivery rank (.network event) ∧
        entry ∈ networkLinks fabric.sites := by
  rw [h.queue, List.mem_append, List.mem_map] at hmem
  rcases hmem with ⟨cableEnd, hend, rfl⟩ | hlink
  · exact .inl ⟨cableEnd, hend, rfl⟩
  · obtain ⟨rank, event, rfl⟩ := of_mem_networkLinks hlink
    exact .inr ⟨rank, event, rfl, hlink⟩

omit hvalid htopology in
/-- No node has sent a message yet. -/
theorem Created.control_notMem_queue {receiver : Rank} {payload : Payload} :
    .delivery receiver (.control payload) ∉ fabric.queue := by
  intro hmem
  rcases h.queue_cases hmem with ⟨_, -, heq⟩ | ⟨_, _, heq, -⟩
  · exact absurd heq (by simp [discovery])
  · exact absurd heq (by simp)

omit hvalid htopology in
theorem Created.errands : fabric.errands =
    (Cabling.ends links).map fun cableEnd => .discovery cableEnd.node cableEnd.channel := by
  have hlinks : (networkLinks fabric.sites).filterMap Parcel.errand? = [] := by
    rw [List.filterMap_eq_nil_iff]
    intro entry hmem
    obtain ⟨rank, event, rfl⟩ := of_mem_networkLinks hmem
    rfl
  rw [Fabric.errands, h.queue, List.filterMap_append, hlinks, List.append_nil, List.filterMap_map]
  exact congrFun (@List.filterMap_eq_map CableEnd Errand fun cableEnd =>
    .discovery cableEnd.node cableEnd.channel) _

theorem Created.not_done (errand : Errand) : ¬ Done fabric errand := by
  have hnone : ∀ {rank node}, fabric.node? rank = some node →
      (∀ channel, node.boundPeer? channel = none) ∧ ∀ source, node.ledger.input? source = none := by
    intro rank node hnode
    obtain ⟨site, hsite, rfl⟩ := exists_site_of_node? hnode
    obtain ⟨hbegins, -⟩ := h.begins hvalid htopology hsite
    exact ⟨hbegins.boundPeer?, hbegins.input?⟩
  cases errand with
  | discovery node channel =>
    rintro ⟨state, peer, hstate, hbound⟩
    rw [(hnone hstate).1] at hbound
    exact absurd hbound (by simp)
  | flow source far =>
    rintro ⟨state, hstate, hinput⟩
    rw [(hnone hstate).2] at hinput
    exact absurd hinput (by simp)

theorem Created.not_asked {source : Rank} {channel : Channel} :
    ¬ fabric.Asked near source channel := by
  rintro ⟨node, hnode, hasked⟩
  obtain ⟨site, hsite, rfl⟩ := exists_site_of_node? hnode
  obtain ⟨hbegins, -⟩ := h.begins hvalid htopology hsite
  have hmem : (source, channel) ∈ site.service.router.node.journal.requests :=
    Journal.mem_requests_iff.2 hasked
  rw [hbegins.requests] at hmem
  exact absurd hmem (by simp)

theorem Created.length_networkLinks_le : (networkLinks fabric.sites).length ≤ 1024 := by
  have hranks := hvalid.length_ranks_le
  have hkeys : fabric.sites.keys ⊆ b.topology.ranks := by
    intro rank hmem
    rw [Table.mem_keys_iff, Table.contains_eq_isSome] at hmem
    obtain ⟨site, hsite⟩ := Option.isSome_iff_exists.1 hmem
    exact Topology.mem_ranks_iff.2 (h.begins hvalid htopology hsite).2
  have hrows : fabric.sites.rows.length ≤ 32 := by
    have hnodup := (Table.pairwise_keys fabric.sites).imp UInt32.ne_of_lt
    have hlength := (List.subperm_of_subset hnodup hkeys).length_le
    rw [Table.length_keys] at hlength
    exact Nat.le_trans hlength hranks
  have heach : ∀ amount ∈ fabric.sites.rows.map fun row =>
      (row.2.service.journal.hostnames.map fun host =>
        Parcel.delivery row.1 (.network ⟨host.2, true⟩)).length, amount ≤ 32 := by
    intro amount hmem
    obtain ⟨⟨rank, site⟩, hrow, rfl⟩ := List.mem_map.1 hmem
    obtain ⟨hbegins, -⟩ := h.begins hvalid htopology (Table.get?_eq_some_iff.2 hrow)
    rw [List.length_map]
    exact Nat.le_trans hbegins.length_hostnames_le hranks
  have hsum := List.sum_le_card_nsmul _ 32 heach
  rw [List.length_map, smul_eq_mul] at hsum
  rw [networkLinks, List.length_flatMap]
  exact Nat.le_trans hsum (Nat.mul_le_mul_right 32 hrows)

end Nodes

/-- The channel events stand in front. -/
theorem Created.front (h : Created members request links fabric) :
    fabric.queue.Pairwise fun first second =>
      second.isDiscovery = true → first.isDiscovery = true := by
  rw [h.queue, List.pairwise_append]
  refine ⟨?_, ?_, ?_⟩
  · refine List.pairwise_of_forall_mem_list fun first hfirst second _ _ => ?_
    obtain ⟨cableEnd, -, rfl⟩ := List.mem_map.1 hfirst
    rfl
  · refine List.pairwise_of_forall_mem_list fun first _ second hsecond hdiscovery => ?_
    obtain ⟨rank, event, rfl⟩ := of_mem_networkLinks hsecond
    exact absurd hdiscovery (by simp [Parcel.isDiscovery])
  · intro first hfirst second _ _
    obtain ⟨cableEnd, -, rfl⟩ := List.mem_map.1 hfirst
    rfl

section Forming

variable {b : Installation} (hvalid : b.Valid)
  (htopology : Topology.ofMembers members localRank request = .ok b.topology)
  (hcabling : b.cabling = .ofLinks links) (hfits : Cabling.Fits links)
  (h : Created members request links fabric)
include hvalid htopology hcabling hfits h

omit htopology h in
/-- No cable leads from a node back to it. -/
theorem ne_of_mem_links {link : Link} (hmem : link ∈ links) : link.1 ≠ link.2 := by
  obtain ⟨⟨channel, far, hcable⟩, -⟩ :=
    Cabling.exists_farEnd?_of_mem Cabling.sound_empty hfits.room hmem
  have hjoined : b.Joined link.1 link.2 := by
    apply b.joined
    rw [hcabling]
    exact hcable
  exact (hvalid.of_joined hjoined).1

theorem Created.agenda : Agenda (fabric.inUse b.used).errands (Raised b (fabric.inUse b.used))
    (Done (fabric.inUse b.used)) := by
  constructor
  case nodup =>
    have hnodup := Cabling.nodup_endsFrom Cabling.sound_empty hfits.room fun _ hmem =>
      ne_of_mem_links hvalid hcabling hfits hmem
    have herrands : fabric.errands.Nodup := by
      rw [h.errands]
      rw [List.Nodup, List.pairwise_map] at hnodup ⊢
      refine hnodup.imp fun {one other} hne heq => hne ?_
      obtain ⟨hnode, hchannel⟩ := Errand.discovery.inj heq
      rw [hnode, hchannel]
    exact herrands.sublist (List.filter_sublist.filterMap _)
  case raised =>
    intro errand
    rw [mem_errands_inUse, h.errands, List.mem_map]
    constructor
    · intro hraised
      cases errand with
      | discovery node channel =>
        obtain ⟨⟨peer, far, hcable⟩, hused⟩ := hraised
        rw [hcabling] at hcable
        refine .inl ⟨⟨⟨node, channel, peer⟩, (Cabling.mem_ends_iff hfits).2 ⟨far, hcable⟩, rfl⟩, ?_⟩
        rintro _ _ ⟨⟩
        exact hused
      | flow source far =>
        obtain ⟨near, channel, farChannel, hasked, -⟩ := hraised
        exact absurd hasked (h.not_asked hvalid htopology)
    · rintro (⟨⟨cableEnd, hend, rfl⟩, hused⟩ | hdone)
      · obtain ⟨far, hcable⟩ := (Cabling.mem_ends_iff hfits).1 hend
        rw [← hcabling] at hcable
        exact ⟨⟨cableEnd.peer, far, hcable⟩, hused _ _ rfl⟩
      · exact absurd hdone (h.not_done hvalid htopology errand)
  case undone => exact fun errand _ => h.not_done hvalid htopology errand

omit hvalid in
/-- The channel events that wait at first state the chassis of the node across the cable. -/
theorem Created.stated (hjoined : ∀ {near far}, b.Joined near far → b.topology.hasMember far = true)
    {node : Rank} {event : ChannelEvent}
    (hmem : .delivery node (.channel event) ∈ fabric.queue) :
    b.topology.chassis? event.peer = some event.chassis := by
  rcases h.queue_cases hmem with ⟨cableEnd, hend, heq⟩ | ⟨_, _, heq, -⟩
  · obtain ⟨rfl, hevent⟩ := Parcel.delivery.inj heq
    obtain rfl := Delivery.channel.inj hevent
    obtain ⟨far, hcable⟩ := (Cabling.mem_ends_iff hfits).1 hend
    rw [← hcabling] at hcable
    exact chassis?_statedChassis htopology (hjoined (b.joined hcable))
  · exact absurd heq (by simp)

/-- An ensemble that was just created forms, as far as its cables are used. -/
theorem Created.forming_inUse : Forming b (fabric.inUse b.used) where
  traced := by
    rw [hcabling]
    exact (traced_of_create hfits h).inUse
  told := (told_of_create h).inUse
  member := by
    intro rank
    rw [node?_inUse, h.isSome_node?_iff, Topology.hasMember_of_ofMembers htopology]
  rested := by
    intro near site hsite
    obtain ⟨hbegins, hmember⟩ := h.begins hvalid htopology hsite
    exact hbegins.rested hvalid hmember
  errors := h.errors
  known := by
    intro node channel
    rw [mem_known_inUse, h.known]
    constructor
    · rintro ⟨hmem, -⟩
      exact absurd hmem (by simp)
    · exact fun hdone => absurd hdone (h.not_done hvalid htopology (.discovery node channel))
  agenda := h.agenda hvalid htopology hcabling hfits
  arrives := fun hmem => absurd (arrival_mem_inUse.1 hmem) (settled_of_create h _ _)
  departs := by
    intro near site hsite
    obtain ⟨hbegins, hmember⟩ := h.begins hvalid htopology hsite
    have hcount : (fabric.inUse b.used).queue.countP (isTransmitFrom near) = 0 := by
      rw [List.countP_eq_zero]
      intro entry hmem
      rcases h.queue_cases (mem_queue_inUse.1 hmem).1 with ⟨cableEnd, -, rfl⟩ |
        ⟨rank, event, rfl, -⟩
      · simp [discovery, isTransmitFrom]
      · simp [isTransmitFrom]
    have hlimit := hbegins.limit hvalid.profile
    have hrequests : site.node.journal.requests = [] := hbegins.requests
    rw [hcount, hrequests]
    exact hlimit
  stated := fun hmem => h.stated htopology hcabling hfits
    (fun hjoined => (hvalid.of_joined hjoined).2.2.1) (mem_queue_inUse.1 hmem).1
  prepared := by
    have hnone : Prepared fabric.Routed [] := trivial
    exact hnone.append fun hmem => absurd (mem_queue_inUse.1 hmem).1 h.control_notMem_queue
  announced := fun hmem => absurd (mem_queue_inUse.1 hmem).1 h.control_notMem_queue
  heard := by
    intro near site receiver hsite htells
    obtain ⟨hbegins, -⟩ := h.begins hvalid htopology hsite
    rw [hbegins.tells] at htells
    exact absurd htells (by simp)
  encoded := fun hmem => absurd (mem_queue_inUse.1 hmem).1 h.control_notMem_queue
  wanted := by
    intro near event hmem
    rcases h.queue_cases (mem_queue_inUse.1 hmem).1 with ⟨_, -, heq⟩ | ⟨_, _, -, hlink⟩
    · exact absurd heq (by simp [discovery])
    · obtain ⟨site, hsite, hconnected, hhost⟩ := mem_networkLinks_iff.1 hlink
      obtain ⟨hbegins, hmember⟩ := h.begins hvalid htopology hsite
      have hwanted := hbegins.hostnames_iff.1 hhost
      refine ⟨?_, hmember, hconnected, hwanted⟩
      cases hkind : b.topology.profile with
      | hypercube => rfl
      | pair => exact absurd hkind hvalid.profile
      | cube => exact absurd hwanted (by simp [Topology.counterparts, hkind])
  linked := by
    intro near site peer hsite hwanted
    obtain ⟨hbegins, -⟩ := h.begins hvalid htopology hsite
    right
    refine ⟨⟨peer, true⟩, rfl, ?_⟩
    rw [mem_queue_inUse, h.queue, List.mem_append]
    exact ⟨.inr (mem_networkLinks_iff.2 ⟨site, hsite, rfl, hbegins.hostnames_iff.2 hwanted⟩), rfl⟩
  live := by
    intro near site peer hsite hlive
    obtain ⟨hbegins, -⟩ := h.begins hvalid htopology hsite
    rw [hbegins.links] at hlive
    exact absurd hlive (by simp [Table.contains_eq_isSome])

end Forming

variable (htopology : Topology.ofMembers members localRank request = .ok topology)
  (hvalid : Blueprint.Valid ⟨topology, links⟩) (h : Created members request links fabric)
include htopology hvalid h

/-- An ensemble that was just created forms. -/
theorem Created.forming : Forming hvalid.installation fabric := by
  have hforming := h.forming_inUse (b := hvalid.installation) hvalid htopology rfl hvalid.fits
  rwa [inUse_all] at hforming

/-- All that is left to do stays below the limit of a run. -/
theorem Created.effort_le : fabric.effort ⟨topology, links⟩ ≤ deliveryLimit := by
  have hlinks := hvalid.length_links_le
  have hnetwork := h.length_networkLinks_le hvalid htopology
  have hranks := hvalid.length_ranks_le
  have hdiscoveries : (((Cabling.ends links).map (discovery members)).map Parcel.cost).sum =
      2 * links.length * 8 := by
    rw [List.map_map, ← Cabling.length_ends, ← List.length_map (Parcel.cost ∘ discovery members)]
    refine List.sum_eq_card_nsmul _ 8 fun cost hcost => ?_
    obtain ⟨cableEnd, -, rfl⟩ := List.mem_map.1 hcost
    rfl
  have hhosts : ((networkLinks fabric.sites).map Parcel.cost).sum =
      (networkLinks fabric.sites).length * 1 := by
    rw [← List.length_map Parcel.cost]
    refine List.sum_eq_card_nsmul _ 1 fun cost hcost => ?_
    obtain ⟨entry, hmem, rfl⟩ := List.mem_map.1 hcost
    obtain ⟨rank, event, rfl⟩ := of_mem_networkLinks hmem
    rfl
  have hspare : (topology.ranks.map fabric.spareAt).sum ≤ topology.ranks.length * requestLimit := by
    have hsum := List.sum_le_card_nsmul (topology.ranks.map fabric.spareAt) requestLimit ?_
    · rwa [List.length_map, smul_eq_mul] at hsum
    · intro amount hmem
      obtain ⟨rank, -, rfl⟩ := List.mem_map.1 hmem
      exact Nat.sub_le _ _
  rw [effort, h.queue, Parcel.sum_cost_append, hdiscoveries, hhosts]
  simp only [requestLimit] at hspare
  simp only [deliveryLimit] at *
  omega

end Created

/-- A fabric can be created if the counterparts of every node have hostnames. -/
theorem exists_create (htopology : Topology.ofMembers members localRank request = .ok topology)
    (hhosts : ∀ {near peer}, topology.hasMember near = true → peer ∈ topology.counterparts near →
      ((topology.member? peer).bind (·.hostname)).isSome = true) :
    ∃ fabric, create members request links = .ok fabric := by
  have hsites : ∀ member ∈ members,
      ∃ site, startSite members request (.ofLinks links) member.rank = .ok site := by
    intro member hmem
    have hrank : member.rank ∈ members.map (·.rank) := List.mem_map.2 ⟨member, hmem, rfl⟩
    have hmember := (Topology.hasMember_of_ofMembers htopology member.rank).2 hrank
    obtain ⟨hosts, hnames⟩ := @HypercubeForwarding.exists_hostnames
      (topology.seenFrom member.rank) (topology.counterparts member.rank)
        fun peer hpeer => hhosts hmember hpeer
    have hstart : ∃ node forwarding, Forwarding.start topology.profile
        (.start (topology.seenFrom member.rank) (topology.seenFrom member.rank).expected) =
          (node, .ok forwarding) := by
      cases topology.profile with
      | pair => exact ⟨_, _, rfl⟩
      | cube => exact ⟨_, _, rfl⟩
      | hypercube =>
        rw [Forwarding.start, HypercubeForwarding.start]
        have hsame : HypercubeForwarding.hostnames (Node.start (topology.seenFrom member.rank)
            (topology.seenFrom member.rank).expected).topology ((Node.start
              (topology.seenFrom member.rank)
                (topology.seenFrom member.rank).expected).topology.counterparts
                  (Node.start (topology.seenFrom member.rank)
                    (topology.seenFrom member.rank).expected).rank) = .ok hosts := hnames
        rw [hsame]
        exact ⟨_, _, rfl⟩
    obtain ⟨node, forwarding, hstart⟩ := hstart
    refine ⟨⟨⟨⟨node, forwarding⟩⟩, (Cabling.ofLinks links).wiringOf member.rank⟩, ?_⟩
    rw [startSite, Topology.ofMembers_seenFrom htopology hrank]
    dsimp only
    rw [Service.create, Router.create, if_neg (not_not_intro rfl)]
    have hprofile : (topology.seenFrom member.rank).profile = topology.profile := rfl
    rw [hprofile, hstart]
    rfl
  obtain ⟨sites, hok⟩ := @addSites_isOk members members request (.ofLinks links) ∅ hsites
  exact ⟨_, by rw [create, hok]⟩

end Fabric

end MeshFormation
