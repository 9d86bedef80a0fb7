import MeshFormation.Proofs.Formation.Charges
import MeshFormation.Proofs.Topology.Structure

/-!
# The seat of an outer node

An outer node of a cube sees the other seven members in fixed parts. Its chassis holds the other
outer node, its fellow, and two inner nodes. Across the link sits its partner, next to the partner
of its fellow and two inner nodes. The links between these fix what the node is to send: eleven
transmits, of which the last two are of that inner node across the link that its fellow does not
relay.
-/

namespace MeshFormation

/-- The other members of a cube as its local node, an outer one, sees them, with the channels on
which it finds those that it is linked to. -/
structure OuterSeat (topology : Topology) where
  fellow : Rank
  first : Rank
  second : Rank
  partner : Rank
  /-- The partner of the fellow. -/
  across : Rank
  left : Rank
  right : Rank
  channel : Rank → Channel
  cube : topology.profile = .cube
  mates : (topology.chassisMates topology.localRank).Perm [fellow, first, second]
  members : topology.ranks.Perm
    [topology.localRank, fellow, first, second, partner, across, left, right]
  distinct : ([fellow, first, second, partner].map channel).Nodup

namespace OuterSeat

variable {topology : Topology} (seat : OuterSeat topology)

/-- The members to which the node is linked. -/
def peers : List Rank := [seat.fellow, seat.first, seat.second, seat.partner]

def links : List Link :=
  [(topology.localRank, seat.fellow), (topology.localRank, seat.first),
    (topology.localRank, seat.second), (topology.localRank, seat.partner),
    (seat.fellow, seat.across)]

def blueprint : Blueprint := ⟨topology, seat.links⟩

def lower : Rank := if seat.left < seat.right then seat.left else seat.right

def higher : Rank := if seat.left < seat.right then seat.right else seat.left

/-- The inner node across the link that the local node relays. -/
def relayed : Rank := if topology.localRank < seat.fellow then seat.higher else seat.lower

/-- The data that the node receives, with the peer from which it comes. -/
def inputs : List (Rank × Rank) :=
  seat.peers.map (fun peer => (peer, peer)) ++
    [(seat.across, seat.fellow), (seat.left, seat.partner), (seat.right, seat.partner)]

/-- The data that the node sends, with the receiver: its own to all peers, that of its partner to
its chassis, that of the inner nodes to its partner, and that of one inner node across the link to
the inner nodes. -/
def duties : List (Rank × Rank) :=
  seat.peers.map (fun peer => (topology.localRank, peer)) ++
    [seat.fellow, seat.first, seat.second].map (fun mate => (seat.partner, mate)) ++
      [seat.first, seat.second].map (fun inner => (inner, seat.partner)) ++
        [seat.first, seat.second].map fun inner => (seat.relayed, inner)

/-! ## The two chassis -/

theorem nodup_members :
    [topology.localRank, seat.fellow, seat.first, seat.second, seat.partner, seat.across, seat.left,
      seat.right].Nodup :=
  seat.members.nodup_iff.1 topology.nodup_ranks

/-- The members differ pair by pair. -/
theorem members_ne :
    (topology.localRank ≠ seat.fellow ∧ topology.localRank ≠ seat.first ∧
      topology.localRank ≠ seat.second ∧ topology.localRank ≠ seat.partner ∧
      topology.localRank ≠ seat.across ∧ topology.localRank ≠ seat.left ∧
      topology.localRank ≠ seat.right) ∧
    (seat.fellow ≠ seat.first ∧ seat.fellow ≠ seat.second ∧ seat.fellow ≠ seat.partner ∧
      seat.fellow ≠ seat.across ∧ seat.fellow ≠ seat.left ∧ seat.fellow ≠ seat.right) ∧
    (seat.first ≠ seat.second ∧ seat.first ≠ seat.partner ∧ seat.first ≠ seat.across ∧
      seat.first ≠ seat.left ∧ seat.first ≠ seat.right) ∧
    (seat.second ≠ seat.partner ∧ seat.second ≠ seat.across ∧ seat.second ≠ seat.left ∧
      seat.second ≠ seat.right) ∧
    (seat.partner ≠ seat.across ∧ seat.partner ≠ seat.left ∧ seat.partner ≠ seat.right) ∧
    (seat.across ≠ seat.left ∧ seat.across ≠ seat.right) ∧
    seat.left ≠ seat.right := by
  simpa [not_or] using seat.nodup_members

theorem hasMember_iff {rank : Rank} : topology.hasMember rank = true ↔
    rank ∈ [topology.localRank, seat.fellow, seat.first, seat.second, seat.partner, seat.across,
      seat.left, seat.right] := by
  rw [← Topology.mem_ranks_iff, seat.members.mem_iff]

include seat in
theorem hasMember_localRank : topology.hasMember topology.localRank = true :=
  seat.hasMember_iff.2 List.mem_cons_self

theorem mem_mates_iff {rank : Rank} : rank ∈ topology.chassisMates topology.localRank ↔
    rank = seat.fellow ∨ rank = seat.first ∨ rank = seat.second := by
  simp [seat.mates.mem_iff]

theorem shareChassis_of_mate {rank : Rank}
    (h : rank = seat.fellow ∨ rank = seat.first ∨ rank = seat.second) :
    topology.shareChassis topology.localRank rank = true :=
  (Topology.mem_chassisMates_iff.1 (seat.mem_mates_iff.2 h)).2

theorem shareChassis_of_opposite {rank : Rank}
    (h : rank ∈ [seat.partner, seat.across, seat.left, seat.right]) :
    topology.shareChassis topology.localRank rank = false := by
  have hapart := (List.nodup_append.1
    (show ([topology.localRank, seat.fellow, seat.first, seat.second] ++
      [seat.partner, seat.across, seat.left, seat.right]).Nodup from seat.nodup_members)).2.2
  rw [Bool.eq_false_iff]
  intro hshare
  have hne : rank ≠ topology.localRank := (hapart _ List.mem_cons_self _ h).symm
  have hmate := seat.mem_mates_iff.1 (Topology.mem_chassisMates_iff.2 ⟨hne, hshare⟩)
  exact absurd rfl (hapart rank (by simpa using .inr hmate) rank h)

theorem shareChassis_fellow_across : topology.shareChassis seat.fellow seat.across = false := by
  have hfellow := seat.shareChassis_of_mate (.inl rfl)
  have hacross : topology.shareChassis topology.localRank seat.across = false :=
    seat.shareChassis_of_opposite (by simp)
  rw [Bool.eq_false_iff]
  intro hshare
  rw [Topology.shareChassis_trans hfellow hshare] at hacross
  exact absurd hacross (by simp)

include seat in
theorem sharePartition (one other : Rank) : topology.sharePartition one other = true := by
  simp [Topology.sharePartition, Topology.partitionIndex, seat.cube]

theorem crossLinks_eq : seat.blueprint.crossLinks =
    [(topology.localRank, seat.partner), (seat.fellow, seat.across)] := by
  have hfellow := seat.shareChassis_of_mate (.inl rfl)
  have hfirst := seat.shareChassis_of_mate (.inr (.inl rfl))
  have hsecond := seat.shareChassis_of_mate (.inr (.inr rfl))
  have hpartner : topology.shareChassis topology.localRank seat.partner = false :=
    seat.shareChassis_of_opposite (by simp)
  simp [Blueprint.crossLinks, blueprint, links, hfellow, hfirst, hsecond, hpartner,
    seat.shareChassis_fellow_across]

theorem valid (hfault : topology.fault? = none) : seat.blueprint.Valid := by
  have hne := seat.members_ne
  constructor
  case fault => exact hfault
  case profile =>
    intro hpair
    exact absurd (seat.cube.symm.trans hpair) (by simp)
  case member =>
    intro link hlink
    refine ⟨seat.hasMember_iff.2 ?_, seat.hasMember_iff.2 ?_, seat.sharePartition _ _⟩
    all_goals
      simp only [blueprint, links, List.mem_cons, List.not_mem_nil, or_false] at hlink
      rcases hlink with rfl | rfl | rfl | rfl | rfl <;> simp
  case simple =>
    constructor
    · intro link hlink
      simp only [blueprint, links, List.mem_cons, List.not_mem_nil, or_false] at hlink
      rcases hlink with rfl | rfl | rfl | rfl | rfl <;> simp [hne]
    · simp [blueprint, links, hne]
  case apart =>
    rw [seat.crossLinks_eq]
    refine List.pairwise_pair.2 ⟨?_, ?_, ?_, ?_⟩ <;> grind
  case few =>
    intro _
    rw [seat.crossLinks_eq]
    exact Nat.le_refl 2

/-! ## Who relays what -/

theorem nodup_peers : seat.peers.Nodup :=
  List.Nodup.of_map _ seat.distinct

theorem mem_peers_iff {rank : Rank} : rank ∈ seat.peers ↔
    rank = seat.fellow ∨ rank = seat.first ∨ rank = seat.second ∨ rank = seat.partner := by
  simp [peers]

theorem joined_iff {rank : Rank} :
    seat.blueprint.Joined topology.localRank rank ↔ rank ∈ seat.peers := by
  have hne := seat.members_ne
  rw [Blueprint.Joined, Cabling.Joined, mem_peers_iff]
  simp only [blueprint, links, List.mem_cons, List.not_mem_nil, or_false, Prod.mk.injEq]
  grind

section Relays

variable (hvalid : seat.blueprint.Valid)
include hvalid

theorem partner?_eq : seat.blueprint.partner? topology.localRank = some seat.partner :=
  hvalid.partner?_eq_some_iff.2 ⟨seat.joined_iff.2 (by simp [peers]),
    seat.shareChassis_of_opposite (by simp)⟩

theorem partner?_fellow : seat.blueprint.partner? seat.fellow = some seat.across :=
  hvalid.partner?_eq_some_iff.2 ⟨.inl (by simp [blueprint, links]), seat.shareChassis_fellow_across⟩

theorem fellow?_eq : seat.blueprint.fellow? topology.localRank = some seat.fellow := by
  rw [hvalid.fellow?_eq_some_iff, seat.partner?_eq hvalid, seat.partner?_fellow hvalid]
  exact ⟨seat.cube, rfl, seat.mem_mates_iff.2 (.inl rfl), rfl⟩

theorem fellow?_partner : seat.blueprint.fellow? seat.partner = some seat.across :=
  hvalid.fellow?_partner? (seat.fellow?_eq hvalid) (seat.partner?_eq hvalid)
    (seat.partner?_fellow hvalid)

theorem mem_inners_iff {rank : Rank} :
    rank ∈ seat.blueprint.inners topology.localRank ↔ rank = seat.first ∨ rank = seat.second := by
  have hne := seat.members_ne
  rw [Blueprint.inners, seat.fellow?_eq hvalid]
  dsimp only
  rw [innerNodes, List.mem_filter, bne_iff_ne]
  change rank ∈ topology.chassisMates topology.localRank ∧ _ ↔ _
  rw [seat.mem_mates_iff]
  grind

/-- The mates of the partner are the other members of its chassis. -/
theorem mem_mates_partner_iff {rank : Rank} : rank ∈ topology.chassisMates seat.partner ↔
    rank = seat.across ∨ rank = seat.left ∨ rank = seat.right := by
  have hsubset : topology.chassisMates seat.partner ⊆ [seat.across, seat.left, seat.right] := by
    intro other hmate
    obtain ⟨hne, hshare⟩ := Topology.mem_chassisMates_iff.1 hmate
    have hmember := seat.hasMember_iff.1 (Topology.hasMember_of_shareChassis hshare).2
    have hlocal : topology.shareChassis topology.localRank other = false := by
      rw [Bool.eq_false_iff]
      intro hlocal
      have happart := hvalid.shareChassis_eq_false_of_partner (seat.partner?_eq hvalid) hlocal
      exact absurd (hshare.symm.trans happart) (by simp)
    simp only [List.mem_cons, List.not_mem_nil, or_false] at hmember ⊢
    rcases hmember with rfl | rfl | rfl | rfl | rfl | hmember
    · rw [Topology.shareChassis_self seat.hasMember_localRank] at hlocal
      exact absurd hlocal (by simp)
    · rw [seat.shareChassis_of_mate (.inl rfl)] at hlocal
      exact absurd hlocal (by simp)
    · rw [seat.shareChassis_of_mate (.inr (.inl rfl))] at hlocal
      exact absurd hlocal (by simp)
    · rw [seat.shareChassis_of_mate (.inr (.inr rfl))] at hlocal
      exact absurd hlocal (by simp)
    · exact absurd rfl hne
    · exact hmember
  have hmember : topology.hasMember seat.partner = true := seat.hasMember_iff.2 (by simp)
  have hlength := hvalid.length_mates hmember
  have hperm :=
    (List.subperm_of_subset (topology.nodup_chassisMates seat.partner) hsubset).perm_of_length_le
      (by rw [Blueprint.mates] at hlength; exact hlength.ge)
  simp [hperm.mem_iff]

theorem mem_inners_partner_iff {rank : Rank} :
    rank ∈ seat.blueprint.inners seat.partner ↔ rank = seat.left ∨ rank = seat.right := by
  have hne := seat.members_ne
  rw [Blueprint.inners, seat.fellow?_partner hvalid]
  dsimp only
  rw [innerNodes, List.mem_filter, bne_iff_ne]
  change rank ∈ topology.chassisMates seat.partner ∧ _ ↔ _
  rw [seat.mem_mates_partner_iff hvalid]
  grind

omit hvalid in
theorem lower_lt_higher : seat.lower < seat.higher := by
  have hne : seat.left ≠ seat.right := by
    have hall := seat.members_ne
    tauto
  rw [lower, higher]
  rcases UInt32.lt_or_lt_of_ne hne with hlt | hlt
  · rw [if_pos hlt, if_pos hlt]
    exact hlt
  · rw [if_neg (UInt32.lt_asymm hlt), if_neg (UInt32.lt_asymm hlt)]
    exact hlt

theorem inners_partner_eq : seat.blueprint.inners seat.partner = [seat.lower, seat.higher] := by
  refine Topology.eq_of_ascending (Blueprint.Valid.pairwise_inners _ _)
    (List.pairwise_pair.2 seat.lower_lt_higher) fun rank => ?_
  rw [seat.mem_inners_partner_iff hvalid, List.mem_pair, lower, higher]
  split
  · rfl
  · exact or_comm

theorem chosen?_eq : seat.blueprint.chosen? topology.localRank = some seat.relayed := by
  have hlt := seat.lower_lt_higher
  have hne := seat.members_ne.1.1
  rw [Blueprint.chosen?_eq_some_iff]
  refine ⟨_, _, seat.partner?_eq hvalid, seat.fellow?_eq hvalid, ?_⟩
  rw [seat.inners_partner_eq hvalid, relayed]
  simp only [crossChoice, if_neg (UInt32.ne_of_lt hlt), if_pos hlt]
  rcases UInt32.lt_or_lt_of_ne hne with hbelow | habove
  · rw [if_neg (UInt32.lt_asymm hbelow), if_pos hbelow]
  · rw [if_pos habove, if_neg (UInt32.lt_asymm habove)]

theorem feeds_of_mem_inputs {source peer : Rank} (h : (source, peer) ∈ seat.inputs) :
    seat.blueprint.Feeds source peer topology.localRank := by
  have hback := hvalid.partner?_comm (seat.partner?_eq hvalid)
  rw [inputs, List.mem_append, List.mem_map] at h
  rcases h with ⟨other, hpeer, heq⟩ | h
  · obtain ⟨rfl, rfl⟩ := Prod.mk.inj heq
    exact .direct (seat.joined_iff.2 hpeer).symm
  · simp only [List.mem_cons, List.not_mem_nil, or_false, Prod.mk.injEq] at h
    rcases h with ⟨rfl, rfl⟩ | ⟨rfl, rfl⟩ | ⟨rfl, rfl⟩
    · exact .fanout (seat.partner?_fellow hvalid)
        (Topology.mem_chassisMates_comm.1 (seat.mem_mates_iff.2 (.inl rfl)))
    · exact .uplink hback ((seat.mem_inners_partner_iff hvalid).2 (.inl rfl))
    · exact .uplink hback ((seat.mem_inners_partner_iff hvalid).2 (.inr rfl))

omit hvalid in
theorem mem_duties_of_inward {pair : Rank × Rank}
    (h : pair ∈ seat.blueprint.inward topology.localRank) :
    pair ∈ seat.duties := by
  obtain ⟨source, far⟩ := pair
  obtain ⟨rfl, hmate⟩ := Blueprint.mem_inward_iff.1 h
  have hmate := seat.mem_mates_iff.1 hmate
  simp only [duties, peers, List.mem_append, List.mem_map]
  exact .inl (.inl (.inl ⟨far, by simp only [List.mem_cons]; tauto, rfl⟩))

theorem mem_duties_of_outward {pair : Rank × Rank}
    (h : pair ∈ seat.blueprint.outward topology.localRank seat.partner) : pair ∈ seat.duties := by
  obtain ⟨source, far⟩ := pair
  simp only [duties, List.mem_append, List.mem_map, Prod.mk.injEq]
  rcases (Blueprint.mem_outward_iff (seat.partner?_eq hvalid)).1 h with ⟨rfl, rfl⟩ |
    ⟨rule, hassigned⟩
  · exact .inl (.inl (.inl ⟨seat.partner, by simp [peers], rfl, rfl⟩))
  cases rule with
  | fanout =>
    obtain rfl := Option.some.inj ((seat.partner?_eq hvalid).symm.trans hassigned.1)
    have hmate := seat.mem_mates_iff.1 hassigned.2
    exact .inl (.inl (.inr ⟨far, by simpa using hmate, rfl, rfl⟩))
  | uplink =>
    obtain rfl := Option.some.inj ((seat.partner?_eq hvalid).symm.trans hassigned.1)
    have hinner := (seat.mem_inners_iff hvalid).1 hassigned.2
    exact .inl (.inr ⟨source, by simpa using hinner, rfl, rfl⟩)
  | cross =>
    obtain rfl := Option.some.inj ((seat.chosen?_eq hvalid).symm.trans hassigned.1)
    have hinner := (seat.mem_inners_iff hvalid).1 hassigned.2
    exact .inr ⟨far, by simpa using hinner, rfl, rfl⟩

theorem charged_of_mem_duties {source far : Rank} (h : (source, far) ∈ seat.duties) :
    far ∈ seat.peers ∧ (source = topology.localRank ∨
      ∃ rule, seat.blueprint.Assigned topology.localRank rule source far) := by
  have hpartner := seat.partner?_eq hvalid
  simp only [duties, List.mem_append, List.mem_map, Prod.mk.injEq] at h
  rcases h with ((⟨peer, hpeer, rfl, rfl⟩ | ⟨mate, hmate, rfl, rfl⟩) | ⟨inner, hinner, rfl, rfl⟩) |
    ⟨inner, hinner, rfl, rfl⟩
  · exact ⟨hpeer, .inl rfl⟩
  · refine ⟨seat.mem_peers_iff.2 ?_,
      .inr ⟨.fanout, hpartner, seat.mem_mates_iff.2 (by simpa using hmate)⟩⟩
    simp only [List.mem_cons, List.not_mem_nil, or_false] at hmate
    tauto
  · exact ⟨seat.mem_peers_iff.2 (by simp),
      .inr ⟨.uplink, hpartner, (seat.mem_inners_iff hvalid).2 (by simpa using hinner)⟩⟩
  · refine ⟨seat.mem_peers_iff.2 ?_, .inr ⟨.cross, seat.chosen?_eq hvalid,
      (seat.mem_inners_iff hvalid).2 (by simpa using hinner)⟩⟩
    simp only [List.mem_cons, List.not_mem_nil, or_false] at hinner
    tauto

end Relays

/-! ## Sources and channels -/

theorem peer_mem_of_mem_inputs {source peer : Rank} (h : (source, peer) ∈ seat.inputs) :
    peer ∈ seat.peers := by
  simp only [inputs, peers, List.map_cons, List.map_nil, List.mem_append, List.mem_cons,
    List.not_mem_nil, or_false, Prod.mk.injEq] at h ⊢
  tauto

theorem nodup_sources : (seat.inputs.map Prod.fst).Nodup :=
  (List.nodup_cons.1 seat.nodup_members).2

/-- The data of every other member comes in. -/
theorem mem_sources {source : Rank} (h : source ∈ topology.peers topology.localRank) :
    ∃ peer, (source, peer) ∈ seat.inputs := by
  obtain ⟨hne, hmember, -⟩ := Topology.mem_peers_iff.1 h
  have hmem : source ∈ seat.inputs.map Prod.fst :=
    (List.mem_cons.1 (seat.hasMember_iff.1 hmember)).resolve_left hne
  obtain ⟨⟨_, peer⟩, hinput, rfl⟩ := List.mem_map.1 hmem
  exact ⟨peer, hinput⟩

/-- A channel leads to one peer. -/
theorem eq_of_channel_eq {one other : Rank} (hone : one ∈ seat.peers) (hother : other ∈ seat.peers)
    (h : seat.channel one = seat.channel other) : one = other :=
  List.inj_on_of_nodup_map seat.distinct hone hother h

theorem relayed_eq : seat.relayed = seat.left ∨ seat.relayed = seat.right := by
  rw [relayed, lower, higher]
  split <;> split <;> simp

theorem nodup_duties : seat.duties.Nodup := by
  have hne := seat.members_ne
  have hrelayed := seat.relayed_eq
  simp only [duties, peers, List.map_cons, List.map_nil, List.cons_append, List.nil_append,
    List.nodup_cons, List.mem_cons, List.not_mem_nil, or_false, not_or, Prod.mk.injEq,
    List.nodup_nil, and_true, not_false_eq_true]
  grind

end OuterSeat

end MeshFormation
