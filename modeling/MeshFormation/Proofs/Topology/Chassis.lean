import MeshFormation.Proofs.Topology.Members
import Mathlib.Data.List.Perm.Subperm
import Mathlib.Data.List.Nodup
import Mathlib.Data.List.Count
import Mathlib.Tactic.IntervalCases

/-!
# Chassis and partitions

In a topology that fits the cube or the hypercube profile every partition has eight members, in two
chassis of four. Each member therefore has three chassis mates and seven peers in its partition, and
of three members of a partition two share a chassis.
-/

namespace MeshFormation

/-! ## Names of chassis -/

theorem mem_addName_iff {name other : String} {names : List String} :
    other ∈ addName name names ↔ other = name ∨ other ∈ names := by
  induction names with
  | nil => simp [addName]
  | cons head rest ih =>
    rw [addName]
    split
    · simp
    · split
      · rename_i heq
        simp [heq]
      · rw [List.mem_cons, ih, List.mem_cons]
        exact or_left_comm

theorem mem_distinctNames_iff {name : String} {names : List String} :
    name ∈ distinctNames names ↔ name ∈ names := by
  induction names with
  | nil => rfl
  | cons head rest ih =>
    rw [distinctNames] at ih
    rw [distinctNames, List.foldr_cons, mem_addName_iff, ih, List.mem_cons]

/-- A group without a fault sits in two chassis, each of which has four of its members. -/
theorem of_chassisFault?_eq_none {names : List String} (h : chassisFault? names = none) :
    (∃ first second, ∀ name ∈ names, name = first ∨ name = second) ∧
      ∀ name ∈ names, names.count name = chassisSize := by
  rw [chassisFault?] at h
  split at h
  · exact absurd h (by simp)
  · rename_i hlength
    obtain ⟨first, second, hnames⟩ := List.length_eq_two.1 (not_not.1 hlength)
    rw [Option.map_eq_none_iff, List.find?_eq_none] at h
    constructor
    · refine ⟨first, second, fun name hmem => ?_⟩
      have hdistinct := mem_distinctNames_iff.2 hmem
      rw [hnames] at hdistinct
      simpa using hdistinct
    · intro name hmem
      simpa using h name (mem_distinctNames_iff.2 hmem)

namespace Topology

variable {topology : Topology} {first second third rank : Rank}

theorem mem_ranks_iff : rank ∈ topology.ranks ↔ topology.hasMember rank = true :=
  Table.mem_keys_iff

theorem nodup_ranks (topology : Topology) : topology.ranks.Nodup :=
  (Table.pairwise_keys topology.members).imp UInt32.ne_of_lt

/-- Two ascending lists with the same members are the same. -/
theorem eq_of_ascending {one other : List Rank} (h : one.Pairwise (· < ·))
    (h' : other.Pairwise (· < ·)) (hmem : ∀ rank, rank ∈ one ↔ rank ∈ other) : one = other := by
  have hperm : one.Perm other :=
    (List.perm_ext_iff_of_nodup (h.imp UInt32.ne_of_lt) (h'.imp UInt32.ne_of_lt)).2 hmem
  exact hperm.eq_of_pairwise
    (fun _ _ _ _ hlt hgt => absurd hgt (UInt32.not_lt.2 (UInt32.le_of_lt hlt))) h h'

theorem exists_chassis?_iff :
    (∃ name, topology.chassis? rank = some name) ↔ topology.hasMember rank = true := by
  rw [chassis?, hasMember, Table.contains_eq_isSome, ← Option.isSome_iff_exists, Option.isSome_map]
  rfl

/-! ## Who shares what -/

theorem sharePartition_comm (topology : Topology) (first second : Rank) :
    topology.sharePartition first second = topology.sharePartition second first :=
  Bool.beq_comm

theorem shareChassis_iff :
    topology.shareChassis first second = true ↔
      topology.sharePartition first second = true ∧
        ∃ name, topology.chassis? first = some name ∧ topology.chassis? second = some name := by
  rw [shareChassis, Bool.and_eq_true]
  apply and_congr_right
  intro _
  cases hfirst : topology.chassis? first with
  | none => simp
  | some name =>
    cases hsecond : topology.chassis? second with
    | none => simp
    | some other => simpa using eq_comm

theorem shareChassis_comm (topology : Topology) (first second : Rank) :
    topology.shareChassis first second = topology.shareChassis second first := by
  rw [Bool.eq_iff_iff, shareChassis_iff, shareChassis_iff, sharePartition_comm]
  apply and_congr_right
  intro _
  apply exists_congr
  intro name
  exact and_comm

theorem sharePartition_trans (h : topology.sharePartition first second = true)
    (h' : topology.sharePartition second third = true) :
    topology.sharePartition first third = true := by
  simp only [sharePartition, beq_iff_eq] at *
  exact h.trans h'

theorem shareChassis_trans (h : topology.shareChassis first second = true)
    (h' : topology.shareChassis second third = true) :
    topology.shareChassis first third = true := by
  rw [shareChassis_iff] at *
  obtain ⟨hpartition, name, hfirst, hsecond⟩ := h
  obtain ⟨hpartition', name', hsecond', hthird⟩ := h'
  obtain rfl := Option.some.inj (hsecond.symm.trans hsecond')
  exact ⟨sharePartition_trans hpartition hpartition', name, hfirst, hthird⟩

theorem sharePartition_of_shareChassis (h : topology.shareChassis first second = true) :
    topology.sharePartition first second = true :=
  (shareChassis_iff.1 h).1

theorem hasMember_of_shareChassis (h : topology.shareChassis first second = true) :
    topology.hasMember first = true ∧ topology.hasMember second = true := by
  obtain ⟨-, name, hfirst, hsecond⟩ := shareChassis_iff.1 h
  exact ⟨exists_chassis?_iff.1 ⟨name, hfirst⟩, exists_chassis?_iff.1 ⟨name, hsecond⟩⟩

theorem mem_chassisMates_iff :
    second ∈ topology.chassisMates first ↔
      second ≠ first ∧ topology.shareChassis first second = true := by
  rw [chassisMates, List.mem_filter, Bool.and_eq_true, bne_iff_ne, mem_ranks_iff]
  constructor
  · rintro ⟨-, hne, hshare⟩
    exact ⟨hne, hshare⟩
  · rintro ⟨hne, hshare⟩
    exact ⟨(hasMember_of_shareChassis hshare).2, hne, hshare⟩

theorem mem_chassisMates_comm :
    second ∈ topology.chassisMates first ↔ first ∈ topology.chassisMates second := by
  rw [mem_chassisMates_iff, mem_chassisMates_iff, shareChassis_comm, ne_comm]

theorem nodup_chassisMates (topology : Topology) (rank : Rank) :
    (topology.chassisMates rank).Nodup :=
  topology.nodup_ranks.filter _

/-! ## Partitions of eight -/

def group (topology : Topology) (rank : Rank) : List Rank :=
  topology.partitionRanks (topology.partitionIndex rank)

theorem mem_group_iff :
    second ∈ topology.group first ↔
      topology.hasMember second = true ∧ topology.sharePartition first second = true := by
  rw [group, partitionRanks, List.mem_filter, mem_ranks_iff, sharePartition, Bool.beq_comm]

/-- Without a hypercube all members are in one partition. -/
theorem group_eq_ranks (hprofile : topology.profile ≠ .hypercube) (rank : Rank) :
    topology.group rank = topology.ranks := by
  rw [group, partitionRanks, List.filter_eq_self]
  intro other _
  cases hcase : topology.profile with
  | pair | cube => simp [partitionIndex, hcase]
  | hypercube => exact absurd hcase hprofile

/-- A partition as the profile demands it: eight members without a chassis fault. -/
structure Balanced (topology : Topology) (rank : Rank) : Prop where
  size : (topology.group rank).length = partitionSize
  chassis : chassisFault? ((topology.group rank).filterMap topology.chassis?) = none

theorem balanced_of_cube (hprofile : topology.profile = .cube) (h : topology.fault? = none)
    (rank : Rank) : topology.Balanced rank := by
  have hgroup := topology.group_eq_ranks (by simp [hprofile]) rank
  rw [fault?, hprofile] at h
  dsimp only at h
  split at h
  · exact absurd h (by simp)
  · rename_i hsize
    rw [groupFault?, Option.map_eq_none_iff] at h
    constructor
    · rw [hgroup, ranks, Table.length_keys]
      exact not_not.1 hsize
    · rw [hgroup]
      exact h

/-- The members of a hypercube are numbered from zero. -/
theorem ranks_of_hypercube (hprofile : topology.profile = .hypercube)
    (h : topology.fault? = none) :
    (topology.size = 8 ∨ topology.size = 16 ∨ topology.size = 32) ∧
      topology.ranks.Perm ((List.range topology.size).map UInt32.ofNat) ∧
        ∀ partition < topology.partitionCount,
          topology.groupFault? partition (topology.partitionRanks partition) = none := by
  rw [fault?, hprofile] at h
  dsimp only at h
  split at h
  · exact absurd h (by simp)
  rename_i hsize
  split at h
  · exact absurd h (by simp)
  rename_i hmissing
  have hsizes : topology.size = 8 ∨ topology.size = 16 ∨ topology.size = 32 := by
    simp only [partitionSize, List.mem_cons, List.not_mem_nil, or_false, not_or, not_and_or,
      not_not] at hsize
    omega
  refine ⟨hsizes, ?_, ?_⟩
  · have hsubset : (List.range topology.size).map UInt32.ofNat ⊆ topology.ranks := by
      intro rank hmem
      rw [missingRank?, List.find?_eq_none] at hmissing
      rw [mem_ranks_iff]
      simpa using hmissing rank hmem
    have hnodup : ((List.range topology.size).map UInt32.ofNat).Nodup := by
      rcases hsizes with hsize | hsize | hsize <;> rw [hsize] <;> decide
    have hsubperm := List.subperm_of_subset hnodup hsubset
    refine (hsubperm.perm_of_length_le ?_).symm
    simp [ranks, size]
  · intro partition hlt
    rw [List.findSome?_eq_none_iff] at h
    exact h partition (List.mem_range.2 hlt)

theorem partitionIndex_lt_of_hypercube (hprofile : topology.profile = .hypercube)
    (h : topology.fault? = none) (hmember : topology.hasMember rank = true) :
    topology.partitionIndex rank < topology.partitionCount := by
  obtain ⟨hsize, hranks, -⟩ := ranks_of_hypercube hprofile h
  have hmem := hranks.mem_iff.1 (mem_ranks_iff.2 hmember)
  obtain ⟨number, hnumber, rfl⟩ := List.mem_map.1 hmem
  have hlt := List.mem_range.1 hnumber
  have hsmall : (UInt32.ofNat number).toNat = number := by
    rw [UInt32.toNat_ofNat']
    omega
  simp only [partitionIndex, partitionCount, hprofile, hsmall, partitionSize]
  omega

theorem balanced_of_hypercube (hprofile : topology.profile = .hypercube)
    (h : topology.fault? = none) (hmember : topology.hasMember rank = true) :
    topology.Balanced rank := by
  obtain ⟨hsize, hranks, hfault⟩ := ranks_of_hypercube hprofile h
  have hindex := partitionIndex_lt_of_hypercube hprofile h hmember
  constructor
  · have hlength := (hranks.filter fun other =>
      topology.partitionIndex other == topology.partitionIndex rank).length_eq
    have height : ∀ index < topology.size / 8, (((List.range topology.size).map UInt32.ofNat).filter
        fun other => other.toNat / 8 == index).length = 8 := by
      rcases hsize with hsize | hsize | hsize <;> rw [hsize] <;> decide
    have hrank := height (topology.partitionIndex rank)
      (by simpa [partitionCount, hprofile, partitionSize] using hindex)
    rw [group, partitionRanks, hlength]
    simpa [partitionIndex, hprofile, partitionSize] using hrank
  · have hgroup := hfault _ hindex
    rw [groupFault?, Option.map_eq_none_iff] at hgroup
    exact hgroup

theorem balanced_of_ofMembers {members : List Member} {request : ProfileRequest}
    {localRank : Rank} (h : ofMembers members localRank request = .ok topology)
    (hprofile : topology.profile ≠ .pair) (hmember : topology.hasMember rank = true) :
    topology.Balanced rank := by
  have hfault := fault?_of_ofMembers h
  cases hkind : topology.profile with
  | pair => exact absurd hkind hprofile
  | cube => exact balanced_of_cube hkind hfault rank
  | hypercube => exact balanced_of_hypercube hkind hfault hmember

namespace Balanced

theorem length_filter_ne {ranks : List Rank} (hnodup : ranks.Nodup) (hmem : rank ∈ ranks) :
    (ranks.filter (· != rank)).length + 1 = ranks.length := by
  have herase := List.length_erase_of_mem hmem
  have hpos := List.length_pos_of_mem hmem
  rw [hnodup.erase_eq_filter] at herase
  omega

theorem length_chassisMates (h : topology.Balanced rank)
    (hmember : topology.hasMember rank = true) : (topology.chassisMates rank).length = 3 := by
  obtain ⟨name, hname⟩ := exists_chassis?_iff.2 hmember
  have hgroup : rank ∈ topology.group rank := mem_group_iff.2 ⟨hmember, beq_self_eq_true _⟩
  have hcount := (of_chassisFault?_eq_none h.chassis).2 name
    (List.mem_filterMap.2 ⟨rank, hgroup, hname⟩)
  have hfour : (topology.ranks.filter (topology.shareChassis rank)).length = 4 := by
    have hsame : ∀ other, (topology.shareChassis rank other = true ↔
        topology.sharePartition rank other = true ∧ topology.chassis? other = some name) := by
      intro other
      rw [shareChassis_iff, hname]
      simp
    rw [List.count, List.countP_filterMap, group, partitionRanks, List.countP_filter,
      List.countP_eq_length_filter] at hcount
    rw [← chassisSize, ← hcount]
    congr 1
    apply List.filter_congr
    intro other _
    rw [Bool.eq_iff_iff, hsame, sharePartition, Bool.and_eq_true, Bool.beq_comm, and_comm]
    apply and_congr_left
    intro _
    cases topology.chassis? other <;> simp
  have hself : rank ∈ topology.ranks.filter (topology.shareChassis rank) :=
    List.mem_filter.2 ⟨mem_ranks_iff.2 hmember,
      shareChassis_iff.2 ⟨beq_self_eq_true _, name, hname, hname⟩⟩
  have hmates : topology.chassisMates rank =
      (topology.ranks.filter (topology.shareChassis rank)).filter (· != rank) := by
    rw [chassisMates, List.filter_filter]
  have hlength := length_filter_ne (topology.nodup_ranks.filter _) hself
  rw [hmates]
  omega

/-- Two members of a partition that do not share a chassis stand for both of its chassis. -/
theorem shareChassis_or (h : topology.Balanced first)
    (hfirst : topology.hasMember first = true) (hsecond : second ∈ topology.group first)
    (hthird : third ∈ topology.group first) (hne : topology.shareChassis first second = false) :
    topology.shareChassis first third = true ∨ topology.shareChassis second third = true := by
  obtain ⟨one, other, hnames⟩ := (of_chassisFault?_eq_none h.chassis).1
  obtain ⟨hsecondMember, hsecondPartition⟩ := mem_group_iff.1 hsecond
  obtain ⟨hthirdMember, hthirdPartition⟩ := mem_group_iff.1 hthird
  obtain ⟨a, ha⟩ := exists_chassis?_iff.2 hfirst
  obtain ⟨b, hb⟩ := exists_chassis?_iff.2 hsecondMember
  obtain ⟨c, hc⟩ := exists_chassis?_iff.2 hthirdMember
  have hname : ∀ {rank name}, rank ∈ topology.group first → topology.chassis? rank = some name →
      name = one ∨ name = other :=
    fun hmem hname => hnames _ (List.mem_filterMap.2 ⟨_, hmem, hname⟩)
  have hself : first ∈ topology.group first := mem_group_iff.2 ⟨hfirst, beq_self_eq_true _⟩
  have hab : a ≠ b := by
    rintro rfl
    have hshare : topology.shareChassis first second = true :=
      shareChassis_iff.2 ⟨hsecondPartition, a, ha, hb⟩
    rw [hne] at hshare
    exact absurd hshare (by simp)
  have hac : a = c ∨ b = c := by
    rcases hname hself ha with rfl | rfl <;> rcases hname hsecond hb with rfl | rfl <;>
      rcases hname hthird hc with rfl | rfl <;> simp_all
  rcases hac with rfl | rfl
  · exact .inl (shareChassis_iff.2 ⟨hthirdPartition, a, ha, hc⟩)
  · right
    rw [sharePartition_comm] at hsecondPartition
    exact shareChassis_iff.2 ⟨sharePartition_trans hsecondPartition hthirdPartition, b, hb, hc⟩

end Balanced

def peers (topology : Topology) (rank : Rank) : List Rank :=
  (topology.group rank).filter (· != rank)

theorem mem_peers_iff :
    second ∈ topology.peers first ↔ second ≠ first ∧ topology.hasMember second = true ∧
      topology.sharePartition first second = true := by
  rw [peers, List.mem_filter, mem_group_iff, bne_iff_ne, and_comm]

theorem pairwise_peers (topology : Topology) (rank : Rank) :
    (topology.peers rank).Pairwise (· < ·) :=
  ((Table.pairwise_keys topology.members).filter _).filter _

theorem nodup_peers (topology : Topology) (rank : Rank) : (topology.peers rank).Nodup :=
  (topology.pairwise_peers rank).imp UInt32.ne_of_lt

theorem Balanced.length_peers (h : topology.Balanced rank)
    (hmember : topology.hasMember rank = true) : (topology.peers rank).length = 7 := by
  have hself : rank ∈ topology.group rank := mem_group_iff.2 ⟨hmember, beq_self_eq_true _⟩
  have hlength := length_filter_ne (topology.nodup_ranks.filter _) hself
  have hsize := h.size
  rw [partitionSize] at hsize
  rw [peers]
  rw [group, partitionRanks] at hsize ⊢
  omega

/-- The members of a partition other than a member of it are as many as a node receives from. -/
theorem length_peers {members : List Member} {request : ProfileRequest} {localRank : Rank}
    (h : ofMembers members localRank request = .ok topology)
    (hmember : topology.hasMember rank = true) :
    (topology.peers rank).length = topology.receiveCount := by
  cases hprofile : topology.profile with
  | pair =>
    have hsize : topology.ranks.length = 2 := by
      have hfault := fault?_of_ofMembers h
      rw [fault?, hprofile] at hfault
      rw [ranks, Table.length_keys]
      change topology.size = 2
      simpa using hfault
    have hgroup := topology.group_eq_ranks (by simp [hprofile]) rank
    have hlength := Balanced.length_filter_ne topology.nodup_ranks (mem_ranks_iff.2 hmember)
    have hcount : topology.receiveCount = 1 := by rw [receiveCount, hprofile]
    rw [peers, hgroup]
    omega
  | cube | hypercube =>
    have hbalanced := balanced_of_ofMembers h (by simp [hprofile]) hmember
    rw [hbalanced.length_peers hmember, receiveCount, hprofile]
    rfl

/-! ## Topologies of one partition -/

/-- All members but the local one, in rank order. -/
def others (topology : Topology) : List Rank :=
  topology.ranks.filter (· != topology.localRank)

theorem mem_others_iff :
    rank ∈ topology.others ↔ topology.hasMember rank = true ∧ rank ≠ topology.localRank := by
  rw [others, List.mem_filter, mem_ranks_iff, bne_iff_ne]

theorem nodup_others (topology : Topology) : topology.others.Nodup :=
  topology.nodup_ranks.filter _

/-- Members of a topology with one partition share it. -/
theorem sharePartition_of_single {members : List Member} {request : ProfileRequest}
    {localRank : Rank} (h : ofMembers members localRank request = .ok topology)
    (hsingle : topology.partitionCount = 1) (hfirst : topology.hasMember first = true)
    (hsecond : topology.hasMember second = true) : topology.sharePartition first second = true := by
  have hzero : ∀ {rank}, topology.hasMember rank = true → topology.partitionIndex rank = 0 := by
    intro rank hmember
    cases hprofile : topology.profile with
    | pair | cube => simp [partitionIndex, hprofile]
    | hypercube =>
      have hlt := partitionIndex_lt_of_hypercube hprofile (fault?_of_ofMembers h) hmember
      omega
  rw [sharePartition, hzero hfirst, hzero hsecond]
  rfl

theorem peers_eq_others {members : List Member} {request : ProfileRequest} {localRank : Rank}
    (h : ofMembers members localRank request = .ok topology)
    (hsingle : topology.partitionCount = 1) :
    topology.peers topology.localRank = topology.others := by
  have hgroup : topology.group topology.localRank = topology.ranks := by
    rw [group, partitionRanks, List.filter_eq_self]
    intro rank hmem
    exact sharePartition_of_single h hsingle (mem_ranks_iff.1 hmem) (hasMember_localRank h)
  rw [peers, hgroup, others]

end Topology

end MeshFormation
