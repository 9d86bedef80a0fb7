import MeshFormation.Layout
import MeshFormation.Proofs.Router.Start
import MeshFormation.Proofs.Topology.Partitions
import MeshFormation.Proofs.Topology.Verdict

/-!
# The structure of a topology

What the routers count on. In a cube and in a hypercube the partitions divide the members into
ascending lists of eight, and sharing a chassis divides each of these into two classes of four. A
member has one counterpart in each partition but its own, and is a counterpart of it. The numbers
that a router starts with are those of its partition and of the others.
-/

namespace MeshFormation.Topology

variable {members : List Member} {request : ProfileRequest} {localRank rank first second : Rank}
  {topology : Topology} {partition : Nat}

/-! ## Partitions -/

theorem mem_partitionRanks_iff :
    rank ∈ topology.partitionRanks partition ↔
      topology.hasMember rank = true ∧ topology.partitionIndex rank = partition := by
  rw [partitionRanks, List.mem_filter, mem_ranks_iff, beq_iff_eq]

theorem nodup_partitionRanks (topology : Topology) (partition : Nat) :
    (topology.partitionRanks partition).Nodup :=
  topology.nodup_ranks.filter _

/-- The members of a hypercube are the ranks below their number. -/
theorem hasMember_iff_of_hypercube (hprofile : topology.profile = .hypercube)
    (h : topology.fault? = none) : topology.hasMember rank = true ↔ rank.toNat < topology.size := by
  obtain ⟨hsize, hranks, -⟩ := ranks_of_hypercube hprofile h
  rw [← mem_ranks_iff, hranks.mem_iff, mem_map_range_iff]
  rcases hsize with hsize | hsize | hsize <;> rw [hsize] <;> decide

/-- The rank at a place of a partition of a hypercube. -/
theorem toNat_ofNat_of_lt_partitionCount (hprofile : topology.profile = .hypercube)
    (h : topology.fault? = none) (hpartition : partition < topology.partitionCount) {place : Nat}
    (hplace : place < 8) :
    (UInt32.ofNat (8 * partition + place)).toNat = 8 * partition + place ∧
      8 * partition + place < topology.size := by
  obtain ⟨hsize, -, -⟩ := ranks_of_hypercube hprofile h
  simp only [partitionCount, hprofile, partitionSize] at hpartition
  rw [UInt32.toNat_ofNat']
  omega

theorem partitionIndex_lt (h : ofMembers members localRank request = .ok topology)
    (hmember : topology.hasMember rank = true) :
    topology.partitionIndex rank < topology.partitionCount := by
  cases hprofile : topology.profile with
  | pair | cube => simp [partitionIndex, partitionCount, hprofile]
  | hypercube => exact partitionIndex_lt_of_hypercube hprofile (fault?_of_ofMembers h) hmember

/-- Every partition has a member. -/
theorem exists_member_of_lt (h : ofMembers members localRank request = .ok topology)
    (hpartition : partition < topology.partitionCount) :
    ∃ rank, topology.hasMember rank = true ∧ topology.partitionIndex rank = partition := by
  cases hprofile : topology.profile with
  | pair | cube =>
    refine ⟨topology.localRank, hasMember_localRank h, ?_⟩
    simp only [partitionCount, hprofile, Nat.lt_one_iff] at hpartition
    simp [partitionIndex, hprofile, hpartition]
  | hypercube =>
    obtain ⟨hrank, hlt⟩ := toNat_ofNat_of_lt_partitionCount hprofile (fault?_of_ofMembers h)
      hpartition (show 0 < 8 by omega)
    refine ⟨UInt32.ofNat (8 * partition + 0), ?_, ?_⟩
    · rw [hasMember_iff_of_hypercube hprofile (fault?_of_ofMembers h), hrank]
      exact hlt
    · simp only [partitionIndex, hprofile, hrank, partitionSize]
      omega

/-! ## Chassis -/

/-- The members that share a chassis with a rank, itself among them. -/
def chassisClass (topology : Topology) (rank : Rank) : List Rank :=
  topology.ranks.filter (topology.shareChassis rank)

theorem mem_chassisClass_iff :
    second ∈ topology.chassisClass first ↔ topology.shareChassis first second = true := by
  rw [chassisClass, List.mem_filter, mem_ranks_iff]
  exact and_iff_right_of_imp fun hshare => (hasMember_of_shareChassis hshare).2

theorem shareChassis_self (h : topology.hasMember rank = true) :
    topology.shareChassis rank rank = true := by
  obtain ⟨name, hname⟩ := exists_chassis?_iff.2 h
  exact shareChassis_iff.2 ⟨beq_self_eq_true _, name, hname, hname⟩

theorem Balanced.length_chassisClass (h : topology.Balanced rank)
    (hmember : topology.hasMember rank = true) : (topology.chassisClass rank).length = 4 := by
  have hself : rank ∈ topology.chassisClass rank :=
    mem_chassisClass_iff.2 (shareChassis_self hmember)
  have hmates : topology.chassisMates rank = (topology.chassisClass rank).filter (· != rank) := by
    rw [chassisMates, chassisClass, List.filter_filter]
  have hlength := Balanced.length_filter_ne (topology.nodup_ranks.filter _) hself
  have hthree := h.length_chassisMates hmember
  rw [hmates] at hthree
  rw [← chassisClass] at hlength
  omega

/-- A partition has more members than one chassis of it. -/
theorem Balanced.exists_other_chassis (h : topology.Balanced first)
    (hfirst : topology.hasMember first = true) : ∃ second ∈ topology.group first,
      topology.shareChassis first second = false := by
  have hclass := h.length_chassisClass hfirst
  by_contra hall
  have hsubset : topology.group first ⊆ topology.chassisClass first := by
    intro other hmem
    rw [mem_chassisClass_iff]
    by_contra hother
    exact hall ⟨other, hmem, by simpa using hother⟩
  have hle : (topology.group first).length ≤ _ :=
    (List.subperm_of_subset (topology.nodup_partitionRanks _) hsubset).length_le
  have hsize := h.size
  rw [partitionSize] at hsize
  omega

theorem nodup_chassisClasses (h : topology.shareChassis first second = false) :
    (topology.chassisClass first ++ topology.chassisClass second).Nodup := by
  refine List.Nodup.append (topology.nodup_ranks.filter _) (topology.nodup_ranks.filter _) ?_
  intro other hone hother
  rw [mem_chassisClass_iff] at hone hother
  rw [shareChassis_comm] at hother
  rw [shareChassis_trans hone hother] at h
  exact absurd h (by simp)

/-- A partition consists of the classes of two of its members. -/
theorem Balanced.exists_classes (h : topology.Balanced first)
    (hfirst : topology.hasMember first = true) : ∃ second ∈ topology.group first,
      topology.shareChassis first second = false ∧
        (topology.group first).Perm
          (topology.chassisClass first ++ topology.chassisClass second) := by
  obtain ⟨second, hsecond, hne⟩ := h.exists_other_chassis hfirst
  refine ⟨second, hsecond, hne, ?_⟩
  refine (List.perm_ext_iff_of_nodup (topology.nodup_partitionRanks _) (nodup_chassisClasses hne)).2
    fun other => ?_
  rw [List.mem_append]
  change other ∈ topology.group first ↔
    other ∈ topology.chassisClass first ∨ other ∈ topology.chassisClass second
  rw [mem_chassisClass_iff, mem_chassisClass_iff]
  constructor
  · intro hother
    exact h.shareChassis_or hfirst hsecond hother hne
  · intro hshare
    have hgroup := mem_group_iff.1 hsecond
    rcases hshare with hshare | hshare
    · exact mem_group_iff.2 ⟨(hasMember_of_shareChassis hshare).2,
        sharePartition_of_shareChassis hshare⟩
    · exact mem_group_iff.2 ⟨(hasMember_of_shareChassis hshare).2,
        sharePartition_trans hgroup.2 (sharePartition_of_shareChassis hshare)⟩

/-! ## Counterparts -/

theorem mem_counterparts_iff : second ∈ topology.counterparts first ↔
    topology.profile = .hypercube ∧ topology.hasMember second = true ∧
      second.toNat % 8 = first.toNat % 8 ∧
        topology.partitionIndex second ≠ topology.partitionIndex first := by
  cases hprofile : topology.profile with
  | pair | cube => simp [counterparts, hprofile]
  | hypercube =>
    rw [counterparts, hprofile]
    dsimp only
    rw [List.mem_filter, mem_ranks_iff, Bool.and_eq_true, beq_iff_eq, Bool.not_eq_true',
      sharePartition, beq_eq_false_iff_ne, ne_comm]
    exact (and_iff_right rfl).symm

/-- A member has one counterpart in every other partition. -/
theorem existsUnique_counterpart (h : ofMembers members localRank request = .ok topology)
    (hpartition : partition < topology.partitionCount)
    (hother : partition ≠ topology.partitionIndex rank) :
    ∃! other, other ∈ topology.counterparts rank ∧ topology.partitionIndex other = partition := by
  cases hprofile : topology.profile with
  | pair | cube =>
    simp only [partitionCount, partitionIndex, hprofile, Nat.lt_one_iff] at hpartition hother
    exact absurd hpartition hother
  | hypercube =>
    have hfault := fault?_of_ofMembers h
    obtain ⟨hrank, hlt⟩ := toNat_ofNat_of_lt_partitionCount hprofile hfault hpartition
      (show rank.toNat % 8 < 8 by omega)
    have hindex : topology.partitionIndex (UInt32.ofNat (8 * partition + rank.toNat % 8)) =
        partition := by
      simp only [partitionIndex, hprofile, hrank, partitionSize]
      omega
    refine ⟨UInt32.ofNat (8 * partition + rank.toNat % 8), ⟨?_, hindex⟩, ?_⟩
    · rw [mem_counterparts_iff, hasMember_iff_of_hypercube hprofile hfault, hindex, hrank]
      exact ⟨hprofile, hlt, by omega, hother⟩
    · rintro other ⟨hmem, hsame⟩
      obtain ⟨-, -, hplace, -⟩ := mem_counterparts_iff.1 hmem
      simp only [partitionIndex, hprofile, partitionSize] at hsame
      rw [← UInt32.toNat_inj, hrank]
      omega

/-! ## The structure -/

/-- The members of a cube or a hypercube, divided into partitions and chassis. -/
structure Divided (topology : Topology) : Prop where
  refl : ∀ rank, topology.hasMember rank = true → topology.shareChassis rank rank = true
  symm : ∀ first second, topology.shareChassis first second = true →
    topology.shareChassis second first = true
  trans : ∀ first second third, topology.shareChassis first second = true →
    topology.shareChassis second third = true → topology.shareChassis first third = true
  refines : ∀ first second, topology.shareChassis first second = true →
    topology.sharePartition first second = true
  mates : ∀ rank, topology.hasMember rank = true → (topology.chassisMates rank).length = 3
  disjoint : ∀ partition other, partition ≠ other →
    (topology.partitionRanks partition).Disjoint (topology.partitionRanks other)
  ascending : ∀ partition, (topology.partitionRanks partition).Pairwise (· < ·)
  eight : ∀ partition < topology.partitionCount, (topology.partitionRanks partition).length = 8
  cover : ∀ rank, topology.hasMember rank = true ↔
    ∃ partition < topology.partitionCount, rank ∈ topology.partitionRanks partition
  halves : ∀ partition < topology.partitionCount, ∃ first second,
    topology.shareChassis first second = false ∧
      (topology.partitionRanks partition).Perm
        (topology.chassisClass first ++ topology.chassisClass second) ∧
      (topology.chassisClass first).length = 4 ∧ (topology.chassisClass second).length = 4

theorem divided_of_ofMembers (h : ofMembers members localRank request = .ok topology)
    (hprofile : topology.profile ≠ .pair) : topology.Divided := by
  have hbalanced : ∀ {rank}, topology.hasMember rank = true → topology.Balanced rank :=
    fun hmember => balanced_of_ofMembers h hprofile hmember
  constructor
  case refl => exact fun rank hmember => shareChassis_self hmember
  case symm => exact fun first second hshare => by rwa [shareChassis_comm]
  case trans => exact fun first second third => shareChassis_trans
  case refines => exact fun first second => sharePartition_of_shareChassis
  case mates => exact fun rank hmember => (hbalanced hmember).length_chassisMates hmember
  case disjoint =>
    intro partition other hne rank hone hother
    exact hne ((mem_partitionRanks_iff.1 hone).2.symm.trans (mem_partitionRanks_iff.1 hother).2)
  case ascending => exact fun partition => (Table.pairwise_keys topology.members).filter _
  case eight =>
    intro partition hlt
    obtain ⟨rank, hmember, rfl⟩ := exists_member_of_lt h hlt
    exact (hbalanced hmember).size
  case cover =>
    intro rank
    constructor
    · intro hmember
      exact ⟨_, partitionIndex_lt h hmember, mem_partitionRanks_iff.2 ⟨hmember, rfl⟩⟩
    · rintro ⟨partition, -, hmem⟩
      exact (mem_partitionRanks_iff.1 hmem).1
  case halves =>
    intro partition hlt
    obtain ⟨first, hfirst, rfl⟩ := exists_member_of_lt h hlt
    obtain ⟨second, hsecond, hne, hperm⟩ := (hbalanced hfirst).exists_classes hfirst
    have hmember := (mem_group_iff.1 hsecond).1
    exact ⟨first, second, hne, hperm, (hbalanced hfirst).length_chassisClass hfirst,
      (hbalanced hmember).length_chassisClass hmember⟩

/-- The counterparts of a member in the other partitions. -/
structure Paired (topology : Topology) (rank : Rank) : Prop where
  one : ∀ partition < topology.partitionCount, partition ≠ topology.partitionIndex rank →
    ∃! other, other ∈ topology.counterparts rank ∧ topology.partitionIndex other = partition
  elsewhere : ∀ other ∈ topology.counterparts rank, topology.hasMember other = true ∧
    topology.partitionIndex other < topology.partitionCount ∧
      topology.partitionIndex other ≠ topology.partitionIndex rank
  ascending : (topology.counterparts rank).Pairwise (· < ·)
  length : (topology.counterparts rank).length = topology.partitionCount - 1
  symm : ∀ other, topology.hasMember other = true →
    (other ∈ topology.counterparts rank ↔ rank ∈ topology.counterparts other)

theorem paired_of_ofMembers (h : ofMembers members localRank request = .ok topology)
    (hmember : topology.hasMember rank = true) : topology.Paired rank := by
  have hlength := length_counterparts h hmember
  constructor
  case one => exact fun partition hlt hne => existsUnique_counterpart h hlt hne
  case elsewhere =>
    intro other hmem
    obtain ⟨-, hother, -, hne⟩ := mem_counterparts_iff.1 hmem
    exact ⟨hother, partitionIndex_lt h hother, hne⟩
  case ascending => exact Forwarding.pairwise_counterparts topology rank
  case length => omega
  case symm =>
    intro other hother
    rw [mem_counterparts_iff, mem_counterparts_iff, hmember, hother,
      eq_comm (a := other.toNat % 8), ne_comm]

/-- Whatever was accepted as a topology has the structure of its profile. -/
theorem structured_of_ofMembers (h : ofMembers members localRank request = .ok topology) :
    (topology.profile ≠ .pair → topology.Divided) ∧
      (∀ rank, topology.hasMember rank = true → topology.Paired rank) ∧
      topology.receiveCount =
        (topology.partitionRanks (topology.partitionIndex topology.localRank)).length - 1 ∧
      topology.networkLinkCount = topology.partitionCount - 1 := by
  have hlocal := hasMember_localRank h
  refine ⟨divided_of_ofMembers h, fun rank hmember => paired_of_ofMembers h hmember, ?_,
    (paired_of_ofMembers h hlocal).length⟩
  have hself : topology.localRank ∈ topology.group topology.localRank :=
    mem_group_iff.2 ⟨hlocal, beq_self_eq_true _⟩
  have hpeers := Balanced.length_filter_ne (topology.nodup_partitionRanks _) hself
  rw [← length_peers h hlocal]
  exact Nat.eq_sub_of_add_eq hpeers

/-- Sixteen members make a hypercube of two partitions, in which every member has one
counterpart. -/
theorem structured_of_ofMembers_sixteen : ∃ topology,
    ofMembers (Layout.members 16) 3 .auto = .ok topology ∧ topology.profile = .hypercube ∧
      topology.counterparts 3 = [11] ∧ topology.chassisMates 3 = [0, 1, 2] ∧ topology.Divided ∧
      topology.Paired 3 := by
  have hbuilt : ((ofMembers (Layout.members 16) 3 .auto).toOption.map fun topology =>
      (topology.profile, topology.counterparts 3, topology.chassisMates 3, topology.hasMember 3)) =
        some (.hypercube, [11], [0, 1, 2], true) := by
    decide +kernel
  obtain ⟨topology, haccepted, hfacts⟩ := Option.map_eq_some_iff.1 hbuilt
  simp only [Prod.mk.injEq] at hfacts
  obtain ⟨hprofile, hcounterparts, hmates, hmember⟩ := hfacts
  have haccepted := eq_ok_of_toOption haccepted
  have hstructured := structured_of_ofMembers haccepted
  exact ⟨topology, haccepted, hprofile, hcounterparts, hmates, hstructured.1 (by simp [hprofile]),
    hstructured.2.1 3 hmember⟩

end MeshFormation.Topology
