import MeshFormation.Proofs.Topology.Chassis

/-!
# Counterparts in the other partitions

A member of a hypercube has one counterpart in each partition but its own, so it wants one network
link less than there are partitions. The other profiles have a single partition and no network
links. How many partitions there are depends on the list of members and on the request, and not on
the local rank.
-/

namespace MeshFormation.Topology

variable {topology : Topology} {members : List Member} {request : ProfileRequest}
  {localRank rank : Rank}

theorem length_counterparts_of_hypercube (hprofile : topology.profile = .hypercube)
    (h : topology.fault? = none) (hmember : topology.hasMember rank = true) :
    (topology.counterparts rank).length + 1 = topology.partitionCount := by
  obtain ⟨hsize, hranks, -⟩ := ranks_of_hypercube hprofile h
  have hmem := hranks.mem_iff.1 (mem_ranks_iff.2 hmember)
  have hlength := (hranks.filter fun other =>
    other.toNat % 8 == rank.toNat % 8 && !topology.sharePartition rank other).length_eq
  -- The ranks are the numbers below the size, so this is a count for each of three sizes.
  have hcount : ((List.range topology.size).map UInt32.ofNat).all (fun number =>
      (((List.range topology.size).map UInt32.ofNat).filter fun other =>
        other.toNat % 8 == number.toNat % 8 && !(number.toNat / 8 == other.toNat / 8)).length + 1 ==
          topology.size / 8) = true := by
    rcases hsize with hsize | hsize | hsize <;> rw [hsize] <;> decide
  have hrank := beq_iff_eq.1 (List.all_eq_true.1 hcount rank hmem)
  simp only [counterparts, partitionCount, sharePartition, partitionIndex, hprofile, partitionSize]
    at hlength ⊢
  rw [hlength]
  exact hrank

/-- A member has a counterpart in each partition but its own. -/
theorem length_counterparts (h : ofMembers members localRank request = .ok topology)
    (hmember : topology.hasMember rank = true) :
    (topology.counterparts rank).length + 1 = topology.partitionCount := by
  cases hprofile : topology.profile with
  | pair | cube => simp [counterparts, partitionCount, hprofile]
  | hypercube => exact length_counterparts_of_hypercube hprofile (fault?_of_ofMembers h) hmember

/-- All members see the same number of partitions. -/
theorem partitionCount_congr {other : Topology} {otherRank : Rank}
    (h : ofMembers members localRank request = .ok topology)
    (hother : ofMembers members otherRank request = .ok other) :
    other.partitionCount = topology.partitionCount := by
  have hrank : otherRank ∈ members.map (·.rank) := by
    rw [← hasMember_of_ofMembers hother, ← localRank_of_ofMembers hother]
    exact hasMember_localRank hother
  obtain rfl := Except.ok.inj (hother.symm.trans (ofMembers_seenFrom h hrank))
  rfl

end MeshFormation.Topology
