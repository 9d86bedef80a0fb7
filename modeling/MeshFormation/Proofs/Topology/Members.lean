import MeshFormation.Topology

/-!
# The members of a topology

A topology that was built from a list of members answers for a rank with the member that the list
states for it, and the same list gives every member the same topology up to the local rank.
-/

namespace MeshFormation.Topology

variable {members : List Member} {request : ProfileRequest} {localRank : Rank}
  {topology : Topology}

theorem fresh_of_gather {table result : Table Member} (h : gather members table = .ok result) :
    (members.map (·.rank)).Nodup ∧ ∀ member ∈ members, table.contains member.rank = false := by
  induction members generalizing table with
  | nil => simp
  | cons member rest ih =>
    rw [gather] at h
    split at h
    · exact absurd h (by simp)
    · rename_i hfree
      obtain ⟨hnodup, hfresh⟩ := ih h
      have hother : ∀ other ∈ rest, other.rank ≠ member.rank ∧
          table.contains other.rank = false := by
        intro other hmem
        have hnone := hfresh other hmem
        rw [Table.contains_eq_isSome, Table.get?_insert] at hnone
        split at hnone
        · exact absurd hnone (by simp)
        · rename_i hne
          exact ⟨hne, hnone⟩
      refine ⟨?_, ?_⟩
      · rw [List.map_cons, List.nodup_cons]
        refine ⟨fun hmem => ?_, hnodup⟩
        obtain ⟨other, hother', heq⟩ := List.mem_map.1 hmem
        exact (hother other hother').1 heq
      · intro other hmem
        rcases List.mem_cons.1 hmem with rfl | hmem
        · simpa using hfree
        · exact (hother other hmem).2

/-- A gathered table holds what it held before and the members of the list. -/
theorem get?_gather {table result : Table Member} (h : gather members table = .ok result)
    (rank : Rank) :
    result.get? rank = (members.find? (·.rank == rank)).or (table.get? rank) := by
  induction members generalizing table with
  | nil =>
    obtain rfl := Except.ok.inj h
    rfl
  | cons member rest ih =>
    have hnodup := (fresh_of_gather h).1
    rw [gather] at h
    split at h
    · exact absurd h (by simp)
    · rw [ih h, Table.get?_insert]
      by_cases hrank : member.rank = rank
      · subst hrank
        have hnone : rest.find? (·.rank == member.rank) = none := by
          rw [List.find?_eq_none]
          intro other hmem heq
          rw [List.map_cons, List.nodup_cons] at hnodup
          exact hnodup.1 (List.mem_map.2 ⟨other, hmem, by simpa using heq⟩)
        simp [hnone]
      · simp [hrank, Ne.symm hrank]

theorem size_gather {table result : Table Member} (h : gather members table = .ok result) :
    result.size = table.size + members.length := by
  induction members generalizing table with
  | nil =>
    obtain rfl := Except.ok.inj h
    rfl
  | cons member rest ih =>
    rw [gather] at h
    split at h
    · exact absurd h (by simp)
    · rename_i hfree
      rw [ih h, Table.size_insert, if_neg hfree, List.length_cons]
      omega

theorem ofMembers_eq_ok_iff :
    ofMembers members localRank request = .ok topology ↔
      ∃ table profile, gather members ∅ = .ok table ∧ table.contains localRank = true ∧
        request.resolve members.length = .ok profile ∧ topology = ⟨profile, localRank, table⟩ ∧
        topology.fault? = none := by
  unfold ofMembers
  constructor
  · intro h
    split at h
    · exact absurd h (by simp)
    rename_i table htable
    split at h
    · exact absurd h (by simp)
    rename_i hlocal
    split at h
    · exact absurd h (by simp)
    rename_i profile hprofile
    dsimp only at h
    split at h
    · exact absurd h (by simp)
    rename_i hfault
    obtain rfl := Except.ok.inj h
    exact ⟨table, profile, htable, by simpa using hlocal, hprofile, rfl, hfault⟩
  · rintro ⟨table, profile, htable, hlocal, hprofile, rfl, hfault⟩
    simp [htable, hlocal, hprofile, hfault]

def seenFrom (topology : Topology) (rank : Rank) : Topology := { topology with localRank := rank }

theorem localRank_of_ofMembers (h : ofMembers members localRank request = .ok topology) :
    topology.localRank = localRank := by
  obtain ⟨table, profile, -, -, -, rfl, -⟩ := ofMembers_eq_ok_iff.1 h
  rfl

theorem fault?_of_ofMembers (h : ofMembers members localRank request = .ok topology) :
    topology.fault? = none := by
  obtain ⟨table, profile, -, -, -, -, hfault⟩ := ofMembers_eq_ok_iff.1 h
  exact hfault

/-- A topology states for a rank the member that the list states for it. -/
theorem member?_of_ofMembers (h : ofMembers members localRank request = .ok topology)
    (rank : Rank) : topology.member? rank = members.find? (·.rank == rank) := by
  obtain ⟨table, profile, htable, -, -, rfl, -⟩ := ofMembers_eq_ok_iff.1 h
  simp [member?, get?_gather htable rank]

theorem hasMember_of_ofMembers (h : ofMembers members localRank request = .ok topology)
    (rank : Rank) : topology.hasMember rank = true ↔ rank ∈ members.map (·.rank) := by
  have hmember := member?_of_ofMembers h rank
  rw [member?] at hmember
  rw [hasMember, Table.contains_eq_isSome, hmember, List.find?_isSome, List.mem_map]
  simp

theorem hasMember_localRank (h : ofMembers members localRank request = .ok topology) :
    topology.hasMember topology.localRank = true := by
  obtain ⟨table, profile, -, hlocal, -, rfl, -⟩ := ofMembers_eq_ok_iff.1 h
  exact hlocal

/-- Every member gets the topology that one of them gets, up to the local rank. -/
theorem ofMembers_seenFrom (h : ofMembers members localRank request = .ok topology) {rank : Rank}
    (hrank : rank ∈ members.map (·.rank)) :
    ofMembers members rank request = .ok (topology.seenFrom rank) := by
  have hmember := (hasMember_of_ofMembers h rank).2 hrank
  obtain ⟨table, profile, htable, -, hprofile, rfl, hfault⟩ := ofMembers_eq_ok_iff.1 h
  exact ofMembers_eq_ok_iff.2 ⟨table, profile, htable, hmember, hprofile, rfl, hfault⟩

end MeshFormation.Topology
