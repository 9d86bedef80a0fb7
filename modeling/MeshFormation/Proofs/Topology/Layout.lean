import MeshFormation.Proofs.Topology.Chassis
import Mathlib.Data.List.Dedup
import Mathlib.Data.List.Perm.Lattice

/-!
# Two chassis of four

A group of members is laid out as the profiles demand it if four members sit in one chassis and four
in another one. The check finds a fault in every other group, and what it says of such a group does
not depend on the order of the members.
-/

namespace MeshFormation

variable {names other : List String} {name : String} {fault : ChassisFault}

/-- In an ascending list the first element that passes a test is the least one. -/
theorem find?_eq_some_iff_of_pairwise {α : Type} {before : α → α → Prop} {test : α → Bool}
    {list : List α} {found : α}
    (hasymm : ∀ first second, before first second → ¬before second first)
    (h : list.Pairwise before) : list.find? test = some found ↔
      found ∈ list ∧ test found = true ∧ ∀ other ∈ list, before other found →
        test other = false := by
  induction list with
  | nil => simp
  | cons head rest ih =>
    obtain ⟨hhead, hrest⟩ := List.pairwise_cons.1 h
    rw [List.find?_cons]
    cases htest : test head with
    | true =>
      simp only [Option.some.injEq]
      constructor
      · rintro rfl
        refine ⟨List.mem_cons_self, htest, fun other hmem hbefore => ?_⟩
        rcases List.mem_cons.1 hmem with rfl | hmem
        · exact absurd hbefore (hasymm _ _ hbefore)
        · exact absurd hbefore (hasymm _ _ (hhead other hmem))
      · rintro ⟨hmem, hfound, hleast⟩
        rcases List.mem_cons.1 hmem with rfl | hmem
        · rfl
        · rw [hleast head List.mem_cons_self (hhead found hmem)] at htest
          exact absurd htest (by simp)
    | false =>
      rw [ih hrest]
      constructor
      · rintro ⟨hmem, hfound, hleast⟩
        refine ⟨List.mem_cons_of_mem _ hmem, hfound, fun other hother hbefore => ?_⟩
        rcases List.mem_cons.1 hother with rfl | hother
        · exact htest
        · exact hleast other hother hbefore
      · rintro ⟨hmem, hfound, hleast⟩
        rcases List.mem_cons.1 hmem with rfl | hmem
        · exact absurd (htest.symm.trans hfound) (by simp)
        · exact ⟨hmem, hfound, fun other hother => hleast other (List.mem_cons_of_mem _ hother)⟩

/-! ## The names of a group -/

theorem pairwise_addName (h : names.Pairwise (· < ·)) : (addName name names).Pairwise (· < ·) := by
  induction names with
  | nil => exact List.pairwise_singleton _ _
  | cons head rest ih =>
    obtain ⟨hhead, hrest⟩ := List.pairwise_cons.1 h
    rw [addName]
    split
    · rename_i hlt
      refine List.pairwise_cons.2 ⟨fun other hmem => ?_, h⟩
      rcases List.mem_cons.1 hmem with rfl | hmem
      · exact hlt
      · exact String.lt_trans hlt (hhead other hmem)
    split
    · exact h
    · rename_i hnlt hne
      have hlt : head < name := by
        by_contra hnot
        exact hne (String.le_antisymm (String.not_lt.1 hnot) (String.not_lt.1 hnlt))
      refine List.pairwise_cons.2 ⟨fun other hmem => ?_, ih hrest⟩
      rcases mem_addName_iff.1 hmem with rfl | hmem
      · exact hlt
      · exact hhead other hmem

theorem pairwise_distinctNames (names : List String) : (distinctNames names).Pairwise (· < ·) := by
  induction names with
  | nil => exact .nil
  | cons head rest ih => exact pairwise_addName ih

theorem nodup_distinctNames (names : List String) : (distinctNames names).Nodup :=
  (pairwise_distinctNames names).imp fun {first second} hlt heq => by
    rw [heq] at hlt
    exact String.lt_irrefl second hlt

theorem length_distinctNames (names : List String) :
    (distinctNames names).length = names.dedup.length := by
  have hperm : (distinctNames names).Perm names.dedup :=
    (List.perm_ext_iff_of_nodup (nodup_distinctNames names) names.nodup_dedup).2 fun name => by
      rw [mem_distinctNames_iff, List.mem_dedup]
  exact hperm.length_eq

/-- Four members of a group sit in one chassis and the other four in another one. -/
def FourAndFour (names : List String) : Prop :=
  ∃ first second, first ≠ second ∧
    names.Perm (List.replicate chassisSize first ++ List.replicate chassisSize second)

/-- A fault says of a group that the number of its chassis is not two, or else which of the two is
the first in the order of names that does not have four members. -/
inductive LayoutFault (names : List String) : ChassisFault → Prop where
  | count (count : names.dedup.length ≠ 2) : LayoutFault names (.chassisCount names.dedup.length)
  | size {name : String} (count : names.dedup.length = 2) (occurs : name ∈ names)
    (wrong : names.count name ≠ chassisSize)
    (least : ∀ other ∈ names, other < name → names.count other = chassisSize) :
    LayoutFault names (.chassisSize name (names.count name))

theorem LayoutFault.perm (h : LayoutFault names fault) (hperm : names.Perm other) :
    LayoutFault other fault := by
  have hlength : names.dedup.length = other.dedup.length := hperm.dedup.length_eq
  cases h with
  | count count =>
    rw [hlength] at count ⊢
    exact .count count
  | size count occurs wrong least =>
    rw [hperm.count_eq] at wrong ⊢
    refine .size (hlength ▸ count) (hperm.mem_iff.1 occurs) wrong fun name hmem hlt => ?_
    rw [← hperm.count_eq]
    exact least name (hperm.mem_iff.2 hmem) hlt

theorem FourAndFour.perm (h : FourAndFour names) (hperm : names.Perm other) :
    FourAndFour other := by
  obtain ⟨first, second, hne, hsplit⟩ := h
  exact ⟨first, second, hne, hperm.symm.trans hsplit⟩

theorem chassisFault?_eq_some_iff : chassisFault? names = some fault ↔ LayoutFault names fault := by
  rw [chassisFault?]
  split
  · rename_i hlength
    rw [length_distinctNames] at hlength ⊢
    constructor
    · intro h
      obtain rfl := Option.some.inj h
      exact .count hlength
    · intro h
      cases h with
      | count => rfl
      | size count => exact absurd count hlength
  · rename_i hlength
    have hcount : names.dedup.length = 2 := by rwa [length_distinctNames, not_not] at hlength
    have hfirst : ∀ name,
        (distinctNames names).find? (fun name => names.count name != chassisSize) = some name ↔
          name ∈ names ∧ names.count name ≠ chassisSize ∧
            ∀ other ∈ names, other < name → names.count other = chassisSize := by
      intro name
      rw [find?_eq_some_iff_of_pairwise (fun _ _ => String.lt_asymm) (pairwise_distinctNames names)]
      simp [mem_distinctNames_iff]
    rw [Option.map_eq_some_iff]
    constructor
    · rintro ⟨name, hname, rfl⟩
      obtain ⟨hoccurs, hwrong, hleast⟩ := (hfirst name).1 hname
      exact .size hcount hoccurs hwrong hleast
    · intro h
      cases h with
      | count count => exact absurd hcount count
      | size count occurs wrong least => exact ⟨_, (hfirst _).2 ⟨occurs, wrong, least⟩, rfl⟩

theorem FourAndFour.of_chassisFault? (h : chassisFault? names = none) : FourAndFour names := by
  have hcounts := (of_chassisFault?_eq_none h).2
  rw [chassisFault?] at h
  split at h
  · exact absurd h (by simp)
  rename_i hlength
  obtain ⟨first, second, hnames⟩ := List.length_eq_two.1 (not_not.1 hlength)
  have hmem : ∀ name, name ∈ names ↔ name = first ∨ name = second := by
    intro name
    rw [← mem_distinctNames_iff, hnames]
    simp
  have hne : first ≠ second := by
    have hnodup := nodup_distinctNames names
    rw [hnames] at hnodup
    simpa using hnodup
  refine ⟨first, second, hne, List.perm_iff_count.2 fun name => ?_⟩
  rw [List.count_append, List.count_replicate, List.count_replicate]
  by_cases hname : name ∈ names
  · rw [hcounts name hname]
    rcases (hmem name).1 hname with rfl | rfl
    · simp [hne.symm]
    · simp [hne]
  · rw [List.count_eq_zero_of_not_mem hname]
    have hother := not_or.1 (mt (hmem name).2 hname)
    simp [Ne.symm hother.1, Ne.symm hother.2]

theorem FourAndFour.count_eq (h : FourAndFour names) {name : String} (hname : name ∈ names) :
    names.count name = chassisSize := by
  obtain ⟨first, second, hne, hperm⟩ := h
  have hcases : name = first ∨ name = second := by simpa [hperm.mem_iff, chassisSize] using hname
  rw [hperm.count_eq, List.count_append, List.count_replicate, List.count_replicate]
  rcases hcases with rfl | rfl
  · simp [hne.symm]
  · simp [hne]

theorem FourAndFour.length_dedup (h : FourAndFour names) : names.dedup.length = 2 := by
  obtain ⟨first, second, hne, hperm⟩ := h
  have hpair : names.dedup.Perm [first, second] :=
    (List.perm_ext_iff_of_nodup names.nodup_dedup (by simpa using hne)).2 fun name => by
      rw [List.mem_dedup, hperm.mem_iff]
      simp [chassisSize]
  exact hpair.length_eq

/-- The check passes exactly the groups that are split four and four. -/
theorem chassisFault?_eq_none_iff : chassisFault? names = none ↔ FourAndFour names := by
  constructor
  · exact FourAndFour.of_chassisFault?
  · intro h
    cases hfault : chassisFault? names with
    | none => rfl
    | some fault =>
      cases chassisFault?_eq_some_iff.1 hfault with
      | count count => exact absurd h.length_dedup count
      | size count occurs wrong least => exact absurd (h.count_eq occurs) wrong

end MeshFormation
