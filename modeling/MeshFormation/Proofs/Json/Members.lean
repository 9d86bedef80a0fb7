import MeshFormation.Json.Object

/-!
# Members picked by name

An object whose names all stand for a text is searched by name. A member is found if it is there
once, and its value is taken as a word or a text if it is written as one.
-/

namespace MeshFormation.Json

variable {members : List (Text × Value)} {name : String} {value other : Value}

/-- There is one member of a name, and it has the given value. -/
def Once (members : List (Text × Value)) (name : String) (value : Value) : Prop :=
  ∃ before after, members = before ++ (some name, value) :: after ∧
    ∀ entry ∈ before ++ after, entry.1 ≠ some name

/-- The value is an integer without sign, fraction and exponent. -/
def Integer (value : Value) (n : Nat) : Prop :=
  ∃ number, value = .number number ∧ number.negative = false ∧ number.fraction = none ∧
    number.exponent = none ∧ Nat.ofDigitChars 10 number.whole 0 = n

namespace Once

theorem mem (h : Once members name value) : (some name, value) ∈ members := by
  obtain ⟨before, after, rfl, -⟩ := h
  exact List.mem_append_right _ List.mem_cons_self

theorem eq_of_mem (h : Once members name value) (hmem : (some name, other) ∈ members) :
    other = value := by
  obtain ⟨before, after, rfl, hothers⟩ := h
  rw [List.mem_append, List.mem_cons] at hmem
  rcases hmem with hbefore | heq | hafter
  · exact absurd rfl (hothers _ (List.mem_append_left _ hbefore))
  · exact (Prod.mk.inj heq).2
  · exact absurd rfl (hothers _ (List.mem_append_right _ hafter))

theorem countP_eq (h : Once members name value) : members.countP (·.1 == some name) = 1 := by
  obtain ⟨before, after, rfl, hothers⟩ := h
  have hnone : (before ++ after).countP (·.1 == some name) = 0 := by
    rw [List.countP_eq_zero]
    exact fun entry hentry => by simpa using hothers entry hentry
  rw [List.countP_append] at hnone
  rw [List.countP_append, List.countP_cons_of_pos (by simp)]
  omega

end Once

/-- Members whose names all stand for a text. -/
def withTexts (members : List (String × Value)) : List (Text × Value) :=
  members.map fun entry => (some entry.1, entry.2)

theorem namedMembers?_eq_some_iff {named : List (String × Value)} :
    namedMembers? members = some named ↔ members = withTexts named := by
  induction members generalizing named with
  | nil => cases named <;> simp [namedMembers?, withTexts]
  | cons entry members ih =>
    obtain ⟨_ | name, value⟩ := entry
    · cases named <;> simp [namedMembers?, withTexts]
    · rw [namedMembers?, Option.map_eq_some_iff]
      constructor
      · rintro ⟨others, hothers, rfl⟩
        rw [ih.1 hothers]
        rfl
      · intro h
        cases named with
        | nil => exact absurd h (by simp [withTexts])
        | cons first others =>
          obtain ⟨hfirst, hothers⟩ := List.cons.inj h
          obtain ⟨hname, rfl⟩ := Prod.mk.inj hfirst
          obtain rfl := Option.some.inj hname
          exact ⟨others, ih.2 hothers, rfl⟩

theorem once_withTexts_iff {named : List (String × Value)} :
    Once (withTexts named) name value ↔
      ∃ before after, named = before ++ (name, value) :: after ∧
        ∀ entry ∈ before ++ after, entry.1 ≠ name := by
  have hnames : ∀ {others : List (String × Value)},
      (∀ entry ∈ withTexts others, entry.1 ≠ some name) ↔ ∀ entry ∈ others, entry.1 ≠ name := by
    intro others
    simp only [withTexts, List.forall_mem_map, ne_eq, Option.some.injEq]
  constructor
  · rintro ⟨before, after, hsplit, hothers⟩
    obtain ⟨first, second, rfl, rfl, hsecond⟩ := List.map_eq_append_iff.1 hsplit
    obtain ⟨⟨_, _⟩, rest, rfl, hentry, rfl⟩ := List.map_eq_cons_iff.1 hsecond
    obtain ⟨hname, rfl⟩ := Prod.mk.inj hentry
    obtain rfl := Option.some.inj hname
    rw [← List.map_append] at hothers
    exact ⟨first, rest, rfl, hnames.1 hothers⟩
  · rintro ⟨before, after, rfl, hothers⟩
    refine ⟨withTexts before, withTexts after, by simp [withTexts], ?_⟩
    rw [withTexts, withTexts, ← List.map_append]
    exact hnames.2 hothers

theorem required?_eq_some_iff {named : List (String × Value)} :
    required? named name = some value ↔ Once (withTexts named) name value := by
  have hvalues : required? named name = some value ↔ valuesOf named name = [value] := by
    unfold required?
    split <;> simp_all
  rw [hvalues, valuesOf, List.map_eq_singleton_iff, once_withTexts_iff]
  constructor
  · rintro ⟨entry, hfilter, rfl⟩
    obtain ⟨before, after, rfl, hbefore, hname, hafter⟩ := List.filter_eq_cons_iff.1 hfilter
    obtain rfl := beq_iff_eq.1 hname
    refine ⟨before, after, rfl, fun entry' hentry => ?_⟩
    rcases List.mem_append.1 hentry with hentry | hentry
    · simpa using hbefore entry' hentry
    · simpa using List.filter_eq_nil_iff.1 hafter entry' hentry
  · rintro ⟨before, after, rfl, hothers⟩
    refine ⟨(name, value), List.filter_eq_cons_iff.2 ⟨before, after, rfl, ?_, by simp, ?_⟩, rfl⟩
    · exact fun entry hentry => by simpa using hothers entry (List.mem_append_left _ hentry)
    · refine List.filter_eq_nil_iff.2 fun entry hentry => ?_
      simpa using hothers entry (List.mem_append_right _ hentry)

theorem text?_eq_some_iff {text : String} :
    value.text? = some text ↔ value = .string (some text) := by
  cases value <;> simp [Value.text?]

theorem toNat?_eq_some_iff {number : Number} {n : Nat} :
    number.toNat? = some n ↔ Integer (.number number) n := by
  obtain ⟨negative, whole, fraction, exponent⟩ := number
  cases negative <;> cases fraction <;> cases exponent <;> simp [Number.toNat?, Integer]

theorem word?_eq_some_iff {word : UInt32} : value.word? = some word ↔ Integer value word.toNat := by
  cases value with
  | number number =>
    rw [← toNat?_eq_some_iff, Value.word?]
    constructor
    · intro h
      split at h
      · rename_i n hn
        split at h
        · rename_i hlt
          rw [hn, ← Option.some.inj h, UInt32.toNat_ofNat_of_lt' hlt]
        · exact absurd h (by simp)
      · exact absurd h (by simp)
    · intro h
      rw [h]
      dsimp only
      rw [if_pos word.toNat_lt, UInt32.ofNat_toNat]
  | null | boolean | string | array | object => simp [Value.word?, Integer]

theorem exists_withTexts_of_isSound (h : (Value.object members).isSound = true) :
    ∃ named, members = withTexts named := by
  rw [Value.isSound] at h
  induction members with
  | nil => exact ⟨[], rfl⟩
  | cons entry members ih =>
    obtain ⟨name, value⟩ := entry
    rw [Value.allMembersSound, Bool.and_eq_true, Bool.and_eq_true] at h
    obtain ⟨text, rfl⟩ := Option.isSome_iff_exists.1 h.1.1
    obtain ⟨named, rfl⟩ := ih h.2
    exact ⟨(text, value) :: named, rfl⟩

end MeshFormation.Json
