import MeshFormation.Proofs.Json.Literals

/-!
# The reader follows the grammar

A reader takes as much of a text as the grammar allows. What it answers therefore belongs to the
grammar, and what belongs to the grammar is read, wherever the text behind it cannot continue it. So
a whole text is read as a value exactly if it is a document of that value.
-/

namespace MeshFormation.Json

variable {c : Char} {text start literal rest : List Char} {value : Value}

/-! ## Lists -/

theorem stops_cons (hc : isBlank c = true ∨ c = ',' ∨ c = ']' ∨ c = '}') : Stops (c :: rest) := by
  rintro _ _ ⟨⟩
  rw [isBlank] at hc
  simp only [Bool.or_eq_true, beq_iff_eq] at hc
  rcases hc with (((rfl | rfl) | rfl) | rfl) | rfl | rfl | rfl <;> decide

/-- A blank or a separator stops whatever number stands in front of it. -/
theorem stops_of_blanks (h : Blanks text (c :: rest)) (hc : c = ',' ∨ c = ']' ∨ c = '}') :
    Stops text := by
  cases h with
  | none => exact stops_cons (.inr hc)
  | more blank => exact stops_cons (.inl blank)

theorem stops_of_blanks_nil (h : Blanks text []) : Stops text := by
  cases h with
  | none => exact fun heq => absurd heq (by simp)
  | more blank => exact stops_cons (.inl blank)

/-- A reader takes what the grammar describes, behind any blanks, and nothing else. -/
structure Reads {α : Type} (reader : List Char → Option (α × List Char))
    (part : List Char → α → List Char → Prop) : Prop where
  sound : ∀ {text value rest}, reader text = some (value, rest) →
    ∃ start, Blanks text start ∧ part start value rest
  complete : ∀ {text start value rest}, Blanks text start → part start value rest → Stops rest →
    reader text = some (value, rest)
  opens : ∀ {start value rest}, part start value rest → ∃ c tail, start = c :: tail ∧ Opens c
  shorter : ∀ {start value rest}, part start value rest → rest.length < start.length

/-- Parts separated by commas up to a closing character, at least one. -/
def readSeparated {α : Type} (reader : List Char → Option (α × List Char)) (close : Char) :
    Nat → List Char → Option (List α × List Char)
  | 0, _ => none
  | rounds + 1, text => (reader text).bind fun (value, rest) =>
    match skipBlank rest with
    | ',' :: rest =>
      (readSeparated reader close rounds rest).map fun (values, rest) => (value :: values, rest)
    | c :: rest => if c = close then some ([value], rest) else none
    | [] => none

theorem readItems_eq (readItem : List Char → Option (Value × List Char)) (rounds : Nat)
    (text : List Char) :
    readItems readItem rounds text = readSeparated readItem ']' rounds text := by
  induction rounds generalizing text with
  | zero => rfl
  | succ rounds ih =>
    rw [readItems, readSeparated]
    cases readItem text with
    | none => rfl
    | some found =>
      rw [Option.bind_some]
      dsimp only
      split
      · rename_i behind hskip
        rw [hskip, ih]
        change _ = Option.map _ (readSeparated readItem ']' rounds behind)
        cases readSeparated readItem ']' rounds behind <;> rfl
      · rename_i hskip
        rw [hskip]
        rfl
      · rename_i hcomma hbracket
        split
        · rename_i hskip
          exact absurd hskip (hcomma _)
        · rename_i hskip
          rw [if_neg]
          rintro rfl
          exact hbracket _ hskip
        · rfl

theorem readMembers_eq (readItem : List Char → Option (Value × List Char)) (rounds : Nat)
    (text : List Char) :
    readMembers readItem rounds text = readSeparated (readMember readItem) '}' rounds text := by
  induction rounds generalizing text with
  | zero => rfl
  | succ rounds ih =>
    rw [readMembers, readSeparated]
    cases readMember readItem text with
    | none => rfl
    | some found =>
      rw [Option.bind_some]
      dsimp only
      split
      · rename_i behind hskip
        rw [hskip, ih]
        change _ = Option.map _ (readSeparated (readMember readItem) '}' rounds behind)
        cases readSeparated (readMember readItem) '}' rounds behind <;> rfl
      · rename_i hskip
        rw [hskip]
        rfl
      · rename_i hcomma hbrace
        split
        · rename_i hskip
          exact absurd hskip (hcomma _)
        · rename_i hskip
          rw [if_neg]
          rintro rfl
          exact hbrace _ hskip
        · rfl

section Separated

variable {α : Type} {reader : List Char → Option (α × List Char)}
  {part : List Char → α → List Char → Prop} {close : Char} {values : List α} {rounds : Nat}

theorem Reads.of_readSeparated (h : Reads reader part)
    (hread : readSeparated reader close rounds text = some (values, rest)) :
    ∃ start, Blanks text start ∧ SeparatedText part close start values rest := by
  induction rounds generalizing text values with
  | zero => exact absurd hread (by simp [readSeparated])
  | succ rounds ih =>
    obtain ⟨⟨value, after⟩, hvalue, hbehind⟩ := Option.bind_eq_some_iff.1 hread
    obtain ⟨start, hstart, hpart⟩ := h.sound hvalue
    have hafter := blanks_skipBlank after
    dsimp only at hbehind
    split at hbehind
    · rename_i behind hskip
      rw [hskip] at hafter
      obtain ⟨⟨others, _⟩, hothers, heq⟩ := Option.map_eq_some_iff.1 hbehind
      obtain ⟨rfl, rfl⟩ := Prod.mk.inj heq
      obtain ⟨next, hnext, hlist⟩ := ih hothers
      exact ⟨start, hstart, .more hpart hafter hnext hlist⟩
    · rename_i c behind hcomma hskip
      rw [hskip] at hafter
      by_cases hclose : c = close
      · rw [if_pos hclose] at hbehind
        obtain ⟨rfl, rfl⟩ := Prod.mk.inj (Option.some.inj hbehind)
        exact ⟨start, hstart, .last hpart (hclose ▸ hafter)⟩
      · rw [if_neg hclose] at hbehind
        exact absurd hbehind (by simp)
    · exact absurd hbehind (by simp)

theorem Reads.readSeparated_eq (h : Reads reader part) (hclose : close = ']' ∨ close = '}')
    (hlist : SeparatedText part close start values rest) (hstart : Blanks text start)
    (hrounds : start.length ≤ rounds) :
    readSeparated reader close rounds text = some (values, rest) := by
  induction hlist generalizing text rounds with
  | @last start after rest value content closes =>
    have hshort := h.shorter content
    obtain ⟨rounds, rfl⟩ := Nat.exists_eq_add_one_of_ne_zero (show rounds ≠ 0 by omega)
    have hblank : isBlank close = false := by
      rcases hclose with rfl | rfl <;> rfl
    rw [readSeparated, h.complete hstart content (stops_of_blanks closes (.inr hclose)),
      Option.bind_some]
    dsimp only
    rw [skipBlank_cons closes hblank]
    rcases hclose with rfl | rfl <;> rfl
  | @more start after behind next rest value values content comma blanks others ih =>
    have hshort := h.shorter content
    have hbehind := comma.length_le
    have hnext := blanks.length_le
    rw [List.length_cons] at hbehind
    obtain ⟨rounds, rfl⟩ := Nat.exists_eq_add_one_of_ne_zero (show rounds ≠ 0 by omega)
    rw [readSeparated, h.complete hstart content (stops_of_blanks comma (.inl rfl)),
      Option.bind_some]
    dsimp only
    rw [skipBlank_cons comma rfl]
    change Option.map _ (readSeparated reader close rounds behind) = _
    rw [ih blanks (by omega)]
    rfl

theorem SeparatedText.head (h : Reads reader part)
    (hlist : SeparatedText part close start values rest) :
    ∃ c tail, start = c :: tail ∧ Opens c := by
  cases hlist with
  | last content => exact h.opens content
  | more content => exact h.opens content

theorem SeparatedText.length_lt (h : Reads reader part)
    (hlist : SeparatedText part close start values rest) : rest.length < start.length := by
  induction hlist with
  | last content closes =>
    have hshort := h.shorter content
    have hafter := closes.length_le
    rw [List.length_cons] at hafter
    omega
  | more content comma blanks _ ih =>
    have hshort := h.shorter content
    have hbehind := comma.length_le
    have hnext := blanks.length_le
    rw [List.length_cons] at hbehind
    omega

theorem ListText.length_lt (h : Reads reader part) (hlist : ListText part close text values rest) :
    rest.length < text.length := by
  rcases hlist with closes | ⟨blanks, separated⟩
  · exact closes.length_le
  · exact Nat.lt_of_lt_of_le (separated.length_lt h) blanks.length_le

/-- The parts of a list behind its opening character, up to the closing one. -/
def readList {α : Type} (reader : List Char → Option (α × List Char)) (close : Char)
    (text : List Char) : Option (List α × List Char) :=
  match skipBlank text with
  | c :: rest =>
    if c = close then some ([], rest) else readSeparated reader close (rest.length + 2) (c :: rest)
  | [] => readSeparated reader close 1 []

theorem Reads.readList_eq_some_iff (h : Reads reader part) (hclose : close = ']' ∨ close = '}') :
    readList reader close text = some (values, rest) ↔ ListText part close text values rest := by
  constructor
  · intro hread
    have htext := blanks_skipBlank text
    rw [readList] at hread
    split at hread
    · rename_i c behind hskip
      rw [hskip] at htext
      by_cases hc : c = close
      · rw [if_pos hc] at hread
        obtain ⟨rfl, rfl⟩ := Prod.mk.inj (Option.some.inj hread)
        exact .empty (hc ▸ htext)
      · rw [if_neg hc] at hread
        obtain ⟨start, hstart, hlist⟩ := h.of_readSeparated hread
        exact .parts (htext.trans hstart) hlist
    · rename_i hskip
      rw [hskip] at htext
      obtain ⟨start, hstart, hlist⟩ := h.of_readSeparated hread
      exact .parts (htext.trans hstart) hlist
  · rintro (closes | ⟨blanks, hlist⟩)
    · have hblank : isBlank close = false := by
        rcases hclose with rfl | rfl <;> rfl
      rw [readList, skipBlank_cons closes hblank]
      exact if_pos rfl
    · obtain ⟨c, tail, rfl, hblank, hbracket, hbrace⟩ := hlist.head h
      have hc : c ≠ close := by
        rcases hclose with rfl | rfl
        · exact hbracket
        · exact hbrace
      rw [readList, skipBlank_cons blanks hblank]
      exact (if_neg hc).trans (h.readSeparated_eq hclose hlist .none (Nat.le_succ _))

end Separated

variable {inner : List Char → Value → List Char → Prop}
  {readItem : List Char → Option (Value × List Char)}

theorem Reads.readMember (h : Reads readItem inner) :
    Reads (readMember readItem) (MemberText inner) where
  sound := by
    intro text value rest hread
    have htext := blanks_skipBlank text
    unfold Json.readMember at hread
    split at hread
    · rename_i literal hskip
      rw [hskip] at htext
      split at hread
      · exact absurd hread (by simp)
      · rename_i name after hname
        have hafter := blanks_skipBlank after
        split at hread
        · rename_i behind hcolon
          rw [hcolon] at hafter
          obtain ⟨⟨item, _⟩, hitem, heq⟩ := Option.map_eq_some_iff.1 hread
          obtain ⟨rfl, rfl⟩ := Prod.mk.inj heq
          obtain ⟨next, hnext, hinner⟩ := h.sound hitem
          exact ⟨_, htext, .mk (readText_eq_some_iff.1 hname) hafter hnext hinner⟩
        · exact absurd hread (by simp)
    · exact absurd hread (by simp)
  complete := by
    rintro text start value rest hstart ⟨literal, colon, blanks, content⟩ hrest
    simp only [Json.readMember, skipBlank_cons hstart rfl, readText_eq_some_iff.2 literal,
      skipBlank_cons colon rfl, h.complete blanks content hrest, Option.map_some]
  opens := by
    rintro start value rest ⟨literal, colon, blanks, content⟩
    exact ⟨_, _, rfl, rfl, by decide, by decide⟩
  shorter := by
    rintro start value rest ⟨literal, colon, blanks, content⟩
    have hliteral := literal.length_lt
    have hcolon := colon.length_le
    have hblanks := blanks.length_le
    have hcontent := h.shorter content
    simp only [List.length_cons] at hcolon ⊢
    omega

/-! ## Values -/

section Brackets

variable {levels : Nat}

theorem readValue_array (hskip : skipBlank text = '[' :: rest) :
    readValue (levels + 1) text =
      (readList (readValue levels) ']' rest).map fun (items, rest) => (.array items, rest) := by
  simp only [readValue, hskip, readList, readItems_eq]
  cases skipBlank rest with
  | nil => rfl
  | cons c behind =>
    split
    · rename_i heq
      obtain ⟨rfl, rfl⟩ := List.cons.inj heq
      rfl
    · rename_i hclose
      dsimp only
      rw [if_neg (fun hc : c = _ => hclose behind (by rw [hc]))]
      rfl

theorem readValue_object (hskip : skipBlank text = '{' :: rest) :
    readValue (levels + 1) text =
      (readList (readMember (readValue levels)) '}' rest).map
        fun (members, rest) => (.object members, rest) := by
  simp only [readValue, hskip, readList, readMembers_eq]
  cases skipBlank rest with
  | nil => rfl
  | cons c behind =>
    split
    · rename_i heq
      obtain ⟨rfl, rfl⟩ := List.cons.inj heq
      rfl
    · rename_i hclose
      dsimp only
      rw [if_neg (fun hc : c = _ => hclose behind (by rw [hc]))]
      rfl

theorem readValue_eq_readScalar (harray : ∀ tail, skipBlank text ≠ '[' :: tail)
    (hobject : ∀ tail, skipBlank text ≠ '{' :: tail) :
    readValue levels text = readScalar (skipBlank text) := by
  unfold readValue
  split
  all_goals
    split
    · exact absurd ‹_› (harray _)
    · exact absurd ‹_› (hobject _)
    · rfl

theorem readValue_of_scalarText (h : ScalarText start value rest) (hstart : Blanks text start)
    (hrest : Stops rest) : readValue levels text = some (value, rest) := by
  obtain ⟨c, tail, rfl, hopens, hbracket, hbrace⟩ := h.head
  have hskip := skipBlank_cons hstart hopens.1
  rw [readValue_eq_readScalar, hskip]
  · exact readScalar_of_scalarText h hrest
  · exact fun _ heq => hbracket (List.cons.inj (hskip ▸ heq)).1
  · exact fun _ heq => hbrace (List.cons.inj (hskip ▸ heq)).1

end Brackets

theorem reads_readValue_zero : Reads (readValue 0) ScalarText where
  sound := by
    intro text value rest h
    unfold readValue at h
    split at h
    · exact absurd h (by simp)
    · exact absurd h (by simp)
    · exact ⟨_, blanks_skipBlank text, of_readScalar h⟩
  complete := fun hstart hscalar hrest => readValue_of_scalarText hscalar hstart hrest
  opens := by
    intro start value rest h
    obtain ⟨c, tail, hstart, hopens, -⟩ := h.head
    exact ⟨c, tail, hstart, hopens⟩
  shorter := ScalarText.length_lt

theorem Reads.readValue_succ {levels : Nat} (h : Reads (readValue levels) inner) :
    Reads (readValue (levels + 1))
      fun text value rest => ScalarText text value rest ∨ ContainerText inner text value rest where
  sound := by
    intro text value rest hread
    have htext := blanks_skipBlank text
    by_cases harray : ∃ tail, skipBlank text = '[' :: tail
    · obtain ⟨tail, hskip⟩ := harray
      rw [readValue_array hskip] at hread
      obtain ⟨⟨items, _⟩, hitems, heq⟩ := Option.map_eq_some_iff.1 hread
      obtain ⟨rfl, rfl⟩ := Prod.mk.inj heq
      have hlist := (h.readList_eq_some_iff (.inl rfl)).1 hitems
      exact ⟨_, hskip ▸ htext, .inr (.array hlist)⟩
    by_cases hobject : ∃ tail, skipBlank text = '{' :: tail
    · obtain ⟨tail, hskip⟩ := hobject
      rw [readValue_object hskip] at hread
      obtain ⟨⟨members, _⟩, hmembers, heq⟩ := Option.map_eq_some_iff.1 hread
      obtain ⟨rfl, rfl⟩ := Prod.mk.inj heq
      have hlist := (h.readMember.readList_eq_some_iff (.inr rfl)).1 hmembers
      exact ⟨_, hskip ▸ htext, .inr (.object hlist)⟩
    · rw [readValue_eq_readScalar (not_exists.1 harray) (not_exists.1 hobject)] at hread
      exact ⟨_, htext, .inl (of_readScalar hread)⟩
  complete := by
    rintro text start value rest hstart (hscalar | ⟨list⟩ | ⟨list⟩) hrest
    · exact readValue_of_scalarText hscalar hstart hrest
    · rw [readValue_array (skipBlank_cons hstart rfl), (h.readList_eq_some_iff (.inl rfl)).2 list]
      rfl
    · rw [readValue_object (skipBlank_cons hstart rfl),
        (h.readMember.readList_eq_some_iff (.inr rfl)).2 list]
      rfl
  opens := by
    rintro start value rest (hscalar | ⟨list⟩ | ⟨list⟩)
    · obtain ⟨c, tail, hstart, hopens, -⟩ := hscalar.head
      exact ⟨c, tail, hstart, hopens⟩
    all_goals exact ⟨_, _, rfl, rfl, by decide, by decide⟩
  shorter := by
    rintro start value rest (hscalar | ⟨list⟩ | ⟨list⟩)
    · exact hscalar.length_lt
    · exact Nat.lt_succ_of_lt (list.length_lt h)
    · exact Nat.lt_succ_of_lt (list.length_lt h.readMember)

/-- A reader of values takes what the grammar describes for as many levels. -/
theorem reads_readValue (levels : Nat) : Reads (readValue levels) (ValueText levels) := by
  induction levels with
  | zero => exact reads_readValue_zero
  | succ levels ih => exact ih.readValue_succ

/-- A whole text is read as a value exactly if the grammar says that it is a document of that
value. -/
theorem read_eq_some_iff {levels : Nat} :
    read levels text = some value ↔ Document levels text value := by
  constructor
  · intro h
    unfold read at h
    split at h
    · rename_i found rest hread
      split at h
      · rename_i hrest
        obtain rfl := Option.some.inj h
        obtain ⟨start, hstart, hvalue⟩ := (reads_readValue levels).sound hread
        exact ⟨start, rest, hstart, hvalue, skipBlank_eq_nil_iff.1 (List.isEmpty_iff.1 hrest)⟩
      · exact absurd h (by simp)
    · exact absurd h (by simp)
  · rintro ⟨start, rest, hstart, hvalue, hrest⟩
    rw [read, (reads_readValue levels).complete hstart hvalue (stops_of_blanks_nil hrest)]
    dsimp only
    rw [skipBlank_eq_nil_iff.2 hrest]
    rfl

theorem Document.unique {levels more : Nat} {other : Value} (h : Document levels text value)
    (hother : Document more text other) : value = other := by
  have hvalue := read_eq_some_iff.2 (h.mono (Nat.le_max_left levels more))
  rw [read_eq_some_iff.2 (hother.mono (Nat.le_max_right levels more))] at hvalue
  exact (Option.some.inj hvalue).symm

theorem not_document_nil {levels : Nat} : ¬ Document levels [] value := by
  intro h
  obtain ⟨start, rest, hstart, hvalue, -⟩ := h
  obtain ⟨c, tail, rfl, -⟩ := (reads_readValue levels).opens hvalue
  cases hstart

end MeshFormation.Json
