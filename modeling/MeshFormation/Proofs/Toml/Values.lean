import MeshFormation.Proofs.Toml.Dates

/-!
# Reading values

What the grammar calls a value is read as one wherever a separator stands behind it, so that the
containers around it need not be known. The reader of the items of a container is only known by what
it reads.
-/

namespace MeshFormation.Toml

variable {c : Char} {text start literal next rest : List Char} {value : Value}

/-! ## Scalars -/

theorem readString_eq_none (hbasic : c ≠ '"') (hliteral : c ≠ '\'') :
    readString (c :: rest) = none := by
  unfold readString
  split
  · rename_i heq
    exact absurd (List.cons.inj heq).1 hbasic
  · rename_i heq
    exact absurd (List.cons.inj heq).1 hbasic
  · rename_i heq
    exact absurd (List.cons.inj heq).1 hliteral
  · rename_i heq
    exact absurd (List.cons.inj heq).1 hliteral
  · rfl

/-- A scalar that is no string starts with none of these characters. -/
def Plain (c : Char) : Prop := c ∉ '"' :: '\'' :: 't' :: 'f' :: '[' :: '{' :: separators

instance (c : Char) : Decidable (Plain c) := inferInstanceAs (Decidable (c ∉ _))

theorem plain_of_isDigit (h : c.isDigit = true) : Plain c := by
  have hall : ∀ c ∈ '"' :: '\'' :: 't' :: 'f' :: '[' :: '{' :: separators, c.isDigit = false :=
    forall_mem_of_all (by decide)
  intro hmem
  exact absurd ((hall c hmem).symm.trans h) (by simp)

theorem plain_sign {sign tail : List Char} {negative : Bool} (signs : SignText sign negative)
    (hc : Plain c) : ∃ first others, sign ++ c :: tail = first :: others ∧ Plain first := by
  cases signs with
  | none => exact ⟨c, tail, rfl, hc⟩
  | plus | minus => exact ⟨_, _, rfl, by decide⟩

theorem NumberText.head (h : NumberText literal value) :
    ∃ c tail, literal = c :: tail ∧ Plain c := by
  cases h with
  | integer signs whole =>
    obtain ⟨c, tail, rfl, hc⟩ := whole.head
    exact plain_sign signs (plain_of_isDigit hc)
  | float signs whole =>
    obtain ⟨c, tail, rfl, hc⟩ := whole.head
    exact plain_sign signs (plain_of_isDigit hc)
  | based => exact ⟨_, _, rfl, by decide⟩
  | infinite signs => exact plain_sign signs (by decide)
  | notNumber signs => exact plain_sign signs (by decide)

theorem PairText.head {number : Nat} (h : PairText literal number) :
    ∃ c tail, literal = c :: tail ∧ Plain c := by
  cases h with
  | mk first => exact ⟨_, _, rfl, plain_of_isDigit first⟩

theorem DateTimeText.head (h : DateTimeText literal) : ∃ c tail, literal = c :: tail ∧ Plain c := by
  have hdate : ∀ {date}, DateText date → ∃ c tail, date = c :: tail ∧ Plain c := by
    rintro _ ⟨centuries⟩
    obtain ⟨c, tail, rfl, hc⟩ := centuries.head
    exact ⟨c, _, rfl, hc⟩
  cases h with
  | date dated => exact hdate dated
  | time timed =>
    cases timed with
    | mk hours =>
      obtain ⟨c, tail, rfl, hc⟩ := hours.head
      exact ⟨c, _, rfl, hc⟩
  | both dated =>
    obtain ⟨c, tail, rfl, hc⟩ := hdate dated
    exact ⟨c, _, rfl, hc⟩

theorem readScalar_plain (hc : Plain c) :
    readScalar (c :: rest) =
      (skipDateTime (c :: rest)).elim (readNumber (c :: rest)) fun behind =>
        some (.other .dateTime, behind) := by
  simp only [Plain, List.mem_cons, not_or] at hc
  rw [readScalar, readString_eq_none hc.1 hc.2.1]
  · cases skipDateTime (c :: rest) <;> rfl
  · exact fun _ heq => hc.2.2.1 (List.cons.inj heq).1
  · exact fun _ heq => hc.2.2.2.1 (List.cons.inj heq).1

theorem ScalarText.readScalar_eq (h : ScalarText text value rest) (hrest : Stops rest) :
    readScalar text = some (value, rest) := by
  cases h with
  | yes | no => rfl
  | string literal =>
    have hread := literal.readString_eq hrest.unquoted
    obtain ⟨c, tail, rfl, hc⟩ := literal.head
    rw [readScalar, hread]
    · rintro _ heq
      rcases hc with rfl | rfl <;> exact absurd (List.cons.inj heq).1 (by decide)
    · rintro _ heq
      rcases hc with rfl | rfl <;> exact absurd (List.cons.inj heq).1 (by decide)
  | number written =>
    have hread := written.readNumber_eq hrest
    have hdate := skipDateTime_eq_none hread hrest
    obtain ⟨c, tail, rfl, hc⟩ := written.head
    rw [List.cons_append] at hread hdate ⊢
    rw [readScalar_plain hc, hdate, Option.elim_none]
    exact hread
  | dateTime written =>
    have hread := written.skipDateTime_eq hrest
    obtain ⟨c, tail, rfl, hc⟩ := written.head
    rw [List.cons_append] at hread ⊢
    rw [readScalar_plain hc, hread, Option.elim_some]

theorem ScalarText.head (h : ScalarText text value rest) :
    ∃ c tail, text = c :: tail ∧ c ∉ '[' :: '{' :: separators := by
  have hplain : ∀ {c}, Plain c → c ∉ '[' :: '{' :: separators := fun hc hmem => hc (by simp_all)
  cases h with
  | yes | no => exact ⟨_, _, rfl, by decide⟩
  | string literal =>
    obtain ⟨c, tail, rfl, hc⟩ := literal.head
    exact ⟨c, tail, rfl, by rcases hc with rfl | rfl <;> decide⟩
  | number written =>
    obtain ⟨c, tail, rfl, hc⟩ := written.head
    exact ⟨c, _, rfl, hplain hc⟩
  | dateTime written =>
    obtain ⟨c, tail, rfl, hc⟩ := written.head
    exact ⟨c, _, rfl, hplain hc⟩

theorem ScalarText.length_lt (h : ScalarText text value rest) : rest.length < text.length := by
  have hliteral : ∀ {literal : List Char}, (∃ c tail, literal = c :: tail ∧ Plain c) →
      rest.length < (literal ++ rest).length := by
    rintro _ ⟨c, tail, rfl, -⟩
    simp only [List.cons_append, List.length_cons, List.length_append]
    omega
  cases h with
  | yes | no =>
    simp only [List.length_cons]
    omega
  | string literal => exact literal.length_lt
  | number written => exact hliteral written.head
  | dateTime written => exact hliteral written.head

/-! ## Trivia -/

theorem skipTrivia_comment {comment behind : List Char}
    (printable : ∀ c ∈ comment, isPrintable c = true) (ends : Break behind next) :
    skipTrivia true (comment ++ behind) = skipTrivia false next := by
  induction comment with
  | nil => cases ends <;> rfl
  | cons c comment ih =>
    have hc := printable c List.mem_cons_self
    rw [List.cons_append, skipTrivia, if_pos hc]
    · exact ih fun other hother => printable other (List.mem_cons_of_mem _ hother)
    · exact isPrintable_ne hc rfl
    · exact fun _ hreturn _ => isPrintable_ne hc rfl hreturn

/-- Trivia are skipped up to a character that is none. -/
theorem Trivia.skipTrivia_eq (h : Trivia text (c :: rest))
    (hc : c ∉ [' ', '\t', '\n', '\r', '#']) : skipTrivia false text = some (c :: rest) := by
  generalize hstart : c :: rest = start at h
  induction h with
  | none =>
    subst hstart
    simp only [List.mem_cons, not_or] at hc
    have hblank : isBlank c = false := by simp [isBlank, hc]
    rw [skipTrivia, if_neg (by simp [hblank])]
    all_goals simp [hc]
  | blank blank _ ih =>
    rw [skipTrivia, if_pos blank, ih hstart]
    · exact isBlank_ne blank rfl
    · exact fun _ hreturn _ => isBlank_ne blank rfl hreturn
    · exact isBlank_ne blank rfl
  | line ends _ ih => cases ends <;> exact ih hstart
  | comment printable ends _ ih =>
    rw [skipTrivia, skipTrivia_comment printable ends]
    exact ih hstart

theorem Trivia.length_le (h : Trivia text rest) : rest.length ≤ text.length := by
  induction h with
  | none => exact Nat.le_refl _
  | blank _ _ ih => exact Nat.le_succ_of_le ih
  | line ends _ ih => exact Nat.le_trans ih (Nat.le_of_lt ends.length_lt)
  | comment printable ends _ ih =>
    have hends := ends.length_lt
    simp only [List.length_cons, List.length_append]
    omega

theorem stops_cons (hc : c ∈ ['\n', '\r', '#', ',', ']', '}']) : Stops (c :: rest) := by
  have hblank : ∀ c ∈ ['\n', '\r', '#', ',', ']', '}'], isBlank c = false :=
    forall_mem_of_all (by decide)
  intro first tail heq
  rw [skipBlank_cons (hblank c hc)] at heq
  exact (List.cons.inj heq).1 ▸ hc

theorem Blanks.stops (h : Blanks text start) (hstart : Stops start) : Stops text := by
  intro first tail heq
  rw [h.skipBlank_eq] at heq
  exact hstart heq

theorem Break.stops (h : Break text next) : Stops text := by
  cases h <;> exact stops_cons (by decide)

/-- A value may be followed by trivia in front of a separator. -/
theorem Trivia.stops (h : Trivia text (c :: rest)) (hc : c = ',' ∨ c = ']') : Stops text := by
  generalize hstart : c :: rest = start at h
  induction h with
  | none =>
    subst hstart
    exact stops_cons (by rcases hc with rfl | rfl <;> decide)
  | blank blank _ ih => exact (Blanks.more blank .none).stops (ih hstart)
  | line ends => exact ends.stops
  | comment => exact stops_cons (by decide)

theorem LineEnd.stops (h : LineEnd text next) : Stops text := by
  cases h with
  | line blanks ends => exact blanks.stops ends.stops
  | comment blanks => exact blanks.stops (stops_cons (by decide))
  | lastComment blanks => exact blanks.stops (stops_cons (by decide))
  | last blanks =>
    intro first tail heq
    rw [blanks.skipBlank_eq] at heq
    exact absurd heq (by simp [skipBlank])

/-! ## Containers -/

/-- A reader takes every part that a relation describes, if a separator stands behind it. -/
structure Reads (read : List Char → Option (Value × List Char))
    (part : List Char → Value → List Char → Prop) : Prop where
  complete : ∀ {text value rest}, part text value rest → Stops rest → read text = some (value, rest)
  opens : ∀ {text value rest}, part text value rest → ∃ c tail, text = c :: tail ∧ c ∉ separators
  shorter : ∀ {text value rest}, part text value rest → rest.length < text.length

section Containers

variable {readItem : List Char → Option (Value × List Char)}
  {inner : List Char → Value → List Char → Prop} {rounds : Nat}

/-- Behind trivia an item is found and read; what follows it decides how the array goes on. -/
theorem Reads.readItems_item {after : List Char} (h : Reads readItem inner)
    (trivia : Trivia text start) (content : inner start value after) (hafter : Stops after) :
    readItems readItem (rounds + 1) text =
      match skipTrivia false after with
      | some (',' :: rest) =>
        (readItems readItem rounds rest).map fun (items, rest) => (value :: items, rest)
      | some (']' :: rest) => some ([value], rest)
      | _ => none := by
  have hread := h.complete content hafter
  obtain ⟨c, tail, rfl, hc⟩ := h.opens content
  have hskip := trivia.skipTrivia_eq fun hmem => hc (by simp_all [separators])
  rw [readItems, hskip]
  split
  · exact absurd ‹some (c :: tail) = none› (by simp)
  · rename_i heq
    obtain ⟨rfl, rfl⟩ := List.cons.inj (Option.some.inj heq)
    exact absurd (by decide) hc
  · rename_i heq
    obtain rfl := Option.some.inj heq
    exact hread ▸ rfl

theorem Reads.readItems_eq {items : List Value} (h : Reads readItem inner)
    (hitems : ItemsText inner text items rest) (hrounds : text.length < rounds) :
    readItems readItem rounds text = some (items, rest) := by
  induction hitems generalizing rounds with
  | close closes =>
    obtain ⟨rounds, rfl⟩ := Nat.exists_eq_add_one_of_ne_zero (Nat.ne_zero_of_lt hrounds)
    rw [readItems, closes.skipTrivia_eq (by decide)]
    rfl
  | last trivia content closes =>
    obtain ⟨rounds, rfl⟩ := Nat.exists_eq_add_one_of_ne_zero (Nat.ne_zero_of_lt hrounds)
    rw [h.readItems_item trivia content (closes.stops (.inr rfl)), closes.skipTrivia_eq (by decide)]
    rfl
  | more trivia content comma others ih =>
    have hshort : _ < rounds := Nat.lt_of_le_of_lt trivia.length_le hrounds
    have hcontent := h.shorter content
    have hcomma := comma.length_le
    rw [List.length_cons] at hcomma
    obtain ⟨rounds, rfl⟩ := Nat.exists_eq_add_one_of_ne_zero (Nat.ne_zero_of_lt hrounds)
    rw [h.readItems_item trivia content (comma.stops (.inl rfl)), comma.skipTrivia_eq (by decide)]
    exact congrArg (Option.map _) (ih (by omega))

theorem ItemsText.length_lt {items : List Value} (h : Reads readItem inner)
    (hitems : ItemsText inner text items rest) : rest.length < text.length := by
  induction hitems with
  | close closes => exact closes.length_le
  | last trivia content closes =>
    have htrivia := trivia.length_le
    have hcontent := h.shorter content
    have hcloses := closes.length_le
    rw [List.length_cons] at hcloses
    omega
  | more trivia content comma others ih =>
    have htrivia := trivia.length_le
    have hcontent := h.shorter content
    have hcomma := comma.length_le
    rw [List.length_cons] at hcomma
    omega

/-- A setting is read with the blanks in front of it and behind it. -/
theorem Reads.readSetting_eq {setting : Setting} (h : Reads readItem inner)
    (hsetting : SettingText inner start setting rest) (hstart : Blanks text start)
    (hrest : Stops rest) :
    readSetting readItem text = some (setting, skipBlank rest) := by
  cases hsetting with
  | mk keys short blanks content trailing =>
    have hread := h.complete content (trailing.stops hrest)
    obtain ⟨c, tail, rfl, hc⟩ := h.opens content
    have hblank : isBlank c = false := by
      simp only [separators, List.mem_cons, not_or] at hc
      simp [isBlank, hc]
    rw [readSetting, keys.readPath_eq (.inl rfl) hstart short]
    change (readItem (skipBlank _)).map _ = _
    rw [blanks.skipBlank_cons hblank, hread, ← trailing.skipBlank_eq]
    rfl

theorem SettingText.length_lt {setting : Setting} (h : Reads readItem inner)
    (hsetting : SettingText inner text setting rest) : rest.length < text.length := by
  cases hsetting with
  | mk keys short blanks content trailing =>
    have hkeys := keys.length_lt
    have hblanks := blanks.length_le
    have hcontent := h.shorter content
    have htrailing := trailing.length_le
    rw [List.length_cons] at hkeys
    omega

theorem Reads.readSettings_eq {settings : List Setting} (h : Reads readItem inner)
    (hsettings : SettingsText inner text settings rest) (hrounds : text.length < rounds) :
    readSettings readItem rounds text = some (settings, rest) := by
  induction hsettings generalizing rounds with
  | last blanks content =>
    obtain ⟨rounds, rfl⟩ := Nat.exists_eq_add_one_of_ne_zero (Nat.ne_zero_of_lt hrounds)
    rw [readSettings, h.readSetting_eq content blanks (stops_cons (by decide)), skipBlank_cons rfl]
    rfl
  | more blanks content others ih =>
    have hblanks := blanks.length_le
    have hcontent := content.length_lt h
    rw [List.length_cons] at hcontent
    obtain ⟨rounds, rfl⟩ := Nat.exists_eq_add_one_of_ne_zero (Nat.ne_zero_of_lt hrounds)
    rw [readSettings, h.readSetting_eq content blanks (stops_cons (by decide)), skipBlank_cons rfl]
    exact congrArg (Option.map _) (ih (by omega))

theorem SettingsText.length_lt {settings : List Setting} (h : Reads readItem inner)
    (hsettings : SettingsText inner text settings rest) : rest.length < text.length := by
  induction hsettings with
  | last blanks content =>
    have hblanks := blanks.length_le
    have hcontent := content.length_lt h
    rw [List.length_cons] at hcontent
    omega
  | more blanks content _ ih =>
    have hblanks := blanks.length_le
    have hcontent := content.length_lt h
    rw [List.length_cons] at hcontent
    omega

theorem SettingText.head {setting : Setting} (hsetting : SettingText inner text setting rest) :
    ∃ c tail, text = c :: tail ∧ OpensKey c := by
  cases hsetting with
  | mk keys => exact keys.head

/-- Behind blanks the settings of a table in braces start with a key. -/
theorem SettingsText.trim {settings : List Setting}
    (hsettings : SettingsText inner text settings rest) :
    ∃ c tail, skipBlank text = c :: tail ∧ OpensKey c ∧
      SettingsText inner (c :: tail) settings rest := by
  cases hsettings with
  | last blanks content =>
    obtain ⟨c, tail, rfl, hc⟩ := content.head
    exact ⟨c, tail, blanks.skipBlank_cons hc.not_blank, hc, .last .none content⟩
  | more blanks content others =>
    obtain ⟨c, tail, rfl, hc⟩ := content.head
    exact ⟨c, tail, blanks.skipBlank_cons hc.not_blank, hc, .more .none content others⟩

end Containers

/-! ## Values -/

section Values

variable {levels : Nat}

theorem readValue_eq_readScalar (hbracket : c ≠ '[') (hbrace : c ≠ '{') :
    readValue levels (c :: rest) = readScalar (c :: rest) := by
  cases levels <;> rw [readValue] <;> simp [hbracket, hbrace]

theorem ScalarText.readValue_eq (h : ScalarText text value rest) (hrest : Stops rest) :
    readValue levels text = some (value, rest) := by
  have hread := h.readScalar_eq hrest
  obtain ⟨c, tail, rfl, hc⟩ := h.head
  simp only [List.mem_cons, not_or] at hc
  rw [readValue_eq_readScalar hc.1 hc.2.1, hread]

theorem reads_readValue_zero : Reads (readValue 0) ScalarText where
  complete := fun h hrest => h.readValue_eq hrest
  opens := by
    intro text value rest h
    obtain ⟨c, tail, rfl, hc⟩ := h.head
    exact ⟨c, tail, rfl, fun hmem => hc (by simp [hmem])⟩
  shorter := ScalarText.length_lt

theorem Reads.readValue_container {inner : List Char → Value → List Char → Prop}
    (h : Reads (readValue levels) inner) (hvalue : ContainerText inner text value rest) :
    readValue (levels + 1) text = some (value, rest) := by
  cases hvalue with
  | array list =>
    rw [readValue, h.readItems_eq list (Nat.lt_succ_self _)]
    rfl
  | empty closes =>
    rw [readValue, closes.skipBlank_cons (by decide)]
    rfl
  | table list distinct =>
    obtain ⟨c, tail, hskip, hc, hlist⟩ := list.trim
    have hbrace : c ≠ '}' := hc.ne (by decide)
    rw [readValue, hskip]
    split
    · rename_i heq
      exact absurd (List.cons.inj heq).1 hbrace
    · rw [h.readSettings_eq hlist (Nat.lt_succ_self _)]
      dsimp only
      rw [closedTable?, distinct]
      rfl

theorem Reads.readValue_succ {inner : List Char → Value → List Char → Prop}
    (h : Reads (readValue levels) inner) :
    Reads (readValue (levels + 1))
      fun text value rest => ScalarText text value rest ∨ ContainerText inner text value rest where
  complete := by
    rintro text value rest (hscalar | hcontainer) hrest
    · exact hscalar.readValue_eq hrest
    · exact h.readValue_container hcontainer
  opens := by
    rintro text value rest (hscalar | hcontainer)
    · exact reads_readValue_zero.opens hscalar
    · cases hcontainer <;> exact ⟨_, _, rfl, by decide⟩
  shorter := by
    rintro text value rest (hscalar | hcontainer)
    · exact hscalar.length_lt
    · cases hcontainer with
      | array list => exact Nat.lt_succ_of_lt (list.length_lt h)
      | empty closes => exact Nat.lt_succ_of_lt closes.length_le
      | table list => exact Nat.lt_succ_of_lt (list.length_lt h)

/-- A reader of values takes what the grammar describes for as many levels. -/
theorem reads_readValue (levels : Nat) : Reads (readValue levels) (ValueText levels) := by
  induction levels with
  | zero => exact reads_readValue_zero
  | succ levels ih => exact ih.readValue_succ

end Values

end MeshFormation.Toml
