import MeshFormation.Proofs.Toml.Values

/-!
# Reading documents

What the grammar calls a document is read as its statements. A statement is read up to the end of
its line, and the reader goes on behind the line break.
-/

namespace MeshFormation.Toml

variable {c : Char} {text start next rest : List Char} {statement : Statement}
  {statements : List Statement}

theorem blanks_skipBlank (text : List Char) : Blanks text (skipBlank text) := by
  induction text with
  | nil => exact .none
  | cons c text ih =>
    rw [skipBlank, List.dropWhile_cons]
    split
    · rename_i hblank
      exact .more hblank ih
    · exact .none

theorem skipLineEnd_congr {other : List Char} (h : skipBlank text = skipBlank other) :
    skipLineEnd text = skipLineEnd other := by
  rw [skipLineEnd, h, skipLineEnd]

theorem dropWhile_comment {comment behind : List Char}
    (printable : ∀ c ∈ comment, isPrintable c = true)
    (hbehind : ∀ {c tail}, behind = c :: tail → isPrintable c = false) :
    (comment ++ behind).dropWhile isPrintable = behind := by
  rw [List.dropWhile_append_of_pos printable]
  cases behind with
  | nil => rfl
  | cons c tail => exact List.dropWhile_cons_of_neg (by simp [hbehind rfl])

theorem skipLineEnd_comment {comment behind : List Char}
    (blanks : Blanks text ('#' :: (comment ++ behind)))
    (printable : ∀ c ∈ comment, isPrintable c = true)
    (hend : behind = [] ∧ next = [] ∨ Break behind next) : skipLineEnd text = some next := by
  have hdrop : (comment ++ behind).dropWhile isPrintable = behind := by
    apply dropWhile_comment printable
    rcases hend with ⟨rfl, -⟩ | ends
    · rintro _ _ ⟨⟩
    · cases ends <;> rintro _ _ ⟨⟩ <;> rfl
  rw [skipLineEnd, blanks.skipBlank_cons rfl]
  simp only [hdrop]
  rcases hend with ⟨rfl, rfl⟩ | ends
  · rfl
  · cases ends <;> rfl

theorem LineEnd.skipLineEnd_eq (h : LineEnd text next) : skipLineEnd text = some next := by
  cases h with
  | line blanks ends =>
    rw [skipLineEnd, blanks.skipBlank_eq]
    cases ends <;> rfl
  | comment blanks printable ends => exact skipLineEnd_comment blanks printable (.inr ends)
  | last blanks =>
    rw [skipLineEnd, blanks.skipBlank_eq]
    rfl
  | lastComment blanks printable =>
    exact skipLineEnd_comment (by rwa [List.append_nil]) printable (.inl ⟨rfl, rfl⟩)

/-- A line that carries nothing but its end is shorter than what is behind it, unless it is the
last. -/
theorem LineEnd.length_le (h : LineEnd text next) : next.length ≤ text.length := by
  cases h with
  | line blanks ends => exact Nat.le_trans (Nat.le_of_lt ends.length_lt) blanks.length_le
  | comment blanks printable ends =>
    have hblanks := blanks.length_le
    have hends := ends.length_lt
    rw [List.length_cons, List.length_append] at hblanks
    omega
  | last | lastComment => exact Nat.zero_le _

theorem StatementText.head (h : StatementText text statement rest) :
    ∃ c tail, text = c :: tail ∧ (c = '[' ∨ OpensKey c) := by
  cases h with
  | setting content =>
    obtain ⟨c, tail, rfl, hc⟩ := content.head
    exact ⟨c, tail, rfl, .inr hc⟩
  | table | element => exact ⟨_, _, rfl, .inl rfl⟩

theorem StatementText.length_lt (h : StatementText text statement rest) :
    rest.length < text.length := by
  cases h with
  | setting content => exact content.length_lt (reads_readValue nestingLimit)
  | table blanks keys =>
    have hblanks := blanks.length_le
    have hkeys := keys.length_lt
    simp only [List.length_cons] at hkeys ⊢
    omega
  | element blanks keys =>
    have hblanks := blanks.length_le
    have hkeys := keys.length_lt
    simp only [List.length_cons] at hkeys ⊢
    omega

/-- A statement is read up to blanks behind it. -/
theorem StatementText.readStatement_eq (h : StatementText text statement rest)
    (hrest : Stops rest) :
    ∃ behind, readStatement text = some (statement, behind) ∧
      skipBlank behind = skipBlank rest := by
  cases h with
  | setting content =>
    have hread := (reads_readValue nestingLimit).readSetting_eq content .none hrest
    obtain ⟨c, tail, rfl, hc⟩ := content.head
    have hbracket : c ≠ '[' := hc.ne (by decide)
    refine ⟨skipBlank rest, ?_, (blanks_skipBlank rest).skipBlank_eq.symm⟩
    rw [readStatement, hread]
    · rfl
    · exact fun _ heq => hbracket (List.cons.inj heq).1
    · exact fun _ heq => hbracket (List.cons.inj heq).1
  | element blanks keys short =>
    refine ⟨rest, ?_, rfl⟩
    rw [readStatement, keys.readPath_eq (.inr rfl) blanks short]
    rfl
  | @table text _ _ _ blanks keys short =>
    have hbracket : ∀ tail, text ≠ '[' :: tail := by
      rintro tail rfl
      obtain ⟨c, others, rfl, hc⟩ := keys.head
      cases blanks with
      | none => exact absurd hc (by decide)
      | more blank => exact absurd blank (by decide)
    refine ⟨rest, ?_, rfl⟩
    rw [readStatement, keys.readPath_eq (.inr rfl) blanks short]
    · rfl
    · exact fun tail => hbracket tail

/-- There is no statement in an empty text. -/
theorem LinesText.eq_nil (h : LinesText text statements) (htext : text = []) : statements = [] := by
  induction h with
  | nil => rfl
  | empty ends _ ih =>
    subst htext
    exact ih (List.eq_nil_of_length_eq_zero (Nat.le_zero.1 ends.length_le))
  | statement blanks content =>
    subst htext
    cases blanks
    have hshort := content.length_lt
    exact absurd hshort (Nat.not_lt_zero _)

theorem readStatements_blank {rounds : Nat} (h : Blanks text []) :
    readStatements (rounds + 1) text = some [] := by
  rw [readStatements, h.skipBlank_eq]
  rfl

theorem readStatements_statement {rounds : Nat} {behind : List Char} (blanks : Blanks text start)
    (hhead : ∃ c tail, start = c :: tail ∧ (c = '[' ∨ OpensKey c))
    (hread : readStatement start = some (statement, behind))
    (hend : skipLineEnd behind = some next) :
    readStatements (rounds + 1) text = (readStatements rounds next).map (statement :: ·) := by
  obtain ⟨c, tail, rfl, hc⟩ := hhead
  have hne : ∀ {other}, other ≠ '[' → ¬OpensKey other → c ≠ other := by
    rintro other hbracket hother rfl
    exact hc.elim hbracket hother
  have hblank : isBlank c = false := by
    rcases hc with rfl | hc
    · rfl
    · exact hc.not_blank
  rw [readStatements, blanks.skipBlank_cons hblank]
  split
  · exact absurd ‹c :: tail = []› (by simp)
  · rename_i heq
    exact absurd (List.cons.inj heq).1 (hne (by decide) (by decide))
  · rename_i heq
    exact absurd (List.cons.inj heq).1 (hne (by decide) (by decide))
  · rename_i heq
    exact absurd (List.cons.inj heq).1 (hne (by decide) (by decide))
  · rw [hread]
    dsimp only
    rw [hend, Option.bind_some]

theorem LinesText.readStatements_eq {rounds : Nat} (h : LinesText text statements)
    (hrounds : text.length < rounds) : readStatements rounds text = some statements := by
  induction h generalizing rounds with
  | nil =>
    obtain ⟨rounds, rfl⟩ := Nat.exists_eq_add_one_of_ne_zero (Nat.ne_zero_of_lt hrounds)
    exact readStatements_blank .none
  | empty ends others ih =>
    obtain ⟨rounds, rfl⟩ := Nat.exists_eq_add_one_of_ne_zero (Nat.ne_zero_of_lt hrounds)
    cases ends with
    | last blanks =>
      rw [others.eq_nil rfl]
      exact readStatements_blank blanks
    | line blanks ends =>
      have hshort := Nat.lt_of_lt_of_le ends.length_lt blanks.length_le
      rw [← ih (show _ < rounds by omega), readStatements, blanks.skipBlank_eq]
      cases ends <;> rfl
    | comment blanks printable ends =>
      have hend : LineEnd ('#' :: _) _ := .comment .none printable ends
      have hshort := hend.length_le
      have hblanks := blanks.length_le
      have hpos := ends.length_lt
      rw [List.length_cons, List.length_append] at hblanks
      rw [← ih (show _ < rounds by omega), readStatements, blanks.skipBlank_cons rfl]
      exact congrArg (Option.bind · _) hend.skipLineEnd_eq
    | lastComment blanks printable =>
      have hend : LineEnd ('#' :: _) _ := .lastComment .none printable
      have hblanks := blanks.length_le
      rw [List.length_cons] at hblanks
      rw [← ih (show 0 < rounds by omega), readStatements, blanks.skipBlank_cons rfl]
      exact congrArg (Option.bind · _) hend.skipLineEnd_eq
  | statement blanks content ends others ih =>
    obtain ⟨rounds, rfl⟩ := Nat.exists_eq_add_one_of_ne_zero (Nat.ne_zero_of_lt hrounds)
    obtain ⟨behind, hread, hbehind⟩ := content.readStatement_eq ends.stops
    have hend := (skipLineEnd_congr hbehind).trans ends.skipLineEnd_eq
    have hcontent := content.length_lt
    have hblanks := blanks.length_le
    have hends := ends.length_le
    rw [readStatements_statement blanks content.head hread hend, ih (by omega), Option.map_some]

theorem Blanks.eq_of_not_blank {tail : List Char} (h : Blanks (c :: tail) start)
    (hc : isBlank c = false) : start = c :: tail := by
  cases h with
  | none => rfl
  | more blank => exact absurd (hc.symm.trans blank) (by simp)

/-- Lines do not start with a byte order mark. -/
theorem LinesText.not_marked {tail : List Char} (h : LinesText ('\ufeff' :: tail) statements) :
    False := by
  have hmark : isBlank '\ufeff' = false := rfl
  cases h with
  | statement blanks content =>
    obtain ⟨c, others, rfl, hc⟩ := content.head
    obtain rfl := (List.cons.inj (blanks.eq_of_not_blank hmark)).1
    exact absurd hc (by decide)
  | empty ends =>
    cases ends with
    | line blanks ends =>
      obtain rfl := blanks.eq_of_not_blank hmark
      cases ends
    | comment blanks => exact absurd (blanks.eq_of_not_blank hmark) (by simp)
    | last blanks => exact absurd (blanks.eq_of_not_blank hmark) (by simp)
    | lastComment blanks => exact absurd (blanks.eq_of_not_blank hmark) (by simp)

/-- A document is read as its statements. -/
theorem DocumentText.read_eq (h : DocumentText text statements) :
    read text = ofStatements? statements := by
  cases h with
  | marked lines =>
    have hread := lines.readStatements_eq (Nat.lt_succ_self _)
    exact congrArg (Option.bind · ofStatements?) hread
  | plain lines =>
    have hread := lines.readStatements_eq (Nat.lt_succ_self _)
    unfold read
    split
    · exact lines.not_marked.elim
    · exact congrArg (Option.bind · ofStatements?) hread

end MeshFormation.Toml
