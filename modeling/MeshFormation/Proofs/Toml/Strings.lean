import MeshFormation.Proofs.Toml.Grammar

/-!
# Reading white space, strings and keys

What the grammar calls a string or a key is read as one. A block in tripled quotes takes as many
quotes as it can, so no quote may stand behind it; all other strings end at their closing quote
whatever follows.
-/

namespace MeshFormation.Toml

variable {c : Char} {text start next rest chars : List Char}

/-- A property of the characters of a list, checked one by one. -/
theorem forall_mem_of_all {p : Char → Prop} [DecidablePred p]
    (h : chars.all (decide <| p ·) = true) : ∀ c ∈ chars, p c := by
  intro c hc
  exact of_decide_eq_true (List.all_eq_true.1 h c hc)

/-! ## White space -/

theorem Blanks.skipBlank_eq (h : Blanks text rest) : skipBlank text = skipBlank rest := by
  induction h with
  | none => rfl
  | more blank _ ih =>
    rw [skipBlank, List.dropWhile_cons, if_pos blank]
    exact ih

theorem skipBlank_cons (hc : isBlank c = false) : skipBlank (c :: rest) = c :: rest := by
  rw [skipBlank, List.dropWhile_cons, if_neg (by simp [hc])]

theorem Blanks.skipBlank_cons (h : Blanks text (c :: rest)) (hc : isBlank c = false) :
    skipBlank text = c :: rest := by
  rw [h.skipBlank_eq, Toml.skipBlank_cons hc]

theorem Blanks.gap (h : Blanks text start) (hstart : Gap start rest) : Gap text rest := by
  induction h with
  | none => exact hstart
  | more blank _ ih => exact .blank blank (ih hstart)

theorem Blanks.length_le (h : Blanks text rest) : rest.length ≤ text.length := by
  induction h with
  | none => exact Nat.le_refl _
  | more _ _ ih => exact Nat.le_succ_of_le ih

theorem Break.lineBreak?_eq (h : Break text rest) : lineBreak? text = some rest := by
  cases h <;> rfl

theorem Break.skipBlank_eq (h : Break text rest) : skipBlank text = text := by
  cases h <;> exact skipBlank_cons rfl

theorem Break.of_lineBreak? (h : lineBreak? text = some rest) : Break text rest := by
  unfold lineBreak? at h
  split at h
  · exact Option.some.inj h ▸ .feed
  · exact Option.some.inj h ▸ .pair
  · exact absurd h (by simp)

theorem Break.length_lt (h : Break text rest) : rest.length < text.length := by
  cases h <;> simp only [List.length_cons] <;> omega

theorem BlockStart.skipFirstBreak_eq (h : BlockStart text start) : skipFirstBreak text = start := by
  cases h with
  | line ends => rw [skipFirstBreak, ends.lineBreak?_eq, Option.getD_some]
  | here absent =>
    have hnone : lineBreak? text = .none := by
      rw [Option.eq_none_iff_forall_ne_some]
      exact fun next hnext => absent (.of_lineBreak? hnext)
    rw [skipFirstBreak, hnone, Option.getD_none]

theorem isBlank_ne {other : Char} (h : isBlank c = true) (hother : isBlank other = false) :
    c ≠ other := by
  rintro rfl
  exact absurd (hother.symm.trans h) (by simp)

theorem isPrintable_ne {other : Char} (h : isPrintable c = true)
    (hother : isPrintable other = false) : c ≠ other := by
  rintro rfl
  exact absurd (hother.symm.trans h) (by simp)

/-! ## Strings on one line -/

theorem readBasic_escape (h : EscapeText text c next) :
    readBasic ('\\' :: text) = (readBasic next).map fun (chars, rest) => (c :: chars, rest) := by
  cases h with
  | letter escape =>
    rw [readBasic]
    · rw [escape]
      cases readBasic next <;> rfl
    · rintro a b c' d behind rfl _
      exact absurd escape (by simp [shortEscape?])
    · rintro a b c' d e f g h behind rfl _
      exact absurd escape (by simp [shortEscape?])
  | short code =>
    rw [readBasic, code]
    cases readBasic next <;> rfl
  | long code =>
    rw [readBasic, code]
    cases readBasic next <;> rfl

theorem BasicText.readBasic_eq (h : BasicText text chars rest) :
    readBasic text = some (chars, rest) := by
  induction h with
  | close => rfl
  | char quote slash printable _ ih =>
    rw [readBasic, if_pos printable, ih, Option.map_some]
    · exact quote
    · rintro a b c' d behind hc
      exact absurd hc slash
    · rintro a b c' d e f g h behind hc
      exact absurd hc slash
    · rintro letter behind hc
      exact absurd hc slash
  | escape content _ ih => rw [readBasic_escape content, ih, Option.map_some]

theorem LiteralText.readLiteral_eq (h : LiteralText text chars rest) :
    readLiteral text = some (chars, rest) := by
  induction h with
  | close => rfl
  | char quote printable _ ih =>
    rw [readLiteral, if_pos printable, ih, Option.map_some]
    exact quote

/-! ## Blocks -/

theorem CloseText.closeBlock_eq {quote : Char} (h : CloseText quote text chars rest)
    (hrest : ∀ {tail}, rest ≠ quote :: tail) :
    ∃ behind, text = quote :: quote :: quote :: behind ∧
      closeBlock quote behind = (chars, rest) := by
  cases h with
  | @mk count rest few =>
    refine ⟨List.replicate count quote ++ rest, ?_, ?_⟩
    · rfl
    · have hcount : count = 0 ∨ count = 1 ∨ count = 2 := by omega
      rcases hcount with rfl | rfl | rfl
      · cases rest with
        | nil => rfl
        | cons c rest =>
          have hc : c ≠ quote := fun hsame => hrest (by rw [hsame])
          cases rest <;> simp [closeBlock, hc]
      · cases rest with
        | nil => simp [closeBlock]
        | cons c rest =>
          have hc : c ≠ quote := fun hsame => hrest (by rw [hsame])
          simp [closeBlock, hc]
      · simp [closeBlock]

/-- A letter that makes an escape is no white space. -/
theorem shortEscape?_ne {letter other : Char} (h : shortEscape? letter = some c)
    (hother : shortEscape? other = none) : letter ≠ other := by
  rintro rfl
  exact absurd (hother.symm.trans h) (by simp)

theorem lineBreak?_skipBlank_cons {letter : Char} (h : shortEscape? letter = some c) :
    lineBreak? (skipBlank (letter :: rest)) = none := by
  have hblank : isBlank letter = false := by
    simp only [isBlank, Bool.or_eq_false_iff, beq_eq_false_iff_ne]
    exact ⟨shortEscape?_ne h rfl, shortEscape?_ne h rfl⟩
  rw [skipBlank_cons hblank]
  unfold lineBreak?
  split
  · rename_i heq
    exact absurd (List.cons.inj heq).1 (shortEscape?_ne h rfl)
  · rename_i heq
    exact absurd (List.cons.inj heq).1 (shortEscape?_ne h rfl)
  · rfl

theorem readBasicBlock_escape (h : EscapeText text c next) :
    readBasicBlock false ('\\' :: text) =
      (readBasicBlock false next).map fun (chars, rest) => (c :: chars, rest) := by
  cases h with
  | letter escape =>
    rw [readBasicBlock]
    · rw [lineBreak?_skipBlank_cons escape, escape]
      cases readBasicBlock false next <;> rfl
    · rintro a b c' d behind hletter _
      exact shortEscape?_ne escape rfl hletter
    · rintro a b c' d e f g h behind hletter _
      exact shortEscape?_ne escape rfl hletter
  | short code =>
    rw [readBasicBlock, code]
    cases readBasicBlock false next <;> rfl
  | long code =>
    rw [readBasicBlock, code]
    cases readBasicBlock false next <;> rfl

/-- Where no white space stands in front, it makes no difference whether white space is removed. -/
theorem readBasicBlock_true
    (hnext : ∀ {c tail}, next = c :: tail → isBlank c = false ∧ c ≠ '\n' ∧ c ≠ '\r') :
    readBasicBlock true next = readBasicBlock false next := by
  cases next with
  | nil => rfl
  | cons c tail =>
    obtain ⟨hblank, hfeed, hreturn⟩ := hnext rfl
    conv => lhs; unfold readBasicBlock
    split
    · exact absurd ‹c :: tail = []› (by simp)
    · rename_i heq
      rw [heq, readBasicBlock]
    · rename_i heq
      exact absurd (List.cons.inj heq).1 hreturn
    · rename_i heq
      exact absurd (List.cons.inj heq).1 hfeed
    · rename_i heq
      rw [heq, readBasicBlock]
    · rename_i heq
      rw [heq, readBasicBlock]
    · rename_i heq
      rw [heq, readBasicBlock]
      all_goals assumption
    · rename_i heq
      obtain ⟨rfl, rfl⟩ := List.cons.inj heq
      rw [readBasicBlock]
      all_goals first | assumption | simp [hblank]

/-- While white space is removed, the reader goes on behind it. -/
theorem Gap.readBasicBlock_eq (h : Gap text next)
    (hnext : ∀ {c tail}, next = c :: tail → isBlank c = false ∧ c ≠ '\n' ∧ c ≠ '\r') :
    readBasicBlock true text = readBasicBlock false next := by
  induction h with
  | none => exact readBasicBlock_true hnext
  | @blank c text next blank _ ih =>
    rw [← ih hnext, readBasicBlock]
    · rw [blank]
      rfl
    · exact fun _ hc _ => isBlank_ne blank rfl hc
    · exact fun _ hc _ => isBlank_ne blank rfl hc
    · exact isBlank_ne blank rfl
    · exact fun _ _ _ _ _ hc _ => isBlank_ne blank rfl hc
    · exact fun _ _ _ _ _ _ _ _ _ hc _ => isBlank_ne blank rfl hc
    · exact fun _ _ hc _ => isBlank_ne blank rfl hc
  | line ends _ ih =>
    rw [← ih hnext]
    cases ends <;> simp [readBasicBlock]

/-- A backslash at the end of a line removes the white space behind it. -/
theorem readBasicBlock_join {behind : List Char} (blanks : Blanks text start)
    (ends : Break start behind) (gap : Gap behind next)
    (whole : ∀ {c tail}, next = c :: tail → isBlank c = false ∧ c ≠ '\n' ∧ c ≠ '\r') :
    readBasicBlock false ('\\' :: text) = readBasicBlock false next := by
  have hskip : lineBreak? (skipBlank text) = some behind := by
    rw [blanks.skipBlank_eq, ends.skipBlank_eq, ends.lineBreak?_eq]
  have hletter : ∃ letter tail, text = letter :: tail ∧ letter ≠ 'u' ∧ letter ≠ 'U' := by
    cases blanks with
    | none => cases ends <;> exact ⟨_, _, rfl, by decide, by decide⟩
    | more blank => exact ⟨_, _, rfl, isBlank_ne blank rfl, isBlank_ne blank rfl⟩
  have hgap := (blanks.gap (.line ends gap)).readBasicBlock_eq whole
  obtain ⟨letter, tail, rfl, hu, hU⟩ := hletter
  rw [readBasicBlock, if_pos (by rw [hskip, Option.isSome_some]), hgap]
  · exact fun _ _ _ _ _ hc _ => hu hc
  · exact fun _ _ _ _ _ _ _ _ _ hc _ => hU hc

theorem BasicBlockText.readBasicBlock_eq (h : BasicBlockText text chars rest)
    (hrest : ∀ {tail}, rest ≠ '"' :: tail) :
    readBasicBlock false text = some (chars, rest) := by
  induction h with
  | close ends =>
    obtain ⟨behind, rfl, hclose⟩ := ends.closeBlock_eq hrest
    rw [readBasicBlock, hclose]
  | quote few _ ih =>
    rw [readBasicBlock, ih hrest]
    · rfl
    · rintro tail _ rfl
      exact few rfl
    all_goals simp
  | char quote slash printable _ ih =>
    rw [readBasicBlock, ih hrest, printable]
    · rfl
    · exact fun _ hc _ => quote hc
    · exact fun _ hc _ => isPrintable_ne printable rfl hc
    · exact isPrintable_ne printable rfl
    · exact fun _ _ _ _ _ hc _ => slash hc
    · exact fun _ _ _ _ _ _ _ _ _ hc _ => slash hc
    · exact fun _ _ hc _ => slash hc
  | line ends _ ih =>
    cases ends <;> rw [readBasicBlock, ih hrest] <;> rfl
  | escape content _ ih => rw [readBasicBlock_escape content, ih hrest, Option.map_some]
  | join blanks ends gap whole _ ih => rw [readBasicBlock_join blanks ends gap whole, ih hrest]

theorem LiteralBlockText.readLiteralBlock_eq (h : LiteralBlockText text chars rest)
    (hrest : ∀ {tail}, rest ≠ '\'' :: tail) : readLiteralBlock text = some (chars, rest) := by
  induction h with
  | close ends =>
    obtain ⟨behind, rfl, hclose⟩ := ends.closeBlock_eq hrest
    rw [readLiteralBlock, hclose]
  | quote few _ ih =>
    rw [readLiteralBlock, ih hrest]
    · rfl
    · rintro tail _ rfl
      exact few rfl
    all_goals simp
  | char quote printable _ ih =>
    rw [readLiteralBlock, ih hrest, printable]
    · rfl
    · exact fun _ hc _ => quote hc
    · exact fun _ hc _ => isPrintable_ne printable rfl hc
    · exact isPrintable_ne printable rfl
  | line ends _ ih =>
    cases ends <;> rw [readLiteralBlock, ih hrest] <;> rfl

/-! ## Any string -/

/-- No quote of either kind stands in front. -/
def Unquoted (rest : List Char) : Prop := ∀ {c tail}, rest = c :: tail → c ≠ '"' ∧ c ≠ '\''

theorem StringText.readString_eq {value : String} (h : StringText text value rest)
    (hrest : Unquoted rest) : readString text = some (value, rest) := by
  cases h with
  | basic content =>
    rw [readString, content.readBasic_eq]
    · rfl
    · rintro tail rfl
      cases content with
      | close => exact (hrest rfl).1 rfl
      | char quote => exact quote rfl
  | literal content =>
    rw [readString, content.readLiteral_eq]
    · rfl
    · rintro tail rfl
      cases content with
      | close => exact (hrest rfl).2 rfl
      | char quote => exact quote rfl
  | basicBlock starts content =>
    rw [readString, starts.skipFirstBreak_eq, content.readBasicBlock_eq]
    · rfl
    · exact fun hquote => (hrest hquote).1 rfl
  | literalBlock starts content =>
    rw [readString, starts.skipFirstBreak_eq, content.readLiteralBlock_eq]
    · rfl
    · exact fun hquote => (hrest hquote).2 rfl

theorem StringText.head {value : String} (h : StringText text value rest) :
    ∃ c tail, text = c :: tail ∧ (c = '"' ∨ c = '\'') := by
  cases h with
  | basic | basicBlock => exact ⟨_, _, rfl, .inl rfl⟩
  | literal | literalBlock => exact ⟨_, _, rfl, .inr rfl⟩

/-! ## Keys -/

theorem takeWhile_isBare (all : ∀ c ∈ chars, isBare c = true)
    (hrest : ∀ {c tail}, rest = c :: tail → isBare c = false) :
    (chars ++ rest).takeWhile isBare = chars ∧ (chars ++ rest).dropWhile isBare = rest := by
  rw [List.takeWhile_append_of_pos all, List.dropWhile_append_of_pos all]
  cases rest with
  | nil => exact ⟨List.append_nil chars, rfl⟩
  | cons c tail =>
    have hc : ¬isBare c = true := by simp [hrest rfl]
    rw [List.takeWhile_cons_of_neg hc, List.dropWhile_cons_of_neg hc]
    exact ⟨List.append_nil chars, rfl⟩

theorem KeyText.readKey_eq {key : String} (h : KeyText text key rest)
    (hrest : ∀ {c tail}, rest = c :: tail → isBare c = false) :
    readKey text = some (key, rest) := by
  cases h with
  | basic content => rw [readKey, content.readBasic_eq, Option.map_some]
  | literal content => rw [readKey, content.readLiteral_eq, Option.map_some]
  | @bare chars _ ne_nil all =>
    obtain ⟨htake, hdrop⟩ := takeWhile_isBare all hrest
    obtain ⟨first, others, rfl⟩ := List.exists_cons_of_ne_nil ne_nil
    have hfirst := all first List.mem_cons_self
    rw [readKey, htake, hdrop]
    · rintro tail heq
      rw [(List.cons.inj heq).1] at hfirst
      exact absurd hfirst (by decide)
    · rintro tail heq
      rw [(List.cons.inj heq).1] at hfirst
      exact absurd hfirst (by decide)

/-- The characters that a key can start with. -/
def OpensKey (c : Char) : Prop := isBare c = true ∨ c = '"' ∨ c = '\''

instance (c : Char) : Decidable (OpensKey c) := inferInstanceAs (Decidable (_ ∨ _))

theorem OpensKey.ne {other : Char} (h : OpensKey c) (hother : ¬OpensKey other) : c ≠ other := by
  rintro rfl
  exact hother h

theorem OpensKey.not_blank (h : OpensKey c) : isBlank c = false := by
  simp only [isBlank, Bool.or_eq_false_iff, beq_eq_false_iff_ne]
  exact ⟨h.ne (by decide), h.ne (by decide)⟩

theorem KeyText.head {key : String} (h : KeyText text key rest) :
    ∃ c tail, text = c :: tail ∧ OpensKey c := by
  cases h with
  | basic => exact ⟨_, _, rfl, .inr (.inl rfl)⟩
  | literal => exact ⟨_, _, rfl, .inr (.inr rfl)⟩
  | bare ne_nil all =>
    obtain ⟨first, others, rfl⟩ := List.exists_cons_of_ne_nil ne_nil
    exact ⟨first, _, rfl, .inl (all first List.mem_cons_self)⟩

theorem PathText.head {path : List String} (h : PathText text path rest) :
    ∃ c tail, text = c :: tail ∧ OpensKey c := by
  cases h with
  | last name => exact name.head
  | more name => exact name.head

theorem PathText.skipBlank_eq {path : List String} (h : PathText start path rest)
    (hstart : Blanks text start) : skipBlank text = start := by
  obtain ⟨c, tail, rfl, hc⟩ := h.head
  exact hstart.skipBlank_cons hc.not_blank

/-- Blanks in front of a character that ends a bare key end it as well. -/
theorem Blanks.ends_bare (h : Blanks text (c :: rest)) (hc : isBare c = false) {first : Char}
    {tail : List Char} (htext : text = first :: tail) : isBare first = false := by
  cases h with
  | none => exact (List.cons.inj htext).1 ▸ hc
  | more blank =>
    obtain rfl := (List.cons.inj htext).1
    simp only [isBlank, Bool.or_eq_true, beq_iff_eq] at blank
    rcases blank with rfl | rfl <;> rfl

theorem PathText.readPath_eq {path : List String} {parts : Nat}
    (h : PathText start path (c :: rest)) (hc : c = '=' ∨ c = ']') (hstart : Blanks text start)
    (hlength : path.length ≤ parts) :
    readPath parts text = some (path, c :: rest) := by
  have hends : isBare c = false ∧ isBlank c = false ∧ c ≠ '.' := by
    rcases hc with rfl | rfl <;> decide
  have hskip := h.skipBlank_eq hstart
  generalize hbehind : c :: rest = behind at h
  induction h generalizing text parts with
  | last name blanks =>
    subst hbehind
    obtain ⟨parts, rfl⟩ := Nat.exists_eq_add_one_of_ne_zero (Nat.ne_of_gt hlength)
    rw [readPath, hskip, name.readKey_eq (blanks.ends_bare hends.1)]
    dsimp only
    rw [blanks.skipBlank_cons hends.2.1]
    split
    · rename_i heq
      exact absurd (List.cons.inj heq).1 hends.2.2
    · rfl
  | more name dot blanks others ih =>
    obtain ⟨parts, rfl⟩ := Nat.exists_eq_add_one_of_ne_zero (Nat.ne_of_gt (Nat.lt_of_lt_of_le
      (Nat.succ_pos _) hlength))
    have hothers := ih blanks (Nat.le_of_succ_le_succ hlength) (others.skipBlank_eq blanks) hbehind
    rw [readPath, hskip, name.readKey_eq (dot.ends_bare (by decide))]
    dsimp only
    rw [dot.skipBlank_cons (by decide)]
    exact congrArg (Option.map _) hothers

/-! ## Lengths -/

theorem Gap.length_le (h : Gap text rest) : rest.length ≤ text.length := by
  induction h with
  | none => exact Nat.le_refl _
  | blank _ _ ih => exact Nat.le_succ_of_le ih
  | line ends _ ih => exact Nat.le_trans ih (Nat.le_of_lt ends.length_lt)

theorem EscapeText.length_lt (h : EscapeText text c rest) : rest.length < text.length := by
  cases h <;> simp only [List.length_cons] <;> omega

theorem BasicText.length_lt (h : BasicText text chars rest) : rest.length < text.length := by
  induction h with
  | close => exact Nat.lt_succ_self _
  | char _ _ _ _ ih => exact Nat.lt_succ_of_lt ih
  | escape content _ ih => exact Nat.lt_succ_of_lt (Nat.lt_trans ih content.length_lt)

theorem LiteralText.length_lt (h : LiteralText text chars rest) : rest.length < text.length := by
  induction h with
  | close => exact Nat.lt_succ_self _
  | char _ _ _ ih => exact Nat.lt_succ_of_lt ih

theorem CloseText.length_lt {quote : Char} (h : CloseText quote text chars rest) :
    rest.length < text.length := by
  cases h
  rw [List.length_append, List.length_replicate]
  omega

theorem BasicBlockText.length_lt (h : BasicBlockText text chars rest) :
    rest.length < text.length := by
  induction h with
  | close ends => exact ends.length_lt
  | quote _ _ ih => exact Nat.lt_succ_of_lt ih
  | char _ _ _ _ ih => exact Nat.lt_succ_of_lt ih
  | line ends _ ih => exact Nat.lt_trans ih ends.length_lt
  | escape content _ ih => exact Nat.lt_succ_of_lt (Nat.lt_trans ih content.length_lt)
  | join blanks ends gap _ _ ih =>
    have hblanks := blanks.length_le
    have hends := ends.length_lt
    have hgap := gap.length_le
    rw [List.length_cons]
    omega

theorem LiteralBlockText.length_lt (h : LiteralBlockText text chars rest) :
    rest.length < text.length := by
  induction h with
  | close ends => exact ends.length_lt
  | quote _ _ ih => exact Nat.lt_succ_of_lt ih
  | char _ _ _ ih => exact Nat.lt_succ_of_lt ih
  | line ends _ ih => exact Nat.lt_trans ih ends.length_lt

theorem BlockStart.length_le (h : BlockStart text start) : start.length ≤ text.length := by
  cases h with
  | line ends => exact Nat.le_of_lt ends.length_lt
  | here => exact Nat.le_refl _

theorem StringText.length_lt {value : String} (h : StringText text value rest) :
    rest.length < text.length := by
  cases h with
  | basic content => exact Nat.lt_succ_of_lt content.length_lt
  | literal content => exact Nat.lt_succ_of_lt content.length_lt
  | basicBlock starts content =>
    have hcontent := Nat.lt_of_lt_of_le content.length_lt starts.length_le
    simp only [List.length_cons]
    omega
  | literalBlock starts content =>
    have hcontent := Nat.lt_of_lt_of_le content.length_lt starts.length_le
    simp only [List.length_cons]
    omega

theorem KeyText.length_lt {key : String} (h : KeyText text key rest) :
    rest.length < text.length := by
  cases h with
  | basic content => exact Nat.lt_succ_of_lt content.length_lt
  | literal content => exact Nat.lt_succ_of_lt content.length_lt
  | bare ne_nil =>
    have hpos := List.length_pos_iff.2 ne_nil
    rw [List.length_append]
    omega

theorem PathText.length_lt {path : List String} (h : PathText text path rest) :
    rest.length < text.length := by
  induction h with
  | last name blanks => exact Nat.lt_of_le_of_lt blanks.length_le name.length_lt
  | more name dot blanks _ ih =>
    have hname := name.length_lt
    have hdot := dot.length_le
    have hblanks := blanks.length_le
    rw [List.length_cons] at hdot
    omega

end MeshFormation.Toml
