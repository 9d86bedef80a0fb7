import MeshFormation.Proofs.Json.Grammar
import MeshFormation.Proofs.Json.RoundTrip

/-!
# Reading literals

Strings, numbers and the three words are read as far as the grammar allows, whatever text is behind
them, but a number ends only where no digit, point or exponent follows.
-/

namespace MeshFormation.Json

variable {c : Char} {text start literal rest : List Char} {digits : List Char}

/-! ## Blanks -/

theorem blanks_skipBlank (text : List Char) : Blanks text (skipBlank text) := by
  induction text with
  | nil => exact .none
  | cons c text ih =>
    rw [skipBlank, List.dropWhile_cons]
    split
    · rename_i hblank
      exact .more hblank ih
    · exact .none

theorem skipBlank_cons (h : Blanks text (c :: rest)) (hc : isBlank c = false) :
    skipBlank text = c :: rest := by
  generalize hstart : c :: rest = start at h
  induction h with
  | none =>
    rw [← hstart, skipBlank, List.dropWhile_cons, if_neg (by simp [hc])]
  | more blank _ ih =>
    rw [skipBlank, List.dropWhile_cons, if_pos blank]
    exact ih hstart

theorem skipBlank_eq_nil_iff : skipBlank text = [] ↔ Blanks text [] := by
  constructor
  · intro h
    rw [← h]
    exact blanks_skipBlank text
  · intro h
    generalize hstart : ([] : List Char) = start at h
    induction h with
    | none => exact hstart ▸ rfl
    | more blank _ ih =>
      rw [skipBlank, List.dropWhile_cons, if_pos blank]
      exact ih hstart

theorem Blanks.length_le (h : Blanks text rest) : rest.length ≤ text.length := by
  induction h with
  | none => exact Nat.le_refl _
  | more _ _ ih => exact Nat.le_succ_of_le ih

theorem Blanks.trans {behind : List Char} (h : Blanks text start) (hstart : Blanks start behind) :
    Blanks text behind := by
  induction h with
  | none => exact hstart
  | more blank _ ih => exact .more blank (ih hstart)

/-! ## Strings -/

theorem readPieces_eq_some_iff {pieces : List Piece} :
    readPieces text = some (pieces, rest) ↔ PiecesText text pieces rest := by
  constructor
  · intro h
    fun_induction readPieces text generalizing pieces with
    | case1 | case4 | case6 | case7 | case9 => exact absurd h (by simp)
    | case2 =>
      obtain ⟨rfl, rfl⟩ := Prod.mk.inj (Option.some.inj h)
      exact .close
    | case3 a b c d text value others behind hothers hdigits ih =>
      obtain ⟨rfl, rfl⟩ := Prod.mk.inj (Option.some.inj h)
      exact .unit hdigits (ih hothers)
    | case5 letter text hunit c others behind hothers hescape ih =>
      obtain ⟨rfl, rfl⟩ := Prod.mk.inj (Option.some.inj h)
      exact .letter hescape (ih hothers)
    | case8 c text hquote hunit hletter hprintable others behind hothers ih =>
      obtain ⟨rfl, rfl⟩ := Prod.mk.inj (Option.some.inj h)
      refine .char hquote (fun hslash => ?_) hprintable (ih hothers)
      -- Behind a backslash at the end there is no quote to close the literal.
      cases text with
      | nil => exact absurd hothers (by simp [readPieces])
      | cons letter text => exact hletter letter text hslash rfl
  · intro h
    induction h with
    | close => rfl
    | char quote slash printable _ ih =>
      rw [readPieces, if_neg printable, ih]
      · exact quote
      · rintro a b c' d rest rfl
        exact fun _ => slash rfl
      · rintro letter rest rfl
        exact fun _ => slash rfl
    | letter escape _ ih =>
      rw [readPieces_shortEscape escape, ih]
      rfl
    | unit hexadecimal _ ih =>
      rw [readPieces, hexadecimal, ih]

theorem PiecesText.length_lt {pieces : List Piece} (h : PiecesText text pieces rest) :
    rest.length < text.length := by
  induction h with
  | close => exact Nat.lt_succ_self _
  | char | letter | unit =>
    simp only [List.length_cons]
    omega

theorem decodePieces_eq_some_iff {pieces : List Piece} {chars : List Char} :
    decodePieces pieces = some chars ↔ Spells pieces chars := by
  constructor
  · intro h
    fun_induction decodePieces pieces generalizing chars with
    | case1 =>
      obtain rfl := Option.some.inj h
      exact .nil
    | case2 c pieces ih =>
      obtain ⟨others, hothers, rfl⟩ := Option.map_eq_some_iff.1 h
      exact .char (ih hothers)
    | case3 first hfirst second pieces hsecond ih =>
      obtain ⟨others, hothers, rfl⟩ := Option.map_eq_some_iff.1 h
      exact .pair hfirst hsecond (ih hothers)
    | case4 | case5 | case6 => exact absurd h (by simp)
    | case7 value pieces hhigh hlow ih =>
      obtain ⟨others, hothers, rfl⟩ := Option.map_eq_some_iff.1 h
      exact .unit (by simpa using hhigh) (by simpa using hlow) (ih hothers)
  · intro h
    induction h with
    | nil => rfl
    | char _ ih => rw [decodePieces, ih, Option.map_some]
    | unit high low _ ih =>
      rw [decodePieces.eq_def]
      simp [high, low, ih]
    | pair high low _ ih =>
      rw [decodePieces, if_pos high]
      simp [low, ih]

theorem map_decodePieces_eq_iff {pieces : List Piece} {value : Text} :
    (decodePieces pieces).map String.ofList = value ↔ Denotes pieces value := by
  constructor
  · rintro rfl
    cases hdecode : decodePieces pieces with
    | none =>
      refine .lone fun chars hchars => ?_
      exact absurd (hdecode.symm.trans (decodePieces_eq_some_iff.2 hchars)) (by simp)
    | some chars => exact .text (decodePieces_eq_some_iff.1 hdecode)
  · intro h
    cases h with
    | text spells => rw [decodePieces_eq_some_iff.2 spells, Option.map_some]
    | lone spells =>
      rw [Option.map_eq_none_iff, Option.eq_none_iff_forall_ne_some]
      exact fun chars hchars => spells chars (decodePieces_eq_some_iff.1 hchars)

theorem readText_eq_some_iff {value : Text} :
    readText text = some (value, rest) ↔ StringText text value rest := by
  rw [readText, Option.map_eq_some_iff]
  constructor
  · rintro ⟨⟨pieces, behind⟩, hpieces, heq⟩
    obtain ⟨hvalue, rfl⟩ := Prod.mk.inj heq
    exact ⟨pieces, readPieces_eq_some_iff.1 hpieces, map_decodePieces_eq_iff.1 hvalue⟩
  · rintro ⟨pieces, hpieces, hvalue⟩
    exact ⟨(pieces, rest), readPieces_eq_some_iff.2 hpieces,
      congrArg (·, rest) (map_decodePieces_eq_iff.2 hvalue)⟩

theorem StringText.length_lt {value : Text} (h : StringText text value rest) :
    rest.length < text.length := by
  obtain ⟨pieces, hpieces, -⟩ := h
  exact hpieces.length_lt

/-! ## Numbers -/

/-- No digit stands in front. -/
def Undigited (rest : List Char) : Prop := ∀ {c tail}, rest = c :: tail → c.isDigit = false

theorem readDigits_append (hdigits : IsDigits digits) (hrest : Undigited rest) :
    readDigits (digits ++ rest) = some (digits, rest) := by
  have hbehind : rest.takeWhile Char.isDigit = [] ∧ rest.dropWhile Char.isDigit = rest := by
    cases rest with
    | nil => exact ⟨rfl, rfl⟩
    | cons c tail => simp [hrest rfl]
  rw [readDigits, List.takeWhile_append_of_pos hdigits.all,
    List.dropWhile_append_of_pos hdigits.all, hbehind.1, hbehind.2, List.append_nil]
  obtain ⟨c, tail, rfl⟩ := List.exists_cons_of_ne_nil hdigits.ne_nil
  rfl

theorem of_readDigits (h : readDigits text = some (digits, rest)) :
    IsDigits digits ∧ text = digits ++ rest := by
  rw [readDigits] at h
  split at h
  · exact absurd h (by simp)
  · rename_i hne
    obtain ⟨rfl, rfl⟩ := Prod.mk.inj (Option.some.inj h)
    refine ⟨⟨hne, fun c hmem => ?_⟩, List.takeWhile_append_dropWhile.symm⟩
    exact List.all_eq_true.1 List.all_takeWhile c hmem

theorem readWhole_append (hdigits : IsWhole digits) (hrest : Undigited rest) :
    readWhole (digits ++ rest) = some (digits, rest) := by
  rw [readWhole, readDigits_append hdigits.toIsDigits hrest]
  split
  · rename_i heq
    obtain ⟨hzero, -⟩ := Prod.mk.inj (Option.some.inj heq)
    exact absurd (hdigits.zero hzero) (by simp)
  · rfl

theorem of_readWhole (h : readWhole text = some (digits, rest)) :
    IsWhole digits ∧ text = digits ++ rest := by
  rw [readWhole] at h
  split at h
  · exact absurd h (by simp)
  · rename_i hzero
    obtain ⟨hdigits, rfl⟩ := of_readDigits h
    refine ⟨⟨hdigits, fun {tail} heq => ?_⟩, rfl⟩
    cases tail with
    | nil => rfl
    | cons second others => exact absurd (h.trans (by rw [heq])) (hzero second others rest)

/-- The text behind a fraction does not go on with a digit or with a point. -/
theorem readFraction_append {fraction : Option (List Char)} (h : FractionText literal fraction)
    (hrest : Undigited rest) (hpoint : ∀ {tail}, rest ≠ '.' :: tail) :
    readFraction (literal ++ rest) = some (fraction, rest) := by
  cases h with
  | none =>
    rw [List.nil_append, readFraction]
    exact fun tail => hpoint
  | point all =>
    rw [List.cons_append, readFraction, readDigits_append all hrest]
    rfl

theorem of_readFraction {fraction : Option (List Char)}
    (h : readFraction text = some (fraction, rest)) :
    ∃ literal, FractionText literal fraction ∧ text = literal ++ rest := by
  unfold readFraction at h
  split at h
  · obtain ⟨⟨digits, behind⟩, hdigits, heq⟩ := Option.map_eq_some_iff.1 h
    obtain ⟨rfl, rfl⟩ := Prod.mk.inj heq
    obtain ⟨hall, rfl⟩ := of_readDigits hdigits
    exact ⟨_, .point hall, rfl⟩
  · obtain ⟨rfl, rfl⟩ := Prod.mk.inj (Option.some.inj h)
    exact ⟨[], .none, rfl⟩

/-- A sign in front of the digits of an exponent is read before them. -/
theorem readExponent_append {exponent : Option (Bool × List Char)}
    (h : ExponentText literal exponent) (hrest : Undigited rest)
    (hletter : ∀ {c tail}, rest = c :: tail → ¬ (c = 'e' ∨ c = 'E')) :
    readExponent (literal ++ rest) = some (exponent, rest) := by
  cases h with
  | none =>
    cases rest with
    | nil => rfl
    | cons c tail =>
      unfold readExponent
      exact if_neg (hletter rfl)
  | plus letter all =>
    rw [List.cons_append, List.cons_append, readExponent, if_pos letter]
    simp only [readDigits_append all hrest]
    rfl
  | minus letter all =>
    rw [List.cons_append, List.cons_append, readExponent, if_pos letter]
    simp only [readDigits_append all hrest]
    rfl
  | @bare c digits letter all =>
    have hsign : ∀ {c tail}, digits ++ rest = c :: tail → c.isDigit = true := by
      intro c tail heq
      obtain ⟨first, others, rfl⟩ := List.exists_cons_of_ne_nil all.ne_nil
      rw [List.cons_append] at heq
      obtain ⟨rfl, -⟩ := List.cons.inj heq
      exact all.all _ List.mem_cons_self
    rw [List.cons_append, readExponent, if_pos letter, readDigits_append all hrest]
    · rfl
    · rintro tail heq
      exact absurd (hsign heq) (by decide)
    · rintro tail heq
      exact absurd (hsign heq) (by decide)

theorem of_readExponent {exponent : Option (Bool × List Char)}
    (h : readExponent text = some (exponent, rest)) :
    ∃ literal, ExponentText literal exponent ∧ text = literal ++ rest := by
  cases text with
  | nil =>
    obtain ⟨rfl, rfl⟩ := Prod.mk.inj (Option.some.inj h)
    exact ⟨[], .none, rfl⟩
  | cons c text =>
    unfold readExponent at h
    dsimp only at h
    split at h
    · rename_i hletter
      obtain ⟨⟨digits, behind⟩, hdigits, heq⟩ := Option.map_eq_some_iff.1 h
      obtain ⟨rfl, rfl⟩ := Prod.mk.inj heq
      obtain ⟨hall, hbehind⟩ := of_readDigits hdigits
      split at hbehind
      · subst hbehind
        exact ⟨_, .minus hletter hall, rfl⟩
      · subst hbehind
        exact ⟨_, .plus hletter hall, rfl⟩
      · dsimp only at hbehind
        subst hbehind
        exact ⟨_, .bare hletter hall, rfl⟩
    · obtain ⟨rfl, rfl⟩ := Prod.mk.inj (Option.some.inj h)
      exact ⟨[], .none, rfl⟩

/-- No character stands in front that could go on with a number. -/
def Stops (rest : List Char) : Prop :=
  ∀ {c tail}, rest = c :: tail → c.isDigit = false ∧ c ≠ '.' ∧ ¬ (c = 'e' ∨ c = 'E')

theorem ExponentText.undigited {exponent : Option (Bool × List Char)}
    (h : ExponentText literal exponent) (hrest : Stops rest) :
    Undigited (literal ++ rest) ∧ ∀ {tail}, literal ++ rest ≠ '.' :: tail := by
  have hletter : ∀ {c : Char} {others : List Char}, (c = 'e' ∨ c = 'E') →
      Undigited (c :: others) ∧ ∀ {tail}, c :: others ≠ '.' :: tail := by
    rintro c others hc
    constructor
    · rintro _ _ ⟨⟩
      rcases hc with rfl | rfl <;> rfl
    · rintro tail ⟨⟩
      exact absurd hc (by decide)
  cases h with
  | none => exact ⟨fun heq => (hrest heq).1, fun heq => (hrest heq).2.1 rfl⟩
  | bare letter | plus letter | minus letter => exact hletter letter

theorem FractionText.undigited {fraction : Option (List Char)} (h : FractionText literal fraction)
    (hrest : Undigited rest) : Undigited (literal ++ rest) := by
  cases h with
  | none => exact hrest
  | point =>
    rintro _ _ ⟨⟩
    rfl

theorem readNumber_append {number : Number} (h : NumberText literal number) (hrest : Stops rest) :
    readNumber (literal ++ rest) = some (number, rest) := by
  cases h with
  | @mk number sign fraction exponent signed whole fractional scaled =>
    obtain ⟨hdigit, hpoint⟩ := scaled.undigited hrest
    have hexponent := readExponent_append scaled (fun heq => (hrest heq).1) fun heq =>
      (hrest heq).2.2
    have hfraction := readFraction_append fractional hdigit hpoint
    have hwhole := readWhole_append whole (fractional.undigited hdigit)
    obtain ⟨negative, digits, fractionDigits, exponentDigits⟩ := number
    simp only [List.append_assoc] at hexponent hfraction hwhole signed ⊢
    cases signed with
    | minus =>
      rw [List.cons_append, List.nil_append, readNumber]
      simp [hwhole, hfraction, hexponent]
    | none =>
      rw [List.nil_append, readNumber]
      · simp [hwhole, hfraction, hexponent]
      · intro tail heq
        obtain ⟨first, others, rfl⟩ := List.exists_cons_of_ne_nil whole.ne_nil
        rw [List.cons_append] at heq
        obtain ⟨rfl, -⟩ := List.cons.inj heq
        exact absurd (whole.all _ List.mem_cons_self) (by decide)

theorem of_readNumber {number : Number} (h : readNumber text = some (number, rest)) :
    ∃ literal, NumberText literal number ∧ text = literal ++ rest := by
  obtain ⟨sign, negative, unsigned, hsign, htext, hread⟩ : ∃ sign negative unsigned,
      SignText sign negative ∧ text = sign ++ unsigned ∧
        ((readWhole unsigned).bind fun whole => (readFraction whole.2).bind fun fraction =>
          (readExponent fraction.2).bind fun exponent =>
            some ((⟨negative, whole.1, fraction.1, exponent.1⟩ : Number), exponent.2)) =
              some (number, rest) := by
    unfold readNumber at h
    split at h
    rename_i hmatch
    split at hmatch
    · obtain ⟨rfl, rfl⟩ := Prod.mk.inj hmatch
      exact ⟨_, true, _, .minus, rfl, h⟩
    · obtain ⟨rfl, rfl⟩ := Prod.mk.inj hmatch
      exact ⟨_, false, _, .none, rfl, h⟩
  obtain ⟨⟨whole, text₁⟩, hwhole, hread⟩ := Option.bind_eq_some_iff.1 hread
  obtain ⟨⟨fraction, text₂⟩, hfraction, hread⟩ := Option.bind_eq_some_iff.1 hread
  obtain ⟨⟨exponent, text₃⟩, hexponent, hread⟩ := Option.bind_eq_some_iff.1 hread
  obtain ⟨rfl, rfl⟩ := Prod.mk.inj (Option.some.inj hread)
  obtain ⟨hdigits, rfl⟩ := of_readWhole hwhole
  obtain ⟨fractionText, hfractionText, rfl⟩ := of_readFraction hfraction
  obtain ⟨exponentText, hexponentText, rfl⟩ := of_readExponent hexponent
  have hnumber : NumberText (sign ++ (whole ++ (fractionText ++ exponentText)))
      ⟨negative, whole, fraction, exponent⟩ :=
    @NumberText.mk ⟨negative, whole, fraction, exponent⟩ _ _ _ hsign hdigits hfractionText
      hexponentText
  refine ⟨_, hnumber, ?_⟩
  rw [htext]
  simp only [List.append_assoc]

theorem NumberText.head {number : Number} (h : NumberText literal number) :
    ∃ c tail, literal = c :: tail ∧ (c = '-' ∨ c.isDigit = true) := by
  cases h with
  | @mk number sign fraction exponent signed whole =>
    obtain ⟨first, others, hfirst⟩ := List.exists_cons_of_ne_nil whole.ne_nil
    have hdigit : first.isDigit = true := whole.all _ (hfirst ▸ List.mem_cons_self)
    generalize number.negative = negative at signed
    cases signed with
    | none => exact ⟨first, others ++ (fraction ++ exponent), by rw [hfirst]; rfl, .inr hdigit⟩
    | minus => exact ⟨'-', number.whole ++ (fraction ++ exponent), rfl, .inl rfl⟩

/-! ## Scalars -/

variable {value : Value}

/-- The first character of a value or of a member is not skipped and closes nothing. -/
def Opens (c : Char) : Prop := isBlank c = false ∧ c ≠ ']' ∧ c ≠ '}'

theorem ScalarText.head (h : ScalarText text value rest) :
    ∃ c tail, text = c :: tail ∧ Opens c ∧ c ≠ '[' ∧ c ≠ '{' := by
  cases h with
  | null | yes | no | string => exact ⟨_, _, rfl, ⟨rfl, by decide, by decide⟩, by decide, by decide⟩
  | number written =>
    obtain ⟨c, tail, rfl, hc⟩ := written.head
    have hother : ∀ {other : Char}, other.isDigit = false → other ≠ '-' → c ≠ other := by
      rintro other hdigit hminus rfl
      simp [hdigit, hminus] at hc
    refine ⟨c, _, rfl, ⟨?_, ?_, ?_⟩, ?_, ?_⟩
    · simp [isBlank, hother]
    all_goals exact hother (by decide) (by decide)

theorem ScalarText.length_lt (h : ScalarText text value rest) : rest.length < text.length := by
  cases h with
  | null | yes | no =>
    simp only [List.length_cons]
    omega
  | string literal => exact Nat.lt_succ_of_lt literal.length_lt
  | number written =>
    obtain ⟨c, tail, rfl, -⟩ := written.head
    simp only [List.length_append, List.length_cons]
    omega

theorem readScalar_of_scalarText (h : ScalarText text value rest) (hrest : Stops rest) :
    readScalar text = some (value, rest) := by
  cases h with
  | null | yes | no => rfl
  | string literal =>
    rw [readScalar, readText_eq_some_iff.2 literal]
    rfl
  | @number literal _ number written =>
    obtain ⟨c, tail, hliteral, hc⟩ := written.head
    have hnumber := readNumber_append written hrest
    have hfirst : ∀ {other : Char} {others : List Char}, other.isDigit = false → other ≠ '-' →
        literal ++ rest ≠ other :: others := by
      intro other others hdigit hminus heq
      rw [hliteral, List.cons_append] at heq
      obtain ⟨rfl, -⟩ := List.cons.inj heq
      simp [hdigit, hminus] at hc
    rw [readScalar, hnumber]
    · rfl
    all_goals exact fun _ => hfirst (by decide) (by decide)

theorem of_readScalar (h : readScalar text = some (value, rest)) : ScalarText text value rest := by
  unfold readScalar at h
  split at h
  · obtain ⟨⟨literal, behind⟩, hliteral, heq⟩ := Option.map_eq_some_iff.1 h
    obtain ⟨rfl, rfl⟩ := Prod.mk.inj heq
    exact .string (readText_eq_some_iff.1 hliteral)
  · obtain ⟨rfl, rfl⟩ := Prod.mk.inj (Option.some.inj h)
    exact .null
  · obtain ⟨rfl, rfl⟩ := Prod.mk.inj (Option.some.inj h)
    exact .yes
  · obtain ⟨rfl, rfl⟩ := Prod.mk.inj (Option.some.inj h)
    exact .no
  · obtain ⟨⟨number, behind⟩, hnumber, heq⟩ := Option.map_eq_some_iff.1 h
    obtain ⟨rfl, rfl⟩ := Prod.mk.inj heq
    obtain ⟨literal, hliteral, rfl⟩ := of_readNumber hnumber
    exact .number hliteral

end MeshFormation.Json
