import MeshFormation.Proofs.Toml.Strings

/-!
# Reading numbers

A number is read as far as the grammar allows if a separator stands behind it, with or without
blanks. It is not taken for the beginning of a date or a time: behind the digits of these stands a
hyphen or a colon, at which no number ends.
-/

namespace MeshFormation.Toml

variable {c : Char} {text literal rest digits : List Char} {isDigit : Char → Bool} {value : Value}

/-! ## Where a value ends -/

/-- Behind blanks, the text ends or goes on with a line break, a comment or a separator. -/
def Stops (rest : List Char) : Prop :=
  ∀ {c tail}, skipBlank rest = c :: tail → c ∈ ['\n', '\r', '#', ',', ']', '}']

/-- The characters that may stand behind a value. -/
def separators : List Char := [' ', '\t', '\n', '\r', '#', ',', ']', '}']

theorem Stops.head_mem (h : Stops rest) : ∀ {c tail}, rest = c :: tail → c ∈ separators := by
  rintro c tail rfl
  by_cases hblank : isBlank c = true
  · simp only [isBlank, Bool.or_eq_true, beq_iff_eq] at hblank
    rcases hblank with rfl | rfl <;> decide
  · have hstop := h (skipBlank_cons (Bool.eq_false_iff.2 hblank))
    exact List.mem_cons_of_mem _ (List.mem_cons_of_mem _ hstop)

theorem Stops.blank {tail : List Char} (h : Stops (c :: tail)) (hc : isBlank c = true) :
    Stops tail := by
  intro first others heq
  apply h
  rw [skipBlank, List.dropWhile_cons, if_pos hc]
  exact heq

theorem Stops.unquoted (h : Stops rest) : Unquoted rest := by
  have hall : ∀ c ∈ separators, c ≠ '"' ∧ c ≠ '\'' := forall_mem_of_all (by decide)
  intro c tail heq
  exact hall c (h.head_mem heq)

/-! ## Digits -/

/-- No digit and no underscore stands in front. -/
def Undigited (isDigit : Char → Bool) (rest : List Char) : Prop :=
  ∀ {c tail}, rest = c :: tail → isDigit c = false ∧ c ≠ '_'

theorem moreDigits_nil (hrest : Undigited isDigit rest) :
    moreDigits isDigit rest = some ([], rest) := by
  cases rest with
  | nil => rfl
  | cons c tail =>
    obtain ⟨hdigit, hunder⟩ := hrest rfl
    rw [moreDigits]
    · rw [hdigit]
      rfl
    · exact fun hc _ => hunder hc
    · exact fun _ _ hc _ => hunder hc

theorem moreDigits_cons (hunder : isDigit '_' = false) (digit : isDigit c = true) :
    moreDigits isDigit (c :: text) = digitRun isDigit (c :: text) := by
  have hc : c ≠ '_' := by
    rintro rfl
    exact absurd (hunder.symm.trans digit) (by simp)
  rw [digitRun, if_pos digit, moreDigits, if_pos digit]
  · exact fun hsame _ => hc hsame
  · exact fun _ _ hsame _ => hc hsame

theorem DigitsText.head (h : DigitsText isDigit text digits) :
    ∃ c tail, text = c :: tail ∧ isDigit c = true := by
  cases h with
  | last digit | more digit | apart digit => exact ⟨_, _, rfl, digit⟩

theorem DigitsText.digitRun_eq (h : DigitsText isDigit text digits) (hunder : isDigit '_' = false)
    (hrest : Undigited isDigit rest) : digitRun isDigit (text ++ rest) = some (digits, rest) := by
  induction h with
  | last digit =>
    rw [List.cons_append, digitRun, if_pos digit, List.nil_append, moreDigits_nil hrest,
      Option.map_some]
  | more digit others ih =>
    obtain ⟨first, tail, rfl, hfirst⟩ := others.head
    rw [List.cons_append] at ih ⊢
    rw [digitRun, if_pos digit, List.cons_append, moreDigits_cons hunder hfirst, ih,
      Option.map_some]
  | apart digit others ih =>
    obtain ⟨first, tail, rfl, hfirst⟩ := others.head
    rw [List.cons_append] at ih
    rw [digitRun, if_pos hfirst] at ih
    simp only [List.cons_append]
    rw [digitRun, if_pos digit, moreDigits, if_pos hfirst, ih, Option.map_some]

/-- Digits without underscores. -/
theorem digitsText_self (hne : digits ≠ []) (hall : ∀ c ∈ digits, isDigit c = true) :
    DigitsText isDigit digits digits := by
  induction digits with
  | nil => exact absurd rfl hne
  | cons c tail ih =>
    have hc := hall c List.mem_cons_self
    cases tail with
    | nil => exact .last hc
    | cons first others =>
      exact .more hc (ih (by simp) fun other hother => hall other (List.mem_cons_of_mem _ hother))

theorem WholeText.head (h : WholeText text digits) :
    ∃ c tail, text = c :: tail ∧ c.isDigit = true := by
  cases h with
  | zero => exact ⟨_, _, rfl, rfl⟩
  | digits leading content =>
    obtain ⟨first, tail, heq, hfirst⟩ := content.head
    exact ⟨first, tail, heq, hfirst⟩

theorem WholeText.wholeDigits_eq (h : WholeText text digits) (hrest : Undigited Char.isDigit rest) :
    wholeDigits (text ++ rest) = some (digits, rest) := by
  cases h with
  | zero => rfl
  | digits leading content =>
    rw [← content.digitRun_eq rfl hrest, List.cons_append, wholeDigits]
    exact fun _ heq => leading (List.cons.inj heq).1

theorem ne_of_isDigit {other : Char} (h : c.isDigit = true) (hother : other.isDigit = false) :
    c ≠ other := by
  rintro rfl
  exact absurd (hother.symm.trans h) (by simp)

theorem SignText.readSign_cons {sign : List Char} {negative : Bool} (h : SignText sign negative)
    (hminus : c ≠ '-') (hplus : c ≠ '+') :
    readSign (sign ++ c :: text) = (negative, c :: text) := by
  cases h with
  | none =>
    rw [List.nil_append, readSign]
    · exact fun _ heq => hminus (List.cons.inj heq).1
    · exact fun _ heq => hplus (List.cons.inj heq).1
  | plus | minus => rfl

/-! ## Parts of a number -/

theorem readFraction_none (h : ∀ {tail}, text ≠ '.' :: tail) :
    readFraction text = some (none, text) := by
  rw [readFraction]
  exact fun _ => h

theorem FractionText.readFraction_eq {fraction : Option (List Char)}
    (h : FractionText literal fraction) (hrest : Undigited Char.isDigit rest)
    (hpoint : ∀ {tail}, rest ≠ '.' :: tail) :
    readFraction (literal ++ rest) = some (fraction, rest) := by
  cases h with
  | none => exact readFraction_none hpoint
  | point content =>
    rw [List.cons_append, readFraction, content.digitRun_eq rfl hrest, Option.map_some]

theorem readExponent_none (h : ∀ {c tail}, text = c :: tail → ¬(c = 'e' ∨ c = 'E')) :
    readExponent text = some (none, text) := by
  cases text with
  | nil => rfl
  | cons c tail =>
    unfold readExponent
    exact if_neg (h rfl)

theorem ExponentText.readExponent_eq {exponent : Option Int} (h : ExponentText literal exponent)
    (hrest : Undigited Char.isDigit rest)
    (hletter : ∀ {c tail}, rest = c :: tail → ¬(c = 'e' ∨ c = 'E')) :
    readExponent (literal ++ rest) = some (exponent, rest) := by
  cases h with
  | none => exact readExponent_none hletter
  | letter letter signs content =>
    obtain ⟨first, tail, rfl, hfirst⟩ := content.head
    have hread := content.digitRun_eq rfl hrest
    rw [List.cons_append] at hread
    rw [List.cons_append, List.append_assoc, List.cons_append, readExponent, if_pos letter,
      signs.readSign_cons (ne_of_isDigit hfirst rfl) (ne_of_isDigit hfirst rfl)]
    dsimp only
    rw [hread]
    rfl

theorem ExponentText.head_mem {exponent : Option Int} (h : ExponentText literal exponent)
    (hrest : Stops rest) :
    ∀ {c tail}, literal ++ rest = c :: tail → c ∈ 'e' :: 'E' :: separators := by
  intro c tail heq
  cases h with
  | none =>
    exact List.mem_cons_of_mem _ (List.mem_cons_of_mem _ (hrest.head_mem heq))
  | letter letter =>
    obtain rfl := (List.cons.inj heq).1
    rcases letter with rfl | rfl <;> decide

theorem FractionText.head_mem {fraction : Option (List Char)} (h : FractionText literal fraction)
    {chars : List Char} (hrest : ∀ {c tail}, rest = c :: tail → c ∈ chars) :
    ∀ {c tail}, literal ++ rest = c :: tail → c ∈ '.' :: chars := by
  intro c tail heq
  cases h with
  | none => exact List.mem_cons_of_mem _ (hrest heq)
  | point => exact (List.cons.inj heq).1 ▸ List.mem_cons_self

theorem undigited_of_mem {chars : List Char} (h : ∀ {c tail}, rest = c :: tail → c ∈ chars)
    (hall : ∀ c ∈ chars, isDigit c = false ∧ c ≠ '_') : Undigited isDigit rest := by
  intro c tail heq
  exact hall c (h heq)

/-! ## Numbers -/

theorem integer?_eq {value : Int} (h : IsWord value) :
    integer? value = some (.integer value) := if_pos h

theorem readBased_eq {base : Nat} (h : DigitsText (isBaseDigit base) text digits)
    (hbase : isBaseDigit base '_' = false) (word : IsWord (ofBaseDigits base digits))
    (hrest : Undigited (isBaseDigit base) rest) :
    readBased base (text ++ rest) = some (.integer (ofBaseDigits base digits), rest) := by
  have hread := h.digitRun_eq hbase hrest
  unfold isBaseDigit at hread
  rw [readBased, hread]
  exact congrArg (Option.map _) (integer?_eq word)

/-- The rest of a decimal number, once its fraction and its exponent are known. -/
theorem readDecimal_eq {negative : Bool} {after : List Char} {fraction : Option (List Char)}
    {exponent : Option Int} (hfraction : readFraction text = some (fraction, after))
    (hexponent : readExponent after = some (exponent, rest)) :
    readDecimal negative digits text =
      if fraction.isNone && exponent.isNone then
        (integer? (signed negative (Nat.ofDigitChars 10 digits 0))).map fun value => (value, rest)
      else if negative || DoubleRange.holds (digits ++ fraction.getD [])
          (exponent.getD 0 - (fraction.getD []).length) then some (.other .float, rest)
      else none := by
  rw [readDecimal, hfraction]
  simp only [Option.bind_eq_bind, Option.bind_some, hexponent]
  split
  · rw [Option.map_eq_bind]
    rfl
  · rfl

/-- No base is named where a decimal number is written. -/
theorem not_based {sign : List Char} {negative : Bool} (signs : SignText sign negative)
    (whole : WholeText text digits) (hrest : ∀ {c tail}, rest = c :: tail → c ∉ ['x', 'o', 'b'])
    (letter : Char) (hletter : letter ∈ ['x', 'o', 'b']) (behind : List Char) :
    sign ++ (text ++ rest) ≠ '0' :: letter :: behind := by
  intro heq
  cases signs with
  | plus | minus => exact absurd (List.cons.inj heq).1 (by decide)
  | none =>
    cases whole with
    | zero => exact hrest (List.cons.inj heq).2 hletter
    | digits leading => exact leading (List.cons.inj heq).1

theorem readNumber_eq {sign : List Char} {negative : Bool} (signs : SignText sign negative)
    (whole : WholeText text digits) (hwhole : wholeDigits (text ++ rest) = some (digits, rest))
    (hbase : ∀ {c tail}, rest = c :: tail → c ∉ ['x', 'o', 'b']) :
    readNumber (sign ++ (text ++ rest)) = readDecimal negative digits rest := by
  have hnot := not_based signs whole hbase
  obtain ⟨c, tail, rfl, hc⟩ := whole.head
  rw [readNumber]
  · rw [List.cons_append] at hwhole ⊢
    rw [signs.readSign_cons (ne_of_isDigit hc rfl) (ne_of_isDigit hc rfl)]
    split
    · rename_i heq
      exact absurd (List.cons.inj (Prod.mk.inj heq).2).1 (ne_of_isDigit hc rfl)
    · rename_i heq
      exact absurd (List.cons.inj (Prod.mk.inj heq).2).1 (ne_of_isDigit hc rfl)
    · rename_i heq
      obtain ⟨rfl, rfl⟩ := Prod.mk.inj heq
      rw [hwhole]
  · exact hnot 'x' (by decide)
  · exact hnot 'o' (by decide)
  · exact hnot 'b' (by decide)

theorem readNumber_named {sign : List Char} {negative : Bool} (signs : SignText sign negative) :
    readNumber (sign ++ ('i' :: 'n' :: 'f' :: rest)) = some (.other .float, rest) ∧
      readNumber (sign ++ ('n' :: 'a' :: 'n' :: rest)) = some (.other .float, rest) := by
  cases signs <;> exact ⟨rfl, rfl⟩

/-- No digit of any base is a separator. -/
theorem BaseLetter.undigited {letter : Char} {base : Nat} (h : BaseLetter letter base)
    (hrest : Stops rest) : Undigited (isBaseDigit base) rest ∧ isBaseDigit base '_' = false := by
  have hseparators : ∀ c ∈ separators, isBaseDigit base c = false ∧ c ≠ '_' := by
    cases h <;> exact forall_mem_of_all (by decide)
  have hunder : isBaseDigit base '_' = false := by
    cases h <;> decide
  exact ⟨undigited_of_mem hrest.head_mem hseparators, hunder⟩

theorem NumberText.readNumber_eq (h : NumberText literal value) (hrest : Stops rest) :
    readNumber (literal ++ rest) = some (value, rest) := by
  cases h with
  | infinite signs =>
    rw [List.append_assoc]
    exact (readNumber_named signs).1
  | notNumber signs =>
    rw [List.append_assoc]
    exact (readNumber_named signs).2
  | based based content word =>
    obtain ⟨hdigits, hunder⟩ := based.undigited hrest
    have hread := readBased_eq content hunder word hdigits
    cases based <;> exact hread
  | integer signs whole word =>
    have hall : ∀ c ∈ separators, c ≠ '.' ∧ ¬(c = 'e' ∨ c = 'E') ∧ c ∉ ['x', 'o', 'b'] :=
      forall_mem_of_all (by decide)
    have hfraction := readFraction_none fun heq => (hall _ (hrest.head_mem heq)).1 rfl
    have hexponent := readExponent_none fun heq => (hall _ (hrest.head_mem heq)).2.1
    have hwhole := whole.wholeDigits_eq
      (undigited_of_mem hrest.head_mem (forall_mem_of_all (by decide)))
    rw [List.append_assoc, Toml.readNumber_eq signs whole hwhole
      fun heq => (hall _ (hrest.head_mem heq)).2.2, readDecimal_eq hfraction hexponent,
      integer?_eq word]
    rfl
  | @float sign text digits fractionText exponentText _ _ _ signs whole fractional scaled
    either bounded =>
    have hall : ∀ c ∈ '.' :: 'e' :: 'E' :: separators, c ∉ ['x', 'o', 'b'] :=
      forall_mem_of_all (by decide)
    have hpoint : '.' ∉ 'e' :: 'E' :: separators := by decide
    have hletter : ∀ c ∈ separators, ¬(c = 'e' ∨ c = 'E') := forall_mem_of_all (by decide)
    have hscaled : ∀ {c tail}, exponentText ++ rest = c :: tail → c ∈ 'e' :: 'E' :: separators :=
      scaled.head_mem hrest
    have hbehind : ∀ {c tail}, fractionText ++ (exponentText ++ rest) = c :: tail →
        c ∈ '.' :: 'e' :: 'E' :: separators := fractional.head_mem hscaled
    have hexponent := scaled.readExponent_eq
      (undigited_of_mem hrest.head_mem (forall_mem_of_all (by decide)))
      fun heq => hletter _ (hrest.head_mem heq)
    have hfraction := fractional.readFraction_eq
      (undigited_of_mem hscaled (forall_mem_of_all (by decide)))
      fun heq => hpoint (hscaled heq)
    have hwhole := whole.wholeDigits_eq (undigited_of_mem hbehind (forall_mem_of_all (by decide)))
    simp only [List.append_assoc]
    rw [Toml.readNumber_eq signs whole hwhole fun heq => hall _ (hbehind heq),
      readDecimal_eq hfraction hexponent, if_neg, if_pos]
    · simpa using bounded
    · simp only [Bool.and_eq_true, Option.isNone_iff_eq_none]
      rintro ⟨rfl, rfl⟩
      simp at either

/-! ## Numbers and dates -/

theorem rest_of_readDecimal {negative : Bool}
    (h : readDecimal negative digits text = some (value, rest))
    (hhead : ∀ {c tail}, text = c :: tail → c ≠ '.' ∧ ¬(c = 'e' ∨ c = 'E')) : rest = text := by
  rw [readDecimal_eq (readFraction_none fun heq => (hhead heq).1 rfl)
    (readExponent_none fun heq => (hhead heq).2)] at h
  obtain ⟨word, -, heq⟩ := Option.map_eq_some_iff.1 h
  exact (Prod.mk.inj heq).2.symm

/-- The characters of a date are none that a number continues or ends with. -/
theorem notMem_of_isDigit_or {other : Char} (hc : c = '-' ∨ c = ':')
    (h : other.isDigit = true ∨ other = c) :
    other ∉ '.' :: 'e' :: 'E' :: 'x' :: 'o' :: 'b' :: separators := by
  have hnone : ∀ c ∈ '.' :: 'e' :: 'E' :: 'x' :: 'o' :: 'b' :: separators,
      c.isDigit = false ∧ c ≠ '-' ∧ c ≠ ':' := forall_mem_of_all (by decide)
  intro hmem
  obtain ⟨hdigit, hhyphen, hcolon⟩ := hnone other hmem
  rcases h with hother | rfl
  · exact absurd (hdigit.symm.trans hother) (by simp)
  · exact hc.elim hhyphen hcolon

/-- Of digits in front of a hyphen or a colon, a number takes all, or only a zero in front of the
others. -/
theorem exists_readDecimal_of_digits (text : List Char) (hc : c = '-' ∨ c = ':') (hne : digits ≠ [])
    (hall : ∀ c ∈ digits, c.isDigit = true) :
    ∃ whole after, readNumber (digits ++ c :: text) = readDecimal false whole after ∧ after ≠ [] ∧
      ∀ {other tail}, after = other :: tail → other.isDigit = true ∨ other = c := by
  have hbases : ∀ {other}, other ∈ ['x', 'o', 'b'] →
      other ∈ '.' :: 'e' :: 'E' :: 'x' :: 'o' :: 'b' :: separators := fun hmem =>
    List.mem_append_right ['.', 'e', 'E'] (List.mem_append_left separators hmem)
  obtain ⟨first, others, rfl⟩ := List.exists_cons_of_ne_nil hne
  by_cases hfirst : first = '0'
  · subst hfirst
    have hhead : ∀ {other tail}, others ++ c :: text = other :: tail →
        other.isDigit = true ∨ other = c := by
      intro other tail heq
      cases others with
      | nil => exact .inr (List.cons.inj heq).1.symm
      | cons second others =>
        obtain rfl := (List.cons.inj heq).1
        exact .inl (hall second (by simp))
    refine ⟨['0'], others ++ c :: text, ?_, by simp, hhead⟩
    apply readNumber_eq .none .zero rfl
    intro other tail heq hmem
    exact notMem_of_isDigit_or hc (hhead heq) (hbases hmem)
  · have hdigits : DigitsText Char.isDigit (first :: others) (first :: others) :=
      digitsText_self hne hall
    have hends : Undigited Char.isDigit (c :: text) := by
      rintro _ _ ⟨⟩
      rcases hc with rfl | rfl <;> decide
    have hwhole := (WholeText.digits hfirst hdigits).wholeDigits_eq hends
    refine ⟨first :: others, c :: text, ?_, by simp, fun heq => .inr (List.cons.inj heq).1.symm⟩
    apply readNumber_eq .none (.digits hfirst hdigits) hwhole
    intro other tail heq hmem
    exact notMem_of_isDigit_or hc (.inr (List.cons.inj heq).1.symm) (hbases hmem)

/-- Digits in front of a hyphen or a colon are no value: the number is over there or earlier. -/
theorem not_stops_of_digits (hc : c = '-' ∨ c = ':') (hne : digits ≠ [])
    (hall : ∀ c ∈ digits, c.isDigit = true)
    (h : readNumber (digits ++ c :: text) = some (value, rest)) : ¬Stops rest := by
  obtain ⟨whole, after, hread, hafter, hhead⟩ := exists_readDecimal_of_digits text hc hne hall
  have hrest : rest = after := by
    apply rest_of_readDecimal (hread.symm.trans h)
    intro other tail heq
    have hother := notMem_of_isDigit_or hc (hhead heq)
    simp only [List.mem_cons, not_or] at hother
    exact ⟨hother.1, not_or.2 ⟨hother.2.1, hother.2.2.1⟩⟩
  obtain ⟨first, tail, rfl⟩ := List.exists_cons_of_ne_nil hafter
  subst hrest
  intro hstops
  have hseparator := hstops.head_mem rfl
  exact notMem_of_isDigit_or hc (hhead rfl) (by simp [hseparator])

end MeshFormation.Toml
