import MeshFormation.Proofs.Toml.Numbers

/-!
# Reading dates and times

A date, a time of day or both are read as far as the grammar allows if a separator stands behind
them. As a date is tried before a number, no number in front of a separator may start with one.
-/

namespace MeshFormation.Toml

variable {text literal rest : List Char} {value : Value}

theorem twoDigits?_eq_some {number : Nat} (h : twoDigits? text = some (number, rest)) :
    ∃ a b, text = a :: b :: rest ∧ a.isDigit = true ∧ b.isDigit = true := by
  unfold twoDigits? at h
  split at h
  · rename_i a b behind
    split at h
    · rename_i hdigits
      rw [Bool.and_eq_true] at hdigits
      obtain ⟨-, rfl⟩ := Prod.mk.inj (Option.some.inj h)
      exact ⟨a, b, rfl, hdigits⟩
    · exact absurd h (by simp)
  · exact absurd h (by simp)

theorem expect_eq_some {other : Char} (h : expect other text = some rest) :
    text = other :: rest := by
  unfold expect at h
  split at h
  · split at h
    · rename_i hsame
      rw [hsame, Option.some.inj h]
    · exact absurd h (by simp)
  · exact absurd h (by simp)

theorem of_skipDate (h : skipDate text = some rest) :
    ∃ digits behind, text = digits ++ '-' :: behind ∧ digits ≠ [] ∧
      ∀ c ∈ digits, c.isDigit = true := by
  obtain ⟨⟨century, behindCentury⟩, hcentury, h⟩ := Option.bind_eq_some_iff.1 h
  obtain ⟨⟨year, behindYear⟩, hyear, h⟩ := Option.bind_eq_some_iff.1 h
  obtain ⟨behind, hhyphen, -⟩ := Option.bind_eq_some_iff.1 h
  obtain ⟨a, b, rfl, ha, hb⟩ := twoDigits?_eq_some hcentury
  obtain ⟨c, d, rfl, hc, hd⟩ := twoDigits?_eq_some hyear
  obtain rfl := expect_eq_some hhyphen
  exact ⟨[a, b, c, d], behind, rfl, by simp, by simp [ha, hb, hc, hd]⟩

theorem of_skipTime (h : skipTime text = some rest) :
    ∃ digits behind, text = digits ++ ':' :: behind ∧ digits ≠ [] ∧
      ∀ c ∈ digits, c.isDigit = true := by
  obtain ⟨⟨hour, behindHour⟩, hhour, h⟩ := Option.bind_eq_some_iff.1 h
  obtain ⟨behind, hcolon, -⟩ := Option.bind_eq_some_iff.1 h
  obtain ⟨a, b, rfl, ha, hb⟩ := twoDigits?_eq_some (Option.filter_eq_some_iff.1 hhour).1
  obtain rfl := expect_eq_some hcolon
  exact ⟨[a, b], behind, rfl, by simp, by simp [ha, hb]⟩

/-- What is read as a number in front of a separator does not start with a date or a time. -/
theorem skipDateTime_eq_none (h : readNumber text = some (value, rest)) (hrest : Stops rest) :
    skipDateTime text = none := by
  have hdate : skipDate text = none := by
    rw [Option.eq_none_iff_forall_ne_some]
    intro behind hbehind
    obtain ⟨digits, tail, rfl, hne, hall⟩ := of_skipDate hbehind
    exact not_stops_of_digits (.inl rfl) hne hall h hrest
  have htime : skipTime text = none := by
    rw [Option.eq_none_iff_forall_ne_some]
    intro behind hbehind
    obtain ⟨digits, tail, rfl, hne, hall⟩ := of_skipTime hbehind
    exact not_stops_of_digits (.inr rfl) hne hall h hrest
  rw [skipDateTime, hdate]
  exact htime

theorem PairText.twoDigits?_eq {number : Nat} (h : PairText literal number) :
    twoDigits? (literal ++ rest) = some (number, rest) := by
  cases h with
  | mk first second => simp [twoDigits?, first, second]

theorem PairText.twoDigitsIn?_eq {low high number : Nat} (h : PairText literal number)
    (hlow : low ≤ number) (hhigh : number ≤ high) :
    twoDigitsIn? low high (literal ++ rest) = some (number, rest) := by
  simp [twoDigitsIn?, h.twoDigits?_eq, hlow, hhigh]

theorem DateText.skipDate_eq (h : DateText literal) : skipDate (literal ++ rest) = some rest := by
  cases h with
  | mk centuries years months days inYear inMonth =>
    simp only [List.append_assoc, List.cons_append, skipDate, centuries.twoDigits?_eq,
      years.twoDigits?_eq, expect, months.twoDigitsIn?_eq inYear.1 inYear.2,
      days.twoDigitsIn?_eq inMonth.1 inMonth.2, if_true, Option.bind_eq_bind, Option.bind_some]
    rfl

theorem SecondFractionText.skipSecondFraction_eq (h : SecondFractionText literal)
    (hrest : ∀ {c tail}, rest = c :: tail → c.isDigit = false ∧ c ≠ '.') :
    skipSecondFraction (literal ++ rest) = rest := by
  cases h with
  | none =>
    rw [List.nil_append, skipSecondFraction]
    exact fun _ _ heq => (hrest heq).2 rfl
  | point ne_nil all =>
    obtain ⟨first, others, rfl⟩ := List.exists_cons_of_ne_nil ne_nil
    have hothers : ∀ c ∈ others, c.isDigit = true := fun c hc => all c (List.mem_cons_of_mem _ hc)
    rw [List.cons_append, List.cons_append, skipSecondFraction,
      if_pos (all first List.mem_cons_self), List.dropWhile_append_of_pos hothers]
    cases rest with
    | nil => rfl
    | cons c tail => exact List.dropWhile_cons_of_neg (by simp [(hrest rfl).1])

theorem TimeText.skipTime_eq (h : TimeText literal)
    (hrest : ∀ {c tail}, rest = c :: tail → c.isDigit = false ∧ c ≠ '.') :
    skipTime (literal ++ rest) = some rest := by
  cases h with
  | mk hours inDay minutes inHour seconds inMinute fractional =>
    simp only [List.append_assoc, List.cons_append, skipTime,
      hours.twoDigitsIn?_eq (Nat.zero_le _) inDay, minutes.twoDigitsIn?_eq (Nat.zero_le _) inHour,
      seconds.twoDigitsIn?_eq (Nat.zero_le _) inMinute, expect, if_true, Option.bind_eq_bind,
      Option.bind_some, fractional.skipSecondFraction_eq hrest]
    rfl

theorem OffsetText.skipOffset_eq (h : OffsetText literal) (hrest : Stops rest) :
    skipOffset (literal ++ rest) = some rest := by
  cases h with
  | none =>
    cases rest with
    | nil => rfl
    | cons c tail =>
      have hall : ∀ c ∈ separators, ¬(c = 'Z' ∨ c = 'z') ∧ ¬(c = '+' ∨ c = '-') :=
        forall_mem_of_all (by decide)
      obtain ⟨hzero, hsign⟩ := hall c (hrest.head_mem rfl)
      rw [List.nil_append, skipOffset, if_neg hzero, if_neg hsign]
  | zero letter => rw [List.cons_append, skipOffset, if_pos letter, List.nil_append]
  | hours sign hours inDay minutes inHour =>
    have hzero : ∀ c : Char, c = '+' ∨ c = '-' → ¬(c = 'Z' ∨ c = 'z') := by
      rintro c (rfl | rfl) <;> decide
    simp only [List.cons_append, List.append_assoc, skipOffset, if_neg (hzero _ sign), if_pos sign,
      hours.twoDigitsIn?_eq (Nat.zero_le _) inDay, minutes.twoDigitsIn?_eq (Nat.zero_le _) inHour,
      expect, if_true, Option.bind_eq_bind, Option.bind_some]
    rfl

/-- What is behind the seconds does not go on with them. -/
theorem OffsetText.head (h : OffsetText literal) (hrest : Stops rest) :
    ∀ {c tail}, literal ++ rest = c :: tail → c.isDigit = false ∧ c ≠ '.' := by
  have hall : ∀ c ∈ 'Z' :: 'z' :: '+' :: '-' :: separators, c.isDigit = false ∧ c ≠ '.' :=
    forall_mem_of_all (by decide)
  intro c tail heq
  apply hall
  cases h with
  | none =>
    have hseparator := hrest.head_mem heq
    simp [hseparator]
  | zero letter =>
    obtain rfl := (List.cons.inj heq).1
    rcases letter with rfl | rfl <;> decide
  | hours sign =>
    obtain rfl := (List.cons.inj heq).1
    rcases sign with rfl | rfl <;> decide

/-- A time is not taken for a date. -/
theorem TimeText.skipDate_eq_none (h : TimeText literal) : skipDate (literal ++ rest) = none := by
  cases h with
  | mk hours inDay minutes =>
    cases hours with
    | mk first second =>
      cases minutes with
      | mk => simp [skipDate, twoDigits?, first, second]

theorem skipTime_eq_none (hrest : Stops rest) : skipTime rest = none := by
  rw [Option.eq_none_iff_forall_ne_some]
  intro behind hbehind
  obtain ⟨digits, tail, rfl, hne, hall⟩ := of_skipTime hbehind
  obtain ⟨first, others, rfl⟩ := List.exists_cons_of_ne_nil hne
  have hseparator : ∀ c ∈ separators, c.isDigit = false := forall_mem_of_all (by decide)
  have hfirst := hseparator first (hrest.head_mem rfl)
  exact absurd (hfirst.symm.trans (hall first List.mem_cons_self)) (by simp)

theorem DateTimeText.skipDateTime_eq (h : DateTimeText literal) (hrest : Stops rest) :
    skipDateTime (literal ++ rest) = some rest := by
  have hall : ∀ c ∈ separators, (c.isDigit = false ∧ c ≠ '.') ∧ c ≠ 'T' ∧ c ≠ 't' :=
    forall_mem_of_all (by decide)
  cases h with
  | time timed =>
    rw [skipDateTime, timed.skipDate_eq_none]
    exact timed.skipTime_eq fun heq => (hall _ (hrest.head_mem heq)).1
  | date dated =>
    rw [skipDateTime, dated.skipDate_eq]
    cases rest with
    | nil => rfl
    | cons c tail =>
      have hc := hall c (hrest.head_mem rfl)
      by_cases hblank : c = ' '
      · subst hblank
        have htime := skipTime_eq_none (hrest.blank rfl)
        simp [htime]
      · exact if_neg (by simp [hc.2, hblank])
  | both dated letter timed zoned =>
    have htime := timed.skipTime_eq (zoned.head hrest)
    rw [List.append_assoc, List.cons_append, List.append_assoc, skipDateTime, dated.skipDate_eq]
    dsimp only
    rw [if_pos letter, htime]
    exact zoned.skipOffset_eq hrest

end MeshFormation.Toml
