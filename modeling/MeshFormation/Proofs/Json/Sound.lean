import MeshFormation.Json.Value
import Mathlib.Algebra.Order.Field.Power
import Mathlib.Data.Rat.Cast.Order
import Mathlib.Tactic.GCongr
import Mathlib.Tactic.Linarith
import Mathlib.Tactic.Positivity
import Mathlib.Tactic.Ring

/-!
# What makes a value sound

A value is sound if each of its literals is. The significand and the power of ten that a number is
read into never stand for more than the number itself. Rounding each of the two adds little to it,
so every number below the highest power of ten with a 64-bit floating point number is in range.
Closer to the bound both roundings may add up: there are numbers below the largest floating point
number that are out of range.
-/

namespace MeshFormation

/-- The largest finite number, with 53 significant bits. -/
def DoubleRange.largest : Nat := (2 ^ 53 - 1) * 2 ^ 971

theorem DoubleRange.nearest_le (value : Nat) : nearest value * 2 ^ 53 ≤ value * (2 ^ 53 + 1) := by
  unfold nearest
  split
  · exact Nat.mul_le_mul_left _ (Nat.le_succ _)
  · rename_i hlarge
    rw [Nat.one_shiftLeft, Nat.not_lt] at hlarge
    have hne : value ≠ 0 := Nat.ne_of_gt (Nat.lt_of_lt_of_le (Nat.two_pow_pos 53) hlarge)
    have hlog : 52 ≤ value.log2 := Nat.le_of_succ_le ((Nat.le_log2 hne).2 hlarge)
    have hvalue : 2 ^ (value.log2 - 52) * 2 ^ 52 ≤ value := by
      rw [← Nat.pow_add, Nat.sub_add_cancel hlog]
      exact Nat.log2_self_le hne
    dsimp only
    rw [Nat.one_shiftLeft]
    generalize 2 ^ (value.log2 - 52) = unit at hvalue
    have hsplit := Nat.div_add_mod' value unit
    have hrounded : ∀ rounded, 2 * rounded ≤ 2 * value + unit →
        rounded * 2 ^ 53 ≤ value * (2 ^ 53 + 1) := by
      intro rounded hrounded
      linarith
    refine hrounded _ ?_
    split
    · rw [Nat.add_mul, Nat.one_mul]
      omega
    · omega

namespace Json.Number

open DoubleRange

/-- The number without its sign. -/
def magnitude (number : Number) : ℚ :=
  Nat.ofDigitChars 10 (number.whole ++ number.fraction.getD []) 0 *
    10 ^ (number.exponentValue - (number.fraction.getD []).length)

variable {digits : List Char} {significand : Nat}

theorem pow_mul_le_ofDigitChars (digits : List Char) (significand : Nat) :
    10 ^ digits.length * significand ≤ Nat.ofDigitChars 10 digits significand := by
  rw [Nat.ofDigitChars_eq_ofDigitChars_zero]
  exact Nat.le_add_right _ _

/-- Unless all digits before the point are taken, what they stand for has more digits than the
largest significand, one of which is for the last of the counted powers. -/
theorem addWhole_cases (digits : List Char) (significand : Nat) :
    addWhole digits significand = (Nat.ofDigitChars 10 digits significand, 0) ∨
      ∃ taken power : Nat, addWhole digits significand = (taken, ((power + 1 : Nat) : Int)) ∧
        taken * 10 ^ (power + 1) ≤ Nat.ofDigitChars 10 digits significand ∧
        maxSignificand * 10 ^ power ≤ Nat.ofDigitChars 10 digits significand := by
  induction digits generalizing significand with
  | nil => exact .inl rfl
  | cons c rest ih =>
    rw [Nat.ofDigitChars_cons, Nat.mul_comm, addWhole]
    split
    · exact ih _
    · rename_i hover
      have hrest := pow_mul_le_ofDigitChars rest (significand * 10 + (c.toNat - '0'.toNat))
      refine .inr ⟨significand, rest.length, rfl, ?_, ?_⟩
      · calc significand * 10 ^ (rest.length + 1) = 10 ^ rest.length * (significand * 10) := by ring
          _ ≤ 10 ^ rest.length * (significand * 10 + (c.toNat - '0'.toNat)) :=
            Nat.mul_le_mul_left _ (Nat.le_add_right _ _)
          _ ≤ _ := hrest
      · rw [Nat.mul_comm]
        exact Nat.le_trans (Nat.mul_le_mul_left _ (Nat.le_of_not_le hover)) hrest

/-- Of the digits behind the point only the first ones are taken, as far as they fit. -/
theorem addFraction_cases (digits : List Char) (significand : Nat) (power : Int) :
    addFraction digits (significand, power) = (significand, power) ∨
      ∃ taken rest, digits = taken ++ rest ∧ taken ≠ [] ∧
        Nat.ofDigitChars 10 taken significand ≤ maxSignificand ∧
        addFraction digits (significand, power) =
          (Nat.ofDigitChars 10 taken significand, power - taken.length) := by
  induction digits generalizing significand power with
  | nil => exact .inl rfl
  | cons c digits ih =>
    rw [addFraction]
    split
    · rename_i hfits
      right
      rcases ih (significand * 10 + (c.toNat - '0'.toNat)) (power - 1) with
        hall | ⟨taken, rest, rfl, hne, hmax, heq⟩
      · refine ⟨[c], digits, rfl, by simp, ?_, ?_⟩
        · rwa [Nat.ofDigitChars_cons, Nat.ofDigitChars_nil, Nat.mul_comm]
        · rw [hall, Nat.ofDigitChars_cons, Nat.ofDigitChars_nil, Nat.mul_comm]
          rfl
      · refine ⟨c :: taken, rest, rfl, by simp, ?_, ?_⟩
        · rwa [Nat.ofDigitChars_cons, Nat.mul_comm]
        · rw [heq, Nat.ofDigitChars_cons, Nat.mul_comm, List.length_cons]
          congr 1
          push_cast
          ring
    · exact .inl rfl

/-- The first digits of a fraction stand for no more than all of them. -/
theorem mul_zpow_le_magnitude {number : Number} {taken rest : List Char}
    (h : number.fraction.getD [] = taken ++ rest) :
    (Nat.ofDigitChars 10 (number.whole ++ taken) 0 : ℚ) *
      10 ^ (number.exponentValue - taken.length) ≤ number.magnitude := by
  rw [magnitude, h, ← List.append_assoc, Nat.ofDigitChars_append _ (l := number.whole ++ taken),
    List.length_append]
  generalize Nat.ofDigitChars 10 (number.whole ++ taken) 0 = significand
  have hdigits := pow_mul_le_ofDigitChars rest significand
  have hcast : (10 : ℚ) ^ rest.length * significand ≤ Nat.ofDigitChars 10 rest significand := by
    exact_mod_cast hdigits
  calc (significand : ℚ) * 10 ^ (number.exponentValue - taken.length)
      = 10 ^ rest.length * significand *
          10 ^ (number.exponentValue - (taken.length + rest.length : Nat)) := by
        rw [← zpow_natCast (10 : ℚ) rest.length, mul_comm (10 ^ (rest.length : ℤ) : ℚ), mul_assoc,
          ← zpow_add₀ (by norm_num)]
        congr 2
        push_cast
        ring
    _ ≤ _ := mul_le_mul_of_nonneg_right hcast (zpow_nonneg (by norm_num) _)

theorem parts_le_magnitude (number : Number) :
    (number.parts.1 : ℚ) * 10 ^ number.parts.2 ≤ number.magnitude := by
  have hten : (10 : ℚ) ≠ 0 := by norm_num
  have hwhole : (Nat.ofDigitChars 10 number.whole 0 : ℚ) * 10 ^ number.exponentValue ≤
      number.magnitude := by
    simpa using number.mul_zpow_le_magnitude (List.nil_append _).symm
  unfold parts
  rcases addWhole_cases number.whole 0 with hall | ⟨taken, power, hsome, htaken, hmax⟩
  · rw [hall]
    rcases addFraction_cases (number.fraction.getD []) (Nat.ofDigitChars 10 number.whole 0) 0 with
      hnone | ⟨first, rest, hfraction, -, -, hfirst⟩
    · rw [hnone]
      dsimp only
      rwa [zero_add]
    · rw [hfirst, ← Nat.ofDigitChars_append]
      dsimp only
      have hle := number.mul_zpow_le_magnitude hfraction
      rwa [show number.exponentValue - first.length =
        0 - first.length + number.exponentValue by ring] at hle
  · rw [hsome]
    have hscaled : ∀ (counted : Nat) {value : Nat} {exponent : ℤ}, exponent ≤ counted →
        value * 10 ^ counted ≤ Nat.ofDigitChars 10 number.whole 0 →
        (value : ℚ) * 10 ^ (exponent + number.exponentValue) ≤ number.magnitude := by
      intro counted value exponent hexponent hvalue
      have hcast : (value : ℚ) * 10 ^ counted ≤ Nat.ofDigitChars 10 number.whole 0 := by
        exact_mod_cast hvalue
      calc (value : ℚ) * 10 ^ (exponent + number.exponentValue)
          ≤ value * 10 ^ ((counted : ℤ) + number.exponentValue) := by
            have hpow : (10 : ℚ) ^ (exponent + number.exponentValue) ≤
                10 ^ ((counted : ℤ) + number.exponentValue) :=
              zpow_le_zpow_right₀ (by norm_num) (by omega)
            exact mul_le_mul_of_nonneg_left hpow (Nat.cast_nonneg _)
        _ = value * 10 ^ counted * 10 ^ number.exponentValue := by
            rw [zpow_add₀ hten, zpow_natCast, mul_assoc]
        _ ≤ Nat.ofDigitChars 10 number.whole 0 * 10 ^ number.exponentValue :=
            mul_le_mul_of_nonneg_right hcast (zpow_nonneg (by norm_num) _)
        _ ≤ number.magnitude := hwhole
    rcases addFraction_cases (number.fraction.getD []) taken ((power + 1 : Nat) : ℤ) with
      hnone | ⟨first, rest, -, hne, hfits, hfirst⟩
    · rw [hnone]
      exact hscaled (power + 1) (Int.le_refl _) htaken
    · rw [hfirst]
      have hlength : 0 < first.length := List.length_pos_iff.2 hne
      refine hscaled power ?_ (Nat.le_trans (Nat.mul_le_mul_right _ hfits) hmax)
      push_cast
      omega

theorem pow_mul_roundings_le : 10 ^ 308 * (2 ^ 53 + 1) ^ 2 ≤ infinityBound * (2 ^ 53) ^ 2 := by
  decide +kernel

theorem lt_of_mul_pow_lt {value exponent : Nat} (bound : Nat) (hvalue : value ≠ 0)
    (h : value * 10 ^ exponent < 10 ^ bound) : exponent < bound :=
  (Nat.pow_lt_pow_iff_right (by decide)).1
    (Nat.lt_of_le_of_lt (Nat.le_mul_of_pos_left _ (Nat.pos_of_ne_zero hvalue)) h)

/-- A number below `10 ^ 308` is in range, with however many digits it is written. -/
theorem inRange_of_magnitude_lt {number : Number} (h : number.magnitude < 10 ^ 308) :
    number.inRange = true := by
  have hparts := lt_of_le_of_lt number.parts_le_magnitude h
  unfold inRange
  generalize number.parts = parts at hparts
  obtain ⟨significand, power⟩ := parts
  dsimp only at hparts ⊢
  by_cases hsignificand : significand = 0
  · simp [hsignificand]
  by_cases hpower : power ≤ 0
  · simp [hpower]
  obtain ⟨exponent, rfl⟩ := Int.eq_ofNat_of_zero_le (Int.le_of_not_le hpower)
  have hlt : significand * 10 ^ exponent < 10 ^ 308 := by exact_mod_cast hparts
  have hexponent := lt_of_mul_pow_lt 308 hsignificand hlt
  have hrounded : nearest significand * nearest (10 ^ exponent) < infinityBound := by
    refine Nat.lt_of_mul_lt_mul_right (a := (2 ^ 53) ^ 2) ?_
    calc nearest significand * nearest (10 ^ exponent) * (2 ^ 53) ^ 2
        = nearest significand * 2 ^ 53 * (nearest (10 ^ exponent) * 2 ^ 53) := by ring
      _ ≤ significand * (2 ^ 53 + 1) * (10 ^ exponent * (2 ^ 53 + 1)) :=
        Nat.mul_le_mul (nearest_le _) (nearest_le _)
      _ = significand * 10 ^ exponent * (2 ^ 53 + 1) ^ 2 := by ring
      _ < 10 ^ 308 * (2 ^ 53 + 1) ^ 2 := Nat.mul_lt_mul_of_pos_right hlt (by decide)
      _ ≤ infinityBound * (2 ^ 53) ^ 2 := pow_mul_roundings_le
  simp only [Bool.or_eq_true, Bool.and_eq_true, decide_eq_true_eq, Int.toNat_natCast]
  exact .inr ⟨by omega, hrounded⟩

end Json.Number

namespace Json

/-! ## Literals -/

/-- A number or the text of a string, which may be a value or the name of a member. -/
inductive Literal where
  | number (value : Number)
  | text (value : Text)

def Literal.isSound : Literal → Bool
  | number value => value.inRange
  | text value => value.isSome

/-- A string that stands for a text, or a number that is in range. Below `10 ^ 308` that does not
depend on how the number is written. -/
def Literal.Readable : Literal → Prop
  | number value => value.inRange = true ∨ value.magnitude < 10 ^ 308
  | text value => value ≠ none

theorem Literal.readable_iff {literal : Literal} : literal.Readable ↔ literal.isSound = true := by
  cases literal with
  | number value => exact ⟨fun h => h.elim id Number.inRange_of_magnitude_lt, .inl⟩
  | text value => exact Option.isSome_iff_ne_none.symm

/-- A string that stands for a text, or a number up to the largest finite one of 64 bits. -/
def Literal.Moderate : Literal → Prop
  | number value => value.magnitude ≤ DoubleRange.largest
  | text value => value ≠ none

mutual

/-- The numbers and strings of a value, in the order in which they are written. -/
def Value.literals : Value → List Literal
  | .null => []
  | .boolean _ => []
  | .number value => [.number value]
  | .string text => [.text text]
  | .array items => Value.literalsOfItems items
  | .object members => Value.literalsOfMembers members

def Value.literalsOfItems : List Value → List Literal
  | [] => []
  | item :: rest => item.literals ++ Value.literalsOfItems rest

def Value.literalsOfMembers : List (Text × Value) → List Literal
  | [] => []
  | (name, value) :: rest => .text name :: (value.literals ++ Value.literalsOfMembers rest)

end

mutual

theorem Value.isSound_eq_all (value : Value) :
    value.isSound = value.literals.all Literal.isSound := by
  cases value with
  | null | boolean | number | string => simp [isSound, literals, Literal.isSound]
  | array items => exact Value.allSound_eq_all items
  | object members => exact Value.allMembersSound_eq_all members

theorem Value.allSound_eq_all (items : List Value) :
    Value.allSound items = (Value.literalsOfItems items).all Literal.isSound := by
  cases items with
  | nil => rfl
  | cons item rest =>
    rw [allSound, literalsOfItems, List.all_append, item.isSound_eq_all, Value.allSound_eq_all rest]

theorem Value.allMembersSound_eq_all (members : List (Text × Value)) :
    Value.allMembersSound members = (Value.literalsOfMembers members).all Literal.isSound := by
  cases members with
  | nil => rfl
  | cons entry rest =>
    obtain ⟨name, value⟩ := entry
    rw [allMembersSound, literalsOfMembers, List.all_cons, List.all_append, value.isSound_eq_all,
      Value.allMembersSound_eq_all rest, Bool.and_assoc]
    rfl

end

end Json

end MeshFormation
