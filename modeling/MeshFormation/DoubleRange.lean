/-!
# The range of 64-bit floating point numbers

Numbers in documents are refused if they are too large for a 64-bit floating point number. The
bound is an exact integer, so no floating point arithmetic is needed to decide it.
-/

namespace MeshFormation.DoubleRange

/-- The least number that is rounded to infinity: half a unit above the largest finite number. -/
def infinityBound : Nat := 1 <<< 1024 - 1 <<< 970

/-- The nearest number with 53 significant bits, and of two equally near ones the even one. -/
def nearest (value : Nat) : Nat :=
  if value < 1 <<< 53 then value
  else
    let unit := 1 <<< (value.log2 - 52)
    let floor := value / unit
    let rest := value % unit
    (if 2 * rest > unit ∨ (2 * rest = unit ∧ floor % 2 = 1) then floor + 1 else floor) * unit

/-- Whether the number with the given decimal digits, times a power of ten, is not rounded to
infinity. Only a number between the powers 308 and 309 of ten has to be looked at closely. -/
def holds (digits : List Char) (power : Int) : Bool :=
  let significant := digits.dropWhile (· == '0')
  let magnitude : Int := significant.length + power
  let value := Nat.ofDigitChars 10 significant 0
  significant.isEmpty || magnitude ≤ 308 ||
    (magnitude ≤ 309 &&
      value * Nat.pow 10 power.toNat < infinityBound * Nat.pow 10 (-power).toNat)

end MeshFormation.DoubleRange
