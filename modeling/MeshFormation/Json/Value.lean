import MeshFormation.DoubleRange

/-!
# JSON values

The value that a JSON text stands for. Numbers keep the digits they are written with, because
whether a number is an integer, and whether it is small enough, depends on how it is written. A
string literal may hold an escaped surrogate without its partner. Such a literal is well formed
but stands for no text, so the text of a literal is optional.

A value is `Sound` if all its literals stand for a text and all its numbers are in the range of a
64-bit floating point number. Some readers ask for that, others do not look.
-/

namespace MeshFormation.Json

/-- The text of a string literal, if there is one. -/
abbrev Text := Option String

/-- A number as it is written. The fraction and the exponent have at least one digit each. The
flag of the exponent says whether it is negative. -/
structure Number where
  negative : Bool
  whole : List Char
  fraction : Option (List Char)
  exponent : Option (Bool × List Char)
deriving DecidableEq

namespace Number

open DoubleRange

/-- The value of a number that is written without sign, fraction and exponent. -/
def toNat? (number : Number) : Option Nat :=
  if number.negative || number.fraction.isSome || number.exponent.isSome then none
  else some (Nat.ofDigitChars 10 number.whole 0)

/-- The largest number of the significand, which is a 64-bit word. -/
def maxSignificand : Nat := UInt64.size - 1

/-- Reads digits before the point into a significand and a power of ten. From the first digit that
does not fit, every digit only raises the power. -/
def addWhole : List Char → Nat → Nat × Int
  | [], significand => (significand, 0)
  | c :: rest, significand =>
    let next := significand * 10 + (c.toNat - '0'.toNat)
    if next ≤ maxSignificand then addWhole rest next else (significand, rest.length + 1)

/-- Reads digits behind the point. The first digit that does not fit ends the reading. -/
def addFraction : List Char → Nat × Int → Nat × Int
  | [], parts => parts
  | c :: rest, (significand, power) =>
    let next := significand * 10 + (c.toNat - '0'.toNat)
    if next ≤ maxSignificand then addFraction rest (next, power - 1) else (significand, power)

/-- The signed value of the exponent. -/
def exponentValue (number : Number) : Int :=
  match number.exponent with
  | none => 0
  | some (false, digits) => Nat.ofDigitChars 10 digits 0
  | some (true, digits) => -(Nat.ofDigitChars 10 digits 0 : Int)

/-- The significand of a number and its power of ten. -/
def parts (number : Number) : Nat × Int :=
  let (significand, power) :=
    addFraction (number.fraction.getD []) (addWhole number.whole 0)
  (significand, power + number.exponentValue)

/-- Whether a number is in the range of a 64-bit floating point number. The significand and the
power of ten are rounded before they are multiplied, and a power above 308 is out of range unless
the significand is zero. Small numbers are always in range, since they are rounded to zero. -/
def inRange (number : Number) : Bool :=
  let (significand, power) := number.parts
  significand == 0 || power ≤ 0 ||
    (power ≤ 308 && nearest significand * nearest (Nat.pow 10 power.toNat) < infinityBound)

end Number

/-- A JSON value. Objects keep repeated names. -/
inductive Value where
  | null
  | boolean (value : Bool)
  | number (value : Number)
  | string (text : Text)
  | array (items : List Value)
  | object (members : List (Text × Value))

mutual

/-- Whether all literals stand for a text and all numbers are in range. -/
def Value.isSound : Value → Bool
  | .null => true
  | .boolean _ => true
  | .number value => value.inRange
  | .string text => text.isSome
  | .array items => Value.allSound items
  | .object members => Value.allMembersSound members

/-- Whether all values of a list are sound. -/
def Value.allSound : List Value → Bool
  | [] => true
  | value :: rest => value.isSound && Value.allSound rest

/-- Whether the name and the value of all members are sound. -/
def Value.allMembersSound : List (Text × Value) → Bool
  | [] => true
  | (name, value) :: rest => name.isSome && value.isSound && Value.allMembersSound rest

end

end MeshFormation.Json
