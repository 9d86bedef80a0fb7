import MeshFormation.DoubleRange
import MeshFormation.Hexadecimal
import MeshFormation.Toml.Value

/-!
# TOML numbers and dates

The readers in this module answer what they read and the rest of the text behind it. The rest may
be anything: whatever must follow a value is checked by those who read it.
-/

namespace MeshFormation.Toml

/-! ## Digits -/

/-- Further digits of a number. An underscore must stand between two digits. -/
def moreDigits (isDigit : Char → Bool) : List Char → Option (List Char × List Char)
  | [] => some ([], [])
  | ['_'] => none
  | '_' :: c :: rest =>
    if isDigit c then
      (moreDigits isDigit rest).map fun (digits, rest) => (c :: digits, rest)
    else none
  | c :: rest =>
    if isDigit c then
      (moreDigits isDigit rest).map fun (digits, rest) => (c :: digits, rest)
    else some ([], c :: rest)

/-- At least one digit, with underscores only between digits. -/
def digitRun (isDigit : Char → Bool) : List Char → Option (List Char × List Char)
  | [] => none
  | c :: rest =>
    if isDigit c then
      (moreDigits isDigit rest).map fun (digits, rest) => (c :: digits, rest)
    else none

/-- Decimal digits that start with a zero only if that is all. -/
def wholeDigits : List Char → Option (List Char × List Char)
  | '0' :: rest => some (['0'], rest)
  | text => digitRun Char.isDigit text

/-- Whether a number starts with a minus sign, and the rest behind a sign of either kind. -/
def readSign : List Char → Bool × List Char
  | '-' :: rest => (true, rest)
  | '+' :: rest => (false, rest)
  | text => (false, text)

/-! ## Numbers -/

/-- An integer must fit 64 bits with a sign. -/
def integer? (value : Int) : Option Value :=
  if Int64.minValue.toInt ≤ value ∧ value ≤ Int64.maxValue.toInt then some (.integer value)
  else none

/-- An integer in the given base, behind the letter that names the base. -/
def readBased (base : Nat) (text : List Char) : Option (Value × List Char) :=
  match digitRun (fun c => (Hexadecimal.digit? c).any (· < base)) text with
  | none => none
  | some (digits, rest) =>
    let value := digits.foldl (fun value c => value * base + (Hexadecimal.digit? c).getD 0) 0
    (integer? value).map fun value => (value, rest)

/-- The digits behind the point, if there is a point. -/
def readFraction : List Char → Option (Option (List Char) × List Char)
  | '.' :: rest => (digitRun Char.isDigit rest).map fun (digits, rest) => (some digits, rest)
  | text => some (none, text)

/-- The value of the exponent, if there is one. -/
def readExponent : List Char → Option (Option Int × List Char)
  | c :: rest =>
    if c = 'e' ∨ c = 'E' then
      let (negative, rest) := readSign rest
      (digitRun Char.isDigit rest).map fun (digits, rest) =>
        let value : Int := Nat.ofDigitChars 10 digits 0
        (some (if negative then -value else value), rest)
    else some (none, c :: rest)
  | [] => some (none, [])

/-- The rest of a decimal number behind the digits before the point. With a fraction or an exponent
it is a floating point number, which may be too small but, if it is positive, not too large. -/
def readDecimal (negative : Bool) (whole text : List Char) : Option (Value × List Char) := do
  let (fraction, text) ← readFraction text
  let (exponent, text) ← readExponent text
  if fraction.isNone && exponent.isNone then
    let value : Int := Nat.ofDigitChars 10 whole 0
    let value ← integer? (if negative then -value else value)
    return (value, text)
  else
    let digits := fraction.getD []
    if negative || DoubleRange.holds (whole ++ digits) (exponent.getD 0 - digits.length) then
      return (.other .float, text)
    else none

/-- An integer or a floating point number. Infinity and not-a-number have names. -/
def readNumber : List Char → Option (Value × List Char)
  | '0' :: 'x' :: rest => readBased 16 rest
  | '0' :: 'o' :: rest => readBased 8 rest
  | '0' :: 'b' :: rest => readBased 2 rest
  | text =>
    match readSign text with
    | (_, 'i' :: 'n' :: 'f' :: rest) => some (.other .float, rest)
    | (_, 'n' :: 'a' :: 'n' :: rest) => some (.other .float, rest)
    | (negative, text) =>
      match wholeDigits text with
      | none => none
      | some (whole, rest) => readDecimal negative whole rest

/-! ## Dates and times -/

def twoDigits? : List Char → Option (Nat × List Char)
  | a :: b :: rest =>
    if a.isDigit && b.isDigit then some (Nat.ofDigitChars 10 [a, b] 0, rest) else none
  | _ => none

/-- A number of two digits in a range. -/
def twoDigitsIn? (low high : Nat) (text : List Char) : Option (Nat × List Char) :=
  (twoDigits? text).filter fun (value, _) => low ≤ value && value ≤ high

/-- The rest of a text behind a given character. -/
def expect (c : Char) : List Char → Option (List Char)
  | head :: rest => if head = c then some rest else none
  | [] => none

def isLeapYear (year : Nat) : Bool := year % 4 == 0 && (year % 100 != 0 || year % 400 == 0)

def daysIn (year month : Nat) : Nat :=
  if month = 2 then if isLeapYear year then 29 else 28
  else if month = 4 ∨ month = 6 ∨ month = 9 ∨ month = 11 then 30
  else 31

/-- The rest behind a date: year, month and day with hyphens between them. -/
def skipDate (text : List Char) : Option (List Char) := do
  let (century, text) ← twoDigits? text
  let (year, text) ← twoDigits? text
  let text ← expect '-' text
  let (month, text) ← twoDigitsIn? 1 12 text
  let text ← expect '-' text
  let (_, text) ← twoDigitsIn? 1 (daysIn (century * 100 + year) month) text
  return text

/-- The rest behind a fraction of a second, if there is one. -/
def skipSecondFraction : List Char → List Char
  | '.' :: c :: rest => if c.isDigit then rest.dropWhile Char.isDigit else '.' :: c :: rest
  | text => text

/-- The rest behind a time of day. The seconds must be written, and may name a leap second. -/
def skipTime (text : List Char) : Option (List Char) := do
  let (_, text) ← twoDigitsIn? 0 23 text
  let text ← expect ':' text
  let (_, text) ← twoDigitsIn? 0 59 text
  let text ← expect ':' text
  let (_, text) ← twoDigitsIn? 0 60 text
  return skipSecondFraction text

/-- The rest behind the offset of a time zone, if there is one. -/
def skipOffset : List Char → Option (List Char)
  | c :: rest =>
    if c = 'Z' ∨ c = 'z' then some rest
    else if c = '+' ∨ c = '-' then do
      let (_, text) ← twoDigitsIn? 0 23 rest
      let text ← expect ':' text
      let (_, text) ← twoDigitsIn? 0 59 text
      return text
    else some (c :: rest)
  | [] => some []

/-- The rest behind a date, a time of day, or a date with a time of day behind a letter or a
blank. Only the last may have an offset. -/
def skipDateTime (text : List Char) : Option (List Char) :=
  match skipDate text with
  | none => skipTime text
  | some (c :: rest) =>
    if c = 'T' ∨ c = 't' ∨ c = ' ' then
      match skipTime rest with
      | some rest => skipOffset rest
      | none => some (c :: rest)
    else some (c :: rest)
  | some [] => some []

end MeshFormation.Toml
