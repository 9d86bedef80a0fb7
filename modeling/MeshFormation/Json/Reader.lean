import MeshFormation.Hexadecimal
import MeshFormation.Json.Value

/-!
# Reading JSON

A text is read into the value it stands for. The reader follows the grammar of JSON and nothing
else; what a document must contain is a question for those who use the value. Containers may be
nested up to a given number of levels.
-/

namespace MeshFormation.Json

def isBlank (c : Char) : Bool := c == ' ' || c == '\t' || c == '\n' || c == '\r'

def skipBlank (text : List Char) : List Char := text.dropWhile isBlank

/-! ## Strings -/

/-- One part of a string literal: a character, or the code unit of a numeric escape. -/
inductive Piece where
  | char (c : Char)
  | unit (value : Nat)
deriving DecidableEq

/-- The character of an escape with a single letter. -/
def shortEscape? : Char → Option Char
  | '"' => some '"'
  | '\\' => some '\\'
  | '/' => some '/'
  | 'b' => some '\x08'
  | 'f' => some '\x0c'
  | 'n' => some '\n'
  | 'r' => some '\r'
  | 't' => some '\t'
  | _ => none

/-- The parts of a string literal whose opening quote was read, and the rest behind its closing
quote. Control characters must be escaped. -/
def readPieces : List Char → Option (List Piece × List Char)
  | [] => none
  | '"' :: rest => some ([], rest)
  | '\\' :: 'u' :: a :: b :: c :: d :: rest =>
    match Hexadecimal.ofDigits? [a, b, c, d], readPieces rest with
    | some value, some (pieces, rest) => some (.unit value :: pieces, rest)
    | _, _ => none
  | '\\' :: letter :: rest =>
    match shortEscape? letter, readPieces rest with
    | some c, some (pieces, rest) => some (.char c :: pieces, rest)
    | _, _ => none
  | c :: rest =>
    if c < ' ' then none
    else
      match readPieces rest with
      | some (pieces, rest) => some (.char c :: pieces, rest)
      | none => none

/-- Whether a code unit is the first half of a surrogate pair. -/
def isHighSurrogate (value : Nat) : Bool := 0xd800 ≤ value && value < 0xdc00

/-- Whether a code unit is the second half of a surrogate pair. -/
def isLowSurrogate (value : Nat) : Bool := 0xdc00 ≤ value && value < 0xe000

/-- The characters of the parts. Two escapes may form a surrogate pair; a surrogate without its
partner stands for nothing. -/
def decodePieces : List Piece → Option (List Char)
  | [] => some []
  | .char c :: rest => (decodePieces rest).map (c :: ·)
  | .unit value :: rest =>
    if isHighSurrogate value then
      match rest with
      | .unit low :: rest =>
        if isLowSurrogate low then
          (decodePieces rest).map
            (Char.ofNat (0x10000 + (value - 0xd800) * 0x400 + (low - 0xdc00)) :: ·)
        else none
      | _ => none
    else if isLowSurrogate value then none
    else (decodePieces rest).map (Char.ofNat value :: ·)

/-- The text of a string literal whose opening quote was read, and the rest behind it. -/
def readText (text : List Char) : Option (Text × List Char) :=
  (readPieces text).map fun (pieces, rest) => ((decodePieces pieces).map String.ofList, rest)

/-! ## Numbers -/

/-- At least one digit, and the rest behind the digits. -/
def readDigits (text : List Char) : Option (List Char × List Char) :=
  match text.takeWhile Char.isDigit with
  | [] => none
  | digits => some (digits, text.dropWhile Char.isDigit)

/-- The digits before the point, which start with a zero only if that is all. -/
def readWhole (text : List Char) : Option (List Char × List Char) :=
  match readDigits text with
  | some ('0' :: _ :: _, _) => none
  | result => result

/-- The digits behind the point, if there is a point. -/
def readFraction : List Char → Option (Option (List Char) × List Char)
  | '.' :: rest => (readDigits rest).map fun (digits, rest) => (some digits, rest)
  | text => some (none, text)

/-- The sign and the digits of an exponent, if there is one. -/
def readExponent : List Char → Option (Option (Bool × List Char) × List Char)
  | c :: rest =>
    if c = 'e' ∨ c = 'E' then
      let (negative, rest) :=
        match rest with
        | '-' :: rest => (true, rest)
        | '+' :: rest => (false, rest)
        | rest => (false, rest)
      (readDigits rest).map fun (digits, rest) => (some (negative, digits), rest)
    else some (none, c :: rest)
  | [] => some (none, [])

/-- A number, and the rest behind it. -/
def readNumber (text : List Char) : Option (Number × List Char) := do
  let (negative, text) :=
    match text with
    | '-' :: rest => (true, rest)
    | text => (false, text)
  let (whole, text) ← readWhole text
  let (fraction, text) ← readFraction text
  let (exponent, text) ← readExponent text
  return (⟨negative, whole, fraction, exponent⟩, text)

/-! ## Values -/

/-- Items separated by commas up to a closing bracket, at least one. Each round of the loop reads
an item, so the length of the text bounds the number of rounds. -/
def readItems (readItem : List Char → Option (Value × List Char)) :
    Nat → List Char → Option (List Value × List Char)
  | 0, _ => none
  | rounds + 1, text =>
    match readItem text with
    | none => none
    | some (item, rest) =>
      match skipBlank rest with
      | ',' :: rest =>
        match readItems readItem rounds rest with
        | none => none
        | some (items, rest) => some (item :: items, rest)
      | ']' :: rest => some ([item], rest)
      | _ => none

/-- A name and a value with a colon between them. -/
def readMember (readItem : List Char → Option (Value × List Char)) (text : List Char) :
    Option ((Text × Value) × List Char) :=
  match skipBlank text with
  | '"' :: rest =>
    match readText rest with
    | none => none
    | some (name, rest) =>
      match skipBlank rest with
      | ':' :: rest => (readItem rest).map fun (value, rest) => ((name, value), rest)
      | _ => none
  | _ => none

/-- Members separated by commas up to a closing brace, at least one. -/
def readMembers (readItem : List Char → Option (Value × List Char)) :
    Nat → List Char → Option (List (Text × Value) × List Char)
  | 0, _ => none
  | rounds + 1, text =>
    match readMember readItem text with
    | none => none
    | some (entry, rest) =>
      match skipBlank rest with
      | ',' :: rest =>
        match readMembers readItem rounds rest with
        | none => none
        | some (entries, rest) => some (entry :: entries, rest)
      | '}' :: rest => some ([entry], rest)
      | _ => none

/-- A value that is no container, and the rest behind it. -/
def readScalar : List Char → Option (Value × List Char)
  | '"' :: rest => (readText rest).map fun (text, rest) => (.string text, rest)
  | 'n' :: 'u' :: 'l' :: 'l' :: rest => some (.null, rest)
  | 't' :: 'r' :: 'u' :: 'e' :: rest => some (.boolean true, rest)
  | 'f' :: 'a' :: 'l' :: 's' :: 'e' :: rest => some (.boolean false, rest)
  | text => (readNumber text).map fun (number, rest) => (.number number, rest)

/-- A value behind white space, and the rest behind the value. Containers may be nested up to the
given number of levels. -/
def readValue : Nat → List Char → Option (Value × List Char)
  | 0, text =>
    match skipBlank text with
    | '[' :: _ => none
    | '{' :: _ => none
    | text => readScalar text
  | levels + 1, text =>
    match skipBlank text with
    | '[' :: rest =>
      match skipBlank rest with
      | ']' :: rest => some (.array [], rest)
      | rest =>
        (readItems (readValue levels) (rest.length + 1) rest).map
          fun (items, rest) => (.array items, rest)
    | '{' :: rest =>
      match skipBlank rest with
      | '}' :: rest => some (.object [], rest)
      | rest =>
        (readMembers (readValue levels) (rest.length + 1) rest).map
          fun (members, rest) => (.object members, rest)
    | text => readScalar text

/-- The value of a whole text. Only white space may follow it. -/
def read (levels : Nat) (text : List Char) : Option Value :=
  match readValue levels text with
  | some (value, rest) => if (skipBlank rest).isEmpty then some value else none
  | none => none

/-- The number of nested containers that a text with checked values may have. -/
def nestingLimit : Nat := 127

/-- The value of a whole text with limited nesting, if all of it is sound. -/
def readSound (text : List Char) : Option Value :=
  (read nestingLimit text).filter Value.isSound

/-- The value of a whole text with any nesting. A text cannot be nested deeper than it is long. -/
def readLenient (text : List Char) : Option Value := read text.length text

end MeshFormation.Json
