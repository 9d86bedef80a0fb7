import MeshFormation.Hexadecimal

/-!
# Writing JSON

Documents are written without white space, their members in the order in which they are given.
Inside a string, quotes, backslashes and control characters are escaped, by a letter where there is
one; all else stands for itself.
-/

namespace MeshFormation.Json

def escape (c : Char) : List Char :=
  match c with
  | '"' => ['\\', '"']
  | '\\' => ['\\', '\\']
  | '\x08' => ['\\', 'b']
  | '\t' => ['\\', 't']
  | '\n' => ['\\', 'n']
  | '\x0c' => ['\\', 'f']
  | '\r' => ['\\', 'r']
  | c => if c < ' ' then ['\\', 'u', '0', '0'] ++ Hexadecimal.twoDigits c.toNat else [c]

def writeString (text : String) : List Char :=
  '"' :: (text.toList.flatMap escape ++ ['"'])

def writeWord (value : UInt32) : List Char := Nat.toDigits 10 value.toNat

/-- A string literal, or null for an absent text. -/
def writeOptional : Option String → List Char
  | none => ['n', 'u', 'l', 'l']
  | some text => writeString text

/-- A member of an object whose value is written already. -/
def writeMember (entry : String × List Char) : List Char :=
  writeString entry.1 ++ ':' :: entry.2

/-- The members of an object, with commas between them. -/
def writeMembers : List (String × List Char) → List Char
  | [] => []
  | [entry] => writeMember entry
  | entry :: rest => writeMember entry ++ ',' :: writeMembers rest

/-- An object whose values are written already. -/
def writeObject (members : List (String × List Char)) : List Char :=
  '{' :: (writeMembers members ++ ['}'])

end MeshFormation.Json
