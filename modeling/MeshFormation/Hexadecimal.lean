/-!
# Hexadecimal digits

Both document formats write characters by their code points in hexadecimal digits.
-/

namespace MeshFormation.Hexadecimal

/-- The value of a hexadecimal digit in either case. -/
def digit? (c : Char) : Option Nat :=
  if '0' ≤ c ∧ c ≤ '9' then some (c.toNat - '0'.toNat)
  else if 'a' ≤ c ∧ c ≤ 'f' then some (c.toNat - 'a'.toNat + 10)
  else if 'A' ≤ c ∧ c ≤ 'F' then some (c.toNat - 'A'.toNat + 10)
  else none

/-- The number that hexadecimal digits stand for, most significant first. -/
def ofDigits? (digits : List Char) : Option Nat :=
  digits.foldlM (fun value c => (digit? c).map (value * 16 + ·)) 0

/-- The character of a code point, if it is one: surrogates and numbers that are too large stand
for none. -/
def scalar? (code : Nat) : Option Char :=
  if code.isValidChar then some (Char.ofNat code) else none

def twoDigits (value : Nat) : List Char :=
  [Nat.digitChar (value / 16), Nat.digitChar (value % 16)]

end MeshFormation.Hexadecimal
