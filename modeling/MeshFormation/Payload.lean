import MeshFormation.Backend

/-!
# Payloads as text

A payload is shown as the text that its bytes encode in UTF-8. Bytes that encode nothing are shown
as replacement characters: one for each longest run of bytes that begins a character, and one for
each byte that begins none.
-/

namespace MeshFormation.Payload

/-- Whether a byte may follow the first byte of a character. -/
def isTail (byte : UInt8) : Bool := 0x80 ≤ byte && byte ≤ 0xbf

/-- The range of the second byte and the number of bytes behind the first one, if a byte can be
the first of a longer character. -/
def lead? (byte : UInt8) : Option (UInt8 × UInt8 × Nat) :=
  if 0xc2 ≤ byte ∧ byte ≤ 0xdf then some (0x80, 0xbf, 1)
  else if byte = 0xe0 then some (0xa0, 0xbf, 2)
  else if byte = 0xed then some (0x80, 0x9f, 2)
  else if 0xe1 ≤ byte ∧ byte ≤ 0xef then some (0x80, 0xbf, 2)
  else if byte = 0xf0 then some (0x90, 0xbf, 3)
  else if 0xf1 ≤ byte ∧ byte ≤ 0xf3 then some (0x80, 0xbf, 3)
  else if byte = 0xf4 then some (0x80, 0x8f, 3)
  else none

/-- The bytes behind the first one that can belong to the same character, at most `count`. -/
def tailBytes (low high : UInt8) (count : Nat) : List UInt8 → List UInt8
  | [] => []
  | second :: rest =>
    if low ≤ second ∧ second ≤ high then second :: (rest.take (count - 1)).takeWhile isTail
    else []

/-- The code point of a character whose first byte is followed by others. -/
def codePoint (first : UInt8) (others : List UInt8) : Nat :=
  others.foldl (fun code byte => code * 64 + byte.toNat % 64)
    (first.toNat % (1 <<< (6 - others.length)))

/-- The text of several bytes. Each round of the loop reads at least one byte. -/
def charsOf : Nat → List UInt8 → List Char
  | 0, _ => []
  | _, [] => []
  | rounds + 1, first :: rest =>
    if first < 0x80 then Char.ofNat first.toNat :: charsOf rounds rest
    else
      match lead? first with
      | none => '\ufffd' :: charsOf rounds rest
      | some (low, high, count) =>
        let others := tailBytes low high count rest
        let c := if others.length = count then Char.ofNat (codePoint first others) else '\ufffd'
        c :: charsOf rounds (rest.drop others.length)

def text (payload : Payload) : String :=
  String.ofList (charsOf payload.size payload.toList)

end MeshFormation.Payload
