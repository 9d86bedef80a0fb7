import MeshFormation.ControlMessage.Codec
import MeshFormation.Proofs.Json.RoundTrip

/-!
# Control messages survive the wire

What `ControlMessage.encode` writes is read back by `ControlMessage.decode` as the same message,
whatever ranks it names and whatever characters its chassis has.
-/

namespace MeshFormation.ControlMessage

open Json

/-- The members of a written message: name, written value and the value it is read as. -/
def members : ControlMessage → List (String × List Char × Value)
  | forward forwarder receiver =>
    [("type", writeString "Forward", .string (some "Forward")),
      ("forwarder", writeWord forwarder, .number (wordNumber forwarder)),
      ("receiver", writeWord receiver, .number (wordNumber receiver))]
  | outerAnnounce node chassis =>
    [("type", writeString "OuterNodeAnnounce", .string (some "OuterNodeAnnounce")),
      ("nodeID", writeWord node, .number (wordNumber node)),
      ("chassisID", writeString chassis, .string (some chassis))]

theorem text_eq_writeObject (message : ControlMessage) :
    message.text = writeObject (message.members.map fun member => (member.1, member.2.1)) := by
  cases message <;> rfl

theorem readsAs_of_mem_members {message : ControlMessage} {levels : Nat}
    {member : String × List Char × Value} (h : member ∈ message.members) :
    ReadsAs levels member.2.1 member.2.2 := by
  cases message <;> simp only [members, List.mem_cons, List.not_mem_nil, or_false] at h <;>
    rcases h with rfl | rfl | rfl <;>
    first | exact readsAs_writeString levels _ | exact readsAs_writeWord levels _

theorem le_ofDigitChars (digits : List Char) (significand : Nat) :
    significand ≤ Nat.ofDigitChars 10 digits significand := by
  rw [Nat.ofDigitChars_eq_ofDigitChars_zero]
  have hpow : 0 < 10 ^ digits.length := Nat.pow_pos (by decide)
  have := Nat.le_mul_of_pos_left significand hpow
  omega

/-- Digits of a number that fits into the significand are all read into it. -/
theorem addWhole_eq {digits : List Char} {significand : Nat}
    (h : Nat.ofDigitChars 10 digits significand ≤ Number.maxSignificand) :
    Number.addWhole digits significand = (Nat.ofDigitChars 10 digits significand, 0) := by
  induction digits generalizing significand with
  | nil => rfl
  | cons c rest ih =>
    rw [Nat.ofDigitChars_cons, Nat.mul_comm] at h ⊢
    have hnext := Nat.le_trans (le_ofDigitChars rest _) h
    rw [Number.addWhole]
    simp only [hnext, if_true]
    exact ih h

theorem inRange_wordNumber (word : UInt32) : (wordNumber word).inRange = true := by
  have hlt : word.toNat < 2 ^ 32 := word.toNat_lt
  have hwhole := addWhole_eq (show Nat.ofDigitChars 10 (Nat.toDigits 10 word.toNat) 0 ≤ _ by
    rw [Nat.ofDigitChars_ten_toDigits, Number.maxSignificand, UInt64.size]
    omega)
  simp [Number.inRange, Number.parts, wordNumber, hwhole, Number.addFraction,
    Number.exponentValue]

theorem isSound_members (message : ControlMessage) :
    (Value.object (message.members.map fun member => (some member.1, member.2.2))).isSound =
      true := by
  cases message <;>
    simp [members, Value.isSound, Value.allMembersSound, inRange_wordNumber]

theorem ofValue?_members (message : ControlMessage) :
    ofValue? (.object (message.members.map fun member => (some member.1, member.2.2))) =
      some message := by
  cases message <;>
    simp [members, ofValue?, namedMembers?, ofMembers?, required?, valuesOf, Value.text?,
      word?_wordNumber]

theorem ofText?_text (message : ControlMessage) : ofText? message.text = some message := by
  have hne : message.members ≠ [] := by cases message <;> simp [members]
  have hread := read_writeObject 126 hne fun _ h => readsAs_of_mem_members h
  rw [ofText?, readSound, nestingLimit, text_eq_writeObject, hread, Option.filter_some,
    if_pos (isSound_members message), Option.bind_some, ofValue?_members]

/-- A message is decoded from its own bytes. -/
theorem decode_encode (message : ControlMessage) : decode message.encode = .ok message := by
  have hsize : message.encode.size ≠ 0 := by
    cases message <;> simp [encode, text, writeObject]
  have htext : String.fromUTF8? message.encode = some (String.ofList message.text) := by
    exact dif_pos (String.ofList message.text).isValidUTF8
  rw [decode, if_neg hsize, htext, Option.bind_some, String.toList_ofList, ofText?_text]

theorem encode_injective : Function.Injective encode := by
  intro message other hsame
  have hdecode := decode_encode message
  rw [hsame, decode_encode] at hdecode
  exact (Except.ok.inj hdecode).symm

end MeshFormation.ControlMessage
