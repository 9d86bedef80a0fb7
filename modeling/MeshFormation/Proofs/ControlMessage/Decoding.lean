import MeshFormation.ControlMessage.Codec
import MeshFormation.Proofs.Json.Members
import MeshFormation.Proofs.Json.Reading
import MeshFormation.Proofs.Json.Sound

/-!
# Which objects are control messages

An object is read as a control message if it holds the tag and the fields of the message once each,
whatever else it holds and however it is laid out. It is refused if the tag or a field that the tag
asks for is missing, repeated or not written as it has to be.
-/

namespace MeshFormation.ControlMessage

open Json

/-! ## Fields -/

/-- The value of a field of a message. -/
inductive Field where
  | rank (value : Rank)
  | text (value : String)

def Field.IsWritten : Field → Value → Prop
  | .rank word, value => Integer value word.toNat
  | .text chars, value => value = .string (some chars)

def fields : ControlMessage → List (String × Field)
  | forward forwarder receiver =>
    [("type", .text "Forward"), ("forwarder", .rank forwarder), ("receiver", .rank receiver)]
  | outerAnnounce node chassis =>
    [("type", .text "OuterNodeAnnounce"), ("nodeID", .rank node), ("chassisID", .text chassis)]

variable {members : List (Text × Value)} {message : ControlMessage}

/-- An object holds each field of a message once, with its value. -/
def Carries (members : List (Text × Value)) (message : ControlMessage) : Prop :=
  ∀ entry ∈ message.fields, ∃ value, Once members entry.1 value ∧ entry.2.IsWritten value

section Named

variable {named : List (String × Value)}

theorem text_eq_some_iff {name text : String} :
    (required? named name).bind Value.text? = some text ↔
      ∃ value, Once (withTexts named) name value ∧ (Field.text text).IsWritten value := by
  simp only [Option.bind_eq_some_iff, required?_eq_some_iff, text?_eq_some_iff, Field.IsWritten]

theorem rank_eq_some_iff {name : String} {rank : Rank} :
    (required? named name).bind Value.word? = some rank ↔
      ∃ value, Once (withTexts named) name value ∧ (Field.rank rank).IsWritten value := by
  simp only [Option.bind_eq_some_iff, required?_eq_some_iff, word?_eq_some_iff, Field.IsWritten]

theorem carries_forward_iff {forwarder receiver : Rank} :
    Carries (withTexts named) (.forward forwarder receiver) ↔
      (required? named "type").bind Value.text? = some "Forward" ∧
        (required? named "forwarder").bind Value.word? = some forwarder ∧
        (required? named "receiver").bind Value.word? = some receiver := by
  rw [text_eq_some_iff, rank_eq_some_iff, rank_eq_some_iff]
  simp [Carries, fields]

theorem carries_outerAnnounce_iff {node : Rank} {chassis : String} :
    Carries (withTexts named) (.outerAnnounce node chassis) ↔
      (required? named "type").bind Value.text? = some "OuterNodeAnnounce" ∧
        (required? named "nodeID").bind Value.word? = some node ∧
        (required? named "chassisID").bind Value.text? = some chassis := by
  rw [text_eq_some_iff, rank_eq_some_iff, text_eq_some_iff]
  simp [Carries, fields]

theorem ofMembers?_eq_some_iff :
    ofMembers? named = some message ↔ Carries (withTexts named) message := by
  constructor
  · intro h
    unfold ofMembers? at h
    split at h
    · rename_i htag
      split at h
      · rename_i forwarder receiver hforwarder hreceiver
        obtain rfl := Option.some.inj h
        exact carries_forward_iff.2 ⟨htag, hforwarder, hreceiver⟩
      · exact absurd h (by simp)
    · rename_i htag
      split at h
      · rename_i node chassis hnode hchassis
        obtain rfl := Option.some.inj h
        exact carries_outerAnnounce_iff.2 ⟨htag, hnode, hchassis⟩
      · exact absurd h (by simp)
    · exact absurd h (by simp)
  · intro h
    cases message with
    | forward forwarder receiver =>
      obtain ⟨htag, hforwarder, hreceiver⟩ := carries_forward_iff.1 h
      simp only [ofMembers?, htag, hforwarder, hreceiver]
    | outerAnnounce node chassis =>
      obtain ⟨htag, hnode, hchassis⟩ := carries_outerAnnounce_iff.1 h
      simp only [ofMembers?, htag, hnode, hchassis]

end Named

/-! ## Documents -/

section Documents

variable {levels : Nat} {text : List Char}

theorem readSound_eq_some_iff {value : Value} :
    readSound text = some value ↔ Document nestingLimit text value ∧ value.isSound = true := by
  rw [readSound, Option.filter_eq_some_iff, read_eq_some_iff]

/-- An object is read as a message if all of it is sound, not nested too deep, and carries the
message. -/
theorem ofText?_eq_some_iff (h : Document levels text (.object members)) :
    ofText? text = some message ↔
      Document nestingLimit text (.object members) ∧ (Value.object members).isSound = true ∧
        Carries members message := by
  rw [ofText?, Option.bind_eq_some_iff]
  constructor
  · rintro ⟨value, hvalue, hmessage⟩
    obtain ⟨hdocument, hsound⟩ := readSound_eq_some_iff.1 hvalue
    obtain rfl := h.unique hdocument
    obtain ⟨named, hnamed, hcarries⟩ := Option.bind_eq_some_iff.1 hmessage
    obtain rfl := namedMembers?_eq_some_iff.1 hnamed
    exact ⟨hdocument, hsound, ofMembers?_eq_some_iff.1 hcarries⟩
  · rintro ⟨hdocument, hsound, hcarries⟩
    obtain ⟨named, rfl⟩ := exists_withTexts_of_isSound hsound
    refine ⟨_, readSound_eq_some_iff.2 ⟨hdocument, hsound⟩, ?_⟩
    rw [ofValue?, namedMembers?_eq_some_iff.2 rfl, Option.bind_some]
    exact ofMembers?_eq_some_iff.2 hcarries

end Documents

theorem decode_toUTF8 {text : String} (h : text ≠ "") :
    decode text.toUTF8 = match ofText? text.toList with
      | some message => .ok message
      | none => .error .malformed := by
  have hsize : text.toUTF8.size ≠ 0 := by
    simpa using h
  have htext : String.fromUTF8? text.toUTF8 = some text := dif_pos text.isValidUTF8
  rw [decode, if_neg hsize, htext]
  rfl

/-! ## Faults -/

/-- What a field is written as. -/
inductive Kind where
  | rank
  | text

/-- Ranks are unsigned integers of 32 bits, the rest are strings. -/
def Kind.Admits : Kind → Value → Prop
  | rank, value => ∃ n ≤ 4294967295, Integer value n
  | text, value => ∃ chars, value = .string (some chars)

/-- The fields that a tag asks for. -/
def kindsOf (tag : String) : List (String × Kind) :=
  if tag = "Forward" then [("forwarder", .rank), ("receiver", .rank)]
  else if tag = "OuterNodeAnnounce" then [("nodeID", .rank), ("chassisID", .text)]
  else []

/-- The tag is required of any object, and what the tag asks for of an object that has one. -/
inductive Required (members : List (Text × Value)) : String → Kind → Prop where
  | tag : Required members "type" .text
  | field {tag name : String} {kind : Kind} (tagged : Once members "type" (.string (some tag)))
      (asked : (name, kind) ∈ kindsOf tag) : Required members name kind

/-- Something that is required is missing, repeated or not written as it has to be. -/
inductive Fault (members : List (Text × Value)) : Prop where
  | missing {name : String} {kind : Kind} (required : Required members name kind)
      (absent : ∀ entry ∈ members, entry.1 ≠ some name) : Fault members
  | repeated {name : String} {kind : Kind} {first second : Value}
      {before between after : List (Text × Value)} (required : Required members name kind)
      (twice : members = before ++ (some name, first) ::
        (between ++ (some name, second) :: after)) :
      Fault members
  | unfit {name : String} {kind : Kind} {value : Value} (required : Required members name kind)
      (present : (some name, value) ∈ members) (unfit : ¬ kind.Admits value) : Fault members

def Field.kind : Field → Kind
  | .rank _ => .rank
  | .text _ => .text

theorem Field.IsWritten.admits {field : Field} {value : Value} (h : field.IsWritten value) :
    field.kind.Admits value := by
  cases field with
  | rank rank => exact ⟨rank.toNat, Nat.le_of_lt_succ rank.toNat_lt, h⟩
  | text chars => exact ⟨chars, h⟩

theorem fields_eq_cons (message : ControlMessage) :
    message.fields = ("type", .text message.kind) :: message.fields.tail := by
  cases message <;> rfl

theorem kindsOf_kind (message : ControlMessage) :
    kindsOf message.kind = message.fields.tail.map fun entry => (entry.1, entry.2.kind) := by
  cases message <;> rfl

theorem Required.once {name : String} {kind : Kind} (h : Required members name kind)
    (hcarries : Carries members message) :
    ∃ value, Once members name value ∧ kind.Admits value := by
  have hmem : ("type", .text message.kind) ∈ message.fields := by
    rw [fields_eq_cons]
    exact List.mem_cons_self
  obtain ⟨_, htag, rfl⟩ := hcarries _ hmem
  cases h with
  | tag => exact ⟨_, htag, message.kind, rfl⟩
  | @field tag _ _ tagged asked =>
    have hkind : tag = message.kind := by simpa using htag.eq_of_mem tagged.mem
    rw [hkind, kindsOf_kind, List.mem_map] at asked
    obtain ⟨⟨_, field⟩, hfield, heq⟩ := asked
    obtain ⟨rfl, rfl⟩ := Prod.mk.inj heq
    obtain ⟨value, honce, hwritten⟩ := hcarries _ (List.mem_of_mem_tail hfield)
    exact ⟨value, honce, hwritten.admits⟩

theorem Fault.not_carries (h : Fault members) : ¬ Carries members message := by
  intro hcarries
  cases h with
  | missing required absent =>
    obtain ⟨value, honce, -⟩ := required.once hcarries
    exact absent _ honce.mem rfl
  | repeated required twice =>
    obtain ⟨value, honce, -⟩ := required.once hcarries
    have hcount := honce.countP_eq
    simp only [twice, List.countP_append, List.countP_cons, beq_self_eq_true, if_true] at hcount
    omega
  | unfit required present unfit =>
    obtain ⟨value, honce, hadmits⟩ := required.once hcarries
    obtain rfl := honce.eq_of_mem present
    exact unfit hadmits

/-- An object that carries a message is decoded as that message, and one with a fault is refused. -/
theorem decode_object {levels : Nat} {text : String}
    (h : Document levels text.toList (.object members)) :
    (∀ message, levels ≤ nestingLimit →
        (∀ literal ∈ (Value.object members).literals, literal.Readable) → Carries members message →
        decode text.toUTF8 = .ok message) ∧
      (Fault members → decode text.toUTF8 = .error .malformed) := by
  have hne : text ≠ "" := by
    rintro rfl
    exact not_document_nil h
  rw [decode_toUTF8 hne]
  constructor
  · intro message hlevels hliterals hcarries
    have hsound : (Value.object members).isSound = true := by
      rw [Value.isSound_eq_all, List.all_eq_true]
      exact fun literal hliteral => Literal.readable_iff.1 (hliterals literal hliteral)
    rw [(ofText?_eq_some_iff h).2 ⟨h.mono hlevels, hsound, hcarries⟩]
  · intro hfault
    cases hmessage : ofText? text.toList with
    | none => rfl
    | some message => exact absurd ((ofText?_eq_some_iff h).1 hmessage).2.2 hfault.not_carries

/-- The members come in another order, there is a member of another name, and all is spread out.
Without the receiver the object is refused. -/
theorem decode_object_forward :
    decode "\x7b\"receiver\" : 2,\n \"x\":[1e5], \"type\":\"Forward\", \"forwarder\":4\x7d".toUTF8 =
        .ok (.forward 4 2) ∧
      decode "\x7b\"type\":\"Forward\", \"forwarder\":4\x7d".toUTF8 = .error .malformed := by
  have hread : Document 2
      "\x7b\"receiver\" : 2,\n \"x\":[1e5], \"type\":\"Forward\", \"forwarder\":4\x7d".toList
      (.object [(some "receiver", .number (wordNumber 2)),
        (some "x", .array [.number ⟨false, ['1'], none, some (false, ['5'])⟩]),
        (some "type", .string (some "Forward")), (some "forwarder", .number (wordNumber 4))]) :=
    read_eq_some_iff.1 rfl
  have hshort : Document 1 "\x7b\"type\":\"Forward\", \"forwarder\":4\x7d".toList
      (.object [(some "type", .string (some "Forward")),
        (some "forwarder", .number (wordNumber 4))]) :=
    read_eq_some_iff.1 rfl
  constructor
  · refine (decode_object hread).1 (.forward 4 2) (by decide) (fun literal hliteral => ?_) ?_
    · refine Literal.readable_iff.2 (List.all_eq_true.1 ?_ literal hliteral)
      decide
    · exact (@ofMembers?_eq_some_iff _
        [("receiver", _), ("x", _), ("type", _), ("forwarder", _)]).1 rfl
  · have htagged : ∀ value,
        Once [(some "type", .string (some "Forward")), (some "forwarder", value)]
          "type" (.string (some "Forward")) := fun value => ⟨[], [_], rfl, by simp⟩
    exact (decode_object hshort).2
      (.missing (.field (htagged _) (List.mem_cons_of_mem _ List.mem_cons_self)) (by simp))

/-- A forward with a further member whose number is less than the largest floating point number. -/
def tightText : String :=
  "\x7b\"type\":\"Forward\",\"forwarder\":4,\"receiver\":2,\"x\":1797693134862315700e290\x7d"

def tightNumber : Number := ⟨false, "1797693134862315700".toList, none, some (false, "290".toList)⟩

def tightMembers : List (Text × Value) :=
  [(some "type", .string (some "Forward")), (some "forwarder", .number (wordNumber 4)),
    (some "receiver", .number (wordNumber 2)), (some "x", .number tightNumber)]

theorem magnitude_wordNumber (word : UInt32) : (wordNumber word).magnitude = word.toNat := by
  simp [Number.magnitude, wordNumber, Number.exponentValue, Nat.ofDigitChars_ten_toDigits]

theorem moderate_wordNumber (word : UInt32) : (Literal.number (wordNumber word)).Moderate := by
  have hlargest : 2 ^ 32 ≤ DoubleRange.largest := by decide +kernel
  rw [Literal.Moderate, magnitude_wordNumber]
  exact Nat.cast_le.2 (word.toNat_lt.le.trans hlargest)

theorem moderate_tightNumber : (Literal.number tightNumber).Moderate := by
  have hlargest : 1797693134862315700 * 10 ^ 290 ≤ DoubleRange.largest := by decide +kernel
  have hmagnitude : tightNumber.magnitude = ((1797693134862315700 * 10 ^ 290 : Nat) : ℚ) := by
    have hdigits : Nat.ofDigitChars 10 (tightNumber.whole ++ tightNumber.fraction.getD []) 0 =
        1797693134862315700 := rfl
    have hpower :
        tightNumber.exponentValue - (tightNumber.fraction.getD []).length = (290 : Nat) := rfl
    rw [Number.magnitude, hdigits, hpower, zpow_natCast, Nat.cast_mul, Nat.cast_pow]
    rfl
  rw [Literal.Moderate, hmagnitude]
  exact Nat.cast_le.2 hlargest

/-- All numbers of the object are in the range of floating point numbers, and nothing is wrong with
the members of the message, but the last number is rounded beyond that range. -/
theorem decode_tightText :
    Document nestingLimit tightText.toList (.object tightMembers) ∧
      (∀ literal ∈ (Value.object tightMembers).literals, literal.Moderate) ∧
      Carries tightMembers (.forward 4 2) ∧ decode tightText.toUTF8 = .error .malformed := by
  have hdocument : Document nestingLimit tightText.toList (.object tightMembers) :=
    read_eq_some_iff.1 rfl
  have hunsound : (Value.object tightMembers).isSound = false := by decide +kernel
  have hcarries : Carries tightMembers (.forward 4 2) :=
    (@ofMembers?_eq_some_iff _ [("type", _), ("forwarder", _), ("receiver", _), ("x", _)]).1 rfl
  have htext : ∀ text : String, (Literal.text (some text)).Moderate :=
    fun _ => Option.some_ne_none _
  refine ⟨hdocument, ?_, hcarries, ?_⟩
  · simp [tightMembers, Value.literals, Value.literalsOfMembers, htext, moderate_wordNumber,
      moderate_tightNumber]
  · have hnone : ofText? tightText.toList = none := by
      rw [ofText?, readSound, read_eq_some_iff.2 hdocument, Option.filter_some, hunsound]
      rfl
    rw [decode_toUTF8 (by decide), hnone]

end MeshFormation.ControlMessage
