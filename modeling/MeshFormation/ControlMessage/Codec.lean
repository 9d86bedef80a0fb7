import MeshFormation.Backend
import MeshFormation.ControlMessage
import MeshFormation.Json.Object
import MeshFormation.Json.Reader
import MeshFormation.Json.Writer
import MeshFormation.RouterError

/-!
# The wire form of control messages

A control message is sent as a JSON object whose member `type` names the kind of message, such as

    {"type":"Forward","forwarder":4,"receiver":2}

A reader accepts the members in any order and ignores members it does not know. The tag and the
members of the tagged kind must be there exactly once. An array that holds the tag and then the
values of the members, in their order and with nothing behind them, is accepted too.
-/

namespace MeshFormation.ControlMessage

open Json

/-- The message whose fields are given by name. -/
def ofMembers? (members : List (String × Value)) : Option ControlMessage :=
  match (required? members "type").bind Value.text? with
  | some "Forward" =>
    match (required? members "forwarder").bind Value.word?,
        (required? members "receiver").bind Value.word? with
    | some forwarder, some receiver => some (.forward forwarder receiver)
    | _, _ => none
  | some "OuterNodeAnnounce" =>
    match (required? members "nodeID").bind Value.word?,
        (required? members "chassisID").bind Value.text? with
    | some node, some chassis => some (.outerAnnounce node chassis)
    | _, _ => none
  | _ => none

/-- The message whose fields are given in order. -/
def ofItems? : List Value → Option ControlMessage
  | [tag, first, second] =>
    match tag.text? with
    | some "Forward" =>
      match first.word?, second.word? with
      | some forwarder, some receiver => some (.forward forwarder receiver)
      | _, _ => none
    | some "OuterNodeAnnounce" =>
      match first.word?, second.text? with
      | some node, some chassis => some (.outerAnnounce node chassis)
      | _, _ => none
    | _ => none
  | _ => none

def ofValue? : Value → Option ControlMessage
  | .object members => (namedMembers? members).bind ofMembers?
  | .array items => ofItems? items
  | _ => none

/-- The message that a text stands for. All of the text must be sound. -/
def ofText? (text : List Char) : Option ControlMessage := (readSound text).bind ofValue?

def text (message : ControlMessage) : List Char :=
  let tag := ("type", writeString message.kind)
  match message with
  | forward forwarder receiver =>
    writeObject [tag, ("forwarder", writeWord forwarder), ("receiver", writeWord receiver)]
  | outerAnnounce node chassis =>
    writeObject [tag, ("nodeID", writeWord node), ("chassisID", writeString chassis)]

def encode (message : ControlMessage) : Payload := (String.ofList message.text).toUTF8

def decode (payload : Payload) : Except PayloadError ControlMessage :=
  if payload.size = 0 then .error .empty
  else
    match (String.fromUTF8? payload).bind fun text => ofText? text.toList with
    | some message => .ok message
    | none => .error .malformed

end MeshFormation.ControlMessage

namespace MeshFormation.Journal

/-- The control messages that were handed to the transport, in order. Payloads that are no control
message are left out. -/
def sent (journal : Journal) : List AddressedMessage :=
  journal.accepted.filterMap fun
    | .send receiver payload => (ControlMessage.decode payload).toOption.map (⟨receiver, ·⟩)
    | _ => none

end MeshFormation.Journal
