import MeshFormation.Rank

/-!
# Control messages

The two messages that nodes of an ensemble send each other over the messaging transport.
-/

namespace MeshFormation

inductive ControlMessage where
  /-- `forwarder` now relays the data of the node that gets this message to `receiver`. -/
  | forward (forwarder receiver : Rank)
  /-- `node`, which sits in `chassis`, holds a link to the other chassis. -/
  | outerAnnounce (node : Rank) (chassis : String)
deriving DecidableEq

def ControlMessage.kind : ControlMessage → String
  | forward _ _ => "Forward"
  | outerAnnounce _ _ => "OuterNodeAnnounce"

structure AddressedMessage where
  receiver : Rank
  message : ControlMessage
deriving DecidableEq

/-- The messages that one transition asks for, in the order in which they are to be sent. -/
abbrev Outbox := List AddressedMessage

end MeshFormation
