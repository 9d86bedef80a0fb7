import MeshFormation.Ledger
import MeshFormation.Progress

/-!
# Protocol violations

The ways in which an event can break the delivery order that nodes rely on. Each cause is a
constructor, and `Violation.message` gives the text in which it is reported.
-/

namespace MeshFormation

inductive Violation where
  /-- A completion on a channel to which no peer is bound. -/
  | undiscoveredChannel (direction : Direction) (channel : Channel)
  | unknownSource (direction : Direction) (source : Rank)
  /-- The node's own data arrives. -/
  | ownDataReceived (channel : Channel)
  /-- The data of one source arrives on a second channel. -/
  | inputClash (clash : InputClash)
  | relayedBack (source : Rank)
  /-- More connections completed than were expected. -/
  | surplusCompletion (surplus : SurplusCompletion)
  | forwardNamesUnknown (forwarder receiver : Rank)
  | forwardBeforeRoute (forwarder : Rank)
  | forwardToSelf (forwarder : Rank)
  | unsoundRoute (fault : Route.Fault)
  | announceNamesSelf
  | announceNamesUnknown (node : Rank)
  | announceWrongChassis (node : Rank) (stated declared : String)
  | linkNeverRequested (peer : Rank)
  /-- A violation that was found outside the node. -/
  | reported (detail : String)
deriving DecidableEq

def Violation.message : Violation → String
  | undiscoveredChannel direction channel =>
    s!"{direction.name} completion on undiscovered channel {channel}"
  | unknownSource direction source =>
    s!"{direction.name} completion names unknown rank {source}"
  | ownDataReceived channel => s!"rx of local data on channel {channel}"
  | inputClash clash => clash.message
  | relayedBack source => s!"tx relays rank {source} back to itself"
  | surplusCompletion surplus => surplus.message
  | forwardNamesUnknown forwarder receiver =>
    s!"forward names unknown rank ({forwarder} -> {receiver})"
  | forwardBeforeRoute forwarder => s!"forward via rank {forwarder} before its route is known"
  | forwardToSelf forwarder => s!"rank {forwarder} forwards our data back to us"
  | unsoundRoute fault => fault.message
  | announceNamesSelf => "outer node announce names the local rank"
  | announceNamesUnknown node => s!"outer node announce from unknown rank {node}"
  | announceWrongChassis node stated declared =>
    s!"rank {node} announced chassis {stated} but belongs to {declared}"
  | linkNeverRequested peer => s!"network link to rank {peer} was never requested"
  | reported detail => detail

end MeshFormation
