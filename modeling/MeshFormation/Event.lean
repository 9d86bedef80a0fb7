import MeshFormation.Rank

/-!
# Link events

What the link layer and the connection backend report to a node. Each event carries whether the
thing it names came up or went away.
-/

namespace MeshFormation

/-- The direction of a directed connection, seen from the node that reports it. -/
inductive Direction where
  | rx
  | tx
deriving DecidableEq

def Direction.name : Direction → String
  | rx => "rx"
  | tx => "tx"

/-- A physical channel slot observed a peer, which states its chassis, or lost it. -/
structure ChannelEvent where
  channel : Channel
  peer : Rank
  chassis : String
  connected : Bool
deriving DecidableEq

/-- The backend finished or lost a directed connection. For `rx`, `source` is the rank whose data
now arrives on `channel`. For `tx`, it is the rank whose data the node now sends there: its own
rank on a direct transmit, another rank on a relay. -/
structure ConnectionEvent where
  direction : Direction
  channel : Channel
  source : Rank
  connected : Bool
deriving DecidableEq

/-- A long-haul network link to a partition partner came up or went down. -/
structure NetworkEvent where
  peer : Rank
  connected : Bool
deriving DecidableEq

end MeshFormation
