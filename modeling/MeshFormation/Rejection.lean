import MeshFormation.Rank

/-!
# Rejected channels

A channel that does not fit the mesh is disabled, and the ensemble goes on forming. This module
lists the reasons.
-/

namespace MeshFormation

inductive Rejection where
  | invalidated (channel : Channel)
  | localPeer
  | notMember (peer : Rank)
  | wrongChassis (peer : Rank) (stated declared : String)
  | otherPartition (peer : Rank)
  | channelTaken (channel : Channel) (bound : Rank)
  | meshLocked (channel : Channel)
  | peerTaken (peer : Rank) (existing : Channel)
  /-- A cube node holds a link to the other chassis already. -/
  | crossLinkHeld (partner : Rank)
  /-- A hypercube node has a partner in the other chassis already. -/
  | crossPartnerBound (partner : Rank)
deriving DecidableEq

def Rejection.message : Rejection → String
  | invalidated channel => s!"channel {channel} was invalidated"
  | localPeer => "peer is the local node"
  | notMember peer => s!"rank {peer} is not an ensemble member"
  | wrongChassis peer stated declared =>
    s!"rank {peer} reports chassis {stated} but belongs to {declared}"
  | otherPartition peer => s!"rank {peer} is in another partition"
  | channelTaken channel bound => s!"channel {channel} already bound to rank {bound}"
  | meshLocked channel => s!"mesh locked, channel {channel} not needed"
  | peerTaken peer existing => s!"rank {peer} already bound to channel {existing}"
  | crossLinkHeld partner => s!"cross-chassis link to rank {partner} already held"
  | crossPartnerBound partner => s!"cross-chassis partner {partner} already bound"

/-- What the checks that every profile shares make of a channel. -/
inductive Screening where
  | fresh
  /-- The peer is bound to this very channel. -/
  | duplicate
  | reject (reason : Rejection)
deriving DecidableEq

end MeshFormation
