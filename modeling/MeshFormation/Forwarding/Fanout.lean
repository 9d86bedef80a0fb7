import MeshFormation.Node

/-!
# Relaying the cross-chassis partner

The first forwarding rule of the cube and the only one of the hypercube: a node that holds a link
to the other chassis sends the data of the node at its other end to all its chassis peers. It may
do so once it exchanges data directly with the partner and with each of these peers.
-/

namespace MeshFormation

/-- A request to transmit the data of a source on a channel. -/
abbrev RelayRequest := Rank × Channel

/-- The requests of the rule, if it may run: the partner's data, on the channel of each chassis
peer. -/
def Node.partnerFanout? (node : Node) (partner : Rank) : Option (List RelayRequest) :=
  let peers := node.topology.chassisMates node.rank
  if node.ledger.exchangesDirectly partner && peers.all node.ledger.exchangesDirectly then
    some ((peers.filterMap node.ledger.input?).map fun channel => (partner, channel))
  else none

end MeshFormation
