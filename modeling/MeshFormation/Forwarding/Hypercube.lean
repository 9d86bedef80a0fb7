import MeshFormation.Forwarding.Fanout
import MeshFormation.Role

/-!
# Forwarding in a hypercube

Inside a partition of eight every node has one partner in the other chassis and relays it to its
three chassis peers. Between partitions, nodes whose ranks agree modulo eight talk over a long-haul
network link that the delegate opens. The mesh of a partition is locked without regard to these
links; readiness waits for both.
-/

namespace MeshFormation

/-- The partners of a hypercube node, and whether the forwarding rule has run. -/
structure HypercubeForwarding where
  partner : OnceRank
  requestedLinks : KeySet
  liveLinks : KeySet
  partnerRelayed : Bool
deriving DecidableEq

namespace HypercubeForwarding

/-- The hostnames of several partners. The first partner without one is refused. -/
def hostnames (topology : Topology) :
    List Rank → Except ConfigurationError (List (Rank × String))
  | [] => .ok []
  | rank :: rest =>
    match (topology.member? rank).bind (·.hostname) with
    | none => .error (.missingHostname rank)
    | some hostname =>
      match hostnames topology rest with
      | .error fault => .error fault
      | .ok others => .ok ((rank, hostname) :: others)

/-- The state of a node that has seen no event. All partition partners must have hostnames, for
each of which a network link is wanted. -/
def start (node : Node) : Node × Except ConfigurationError HypercubeForwarding :=
  match hostnames node.topology (node.topology.counterparts node.rank) with
  | .error fault => (node, .error fault)
  | .ok links =>
    let journal := links.foldl (fun journal link => journal.notify (.hostname link.2 link.1))
      node.journal
    let partners := links.foldl (fun partners link => KeySet.add partners link.1) (∅ : KeySet)
    ({ node with journal }, .ok ⟨.unset, partners, ∅, false⟩)

def rejection? (rules : HypercubeForwarding) (node : Node) (event : ChannelEvent) :
    Option Rejection :=
  if node.topology.shareChassis node.rank event.peer then none
  else rules.partner.value.map .crossPartnerBound

/-- A channel was bound. One that leads to the other chassis names the partner. -/
def channelBound (rules : HypercubeForwarding) (node : Node) (event : ChannelEvent) :
    HypercubeForwarding :=
  if node.topology.shareChassis node.rank event.peer then rules
  else
    match rules.partner.set event.peer with
    | .error _ => rules
    | .ok partner => { rules with partner }

/-- The requests of the forwarding rule, if it is due. -/
def partnerRelays? (rules : HypercubeForwarding) (node : Node) : Option (List RelayRequest) :=
  if rules.partnerRelayed then none else rules.partner.value.bind node.partnerFanout?

/-- Runs the forwarding rule if it is due. A refused request ends the attempt. -/
def runRules (rules : HypercubeForwarding) (node : Node) (backend : Backend) :
    HypercubeForwarding × Node :=
  let fanout := rules.partnerRelays? node
  ({ rules with partnerRelayed := rules.partnerRelayed || fanout.isSome },
    (node.establishAll backend (fanout.getD [])).1)

/-- A network link came up or went down. It must be one that was asked for. A link that comes up
is counted once. -/
def networkChanged (rules : HypercubeForwarding) (node : Node) (event : NetworkEvent) :
    HypercubeForwarding × Node × Except RouterError Unit :=
  if !rules.requestedLinks.contains event.peer then
    (rules, node.refuse (.linkNeverRequested event.peer))
  else if !event.connected then (rules, node.fail (.connectionLost event.peer), .ok ())
  else if rules.liveLinks.contains event.peer then (rules, node, .ok ())
  else
    let rules := { rules with liveLinks := rules.liveLinks.add event.peer }
    match node.countNetworkLink with
    | (node, .error error) => (rules, node, .error error)
    | (node, .ok _) => (rules, node.signalReadiness, .ok ())

end HypercubeForwarding

end MeshFormation
