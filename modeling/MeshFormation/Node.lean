import MeshFormation.Backend
import MeshFormation.Rejection
import MeshFormation.RouterError
import MeshFormation.Topology

/-!
# Nodes

A node is the part of a router that every profile shares: its topology, its ledger, its progress,
the peers bound to its channels, the channels it lost, and the journal of all it did. The functions
below are its elementary transitions. One that may be refused by the delivery contract answers an
error next to the node; the node has then failed.
-/

namespace MeshFormation

/-- The state of one ensemble member that does not depend on the profile. -/
structure Node where
  topology : Topology
  ledger : Ledger
  progress : Progress
  bindings : Table Rank
  lostChannels : KeySet
  journal : Journal
deriving DecidableEq

namespace Node

def start (topology : Topology) (expected : Expected) : Node :=
  ⟨topology, .empty, .start expected, ∅, ∅, .empty⟩

def rank (node : Node) : Rank := node.topology.localRank

def isFailed (node : Node) : Bool := node.progress.isFailed

def boundPeer? (node : Node) (channel : Channel) : Option Rank := node.bindings.get? channel

def boundChannel? (node : Node) (peer : Rank) : Option Channel :=
  node.bindings.firstKey? (· == peer)

/-! ## Failure, lock and readiness -/

/-- Fails the ensemble and tells the delegate, unless that was done before. -/
def fail (node : Node) (reason : FailureReason) : Node :=
  match node.progress.enter? .failed with
  | none => node
  | some progress => { node with progress, journal := node.journal.notify (.failed reason) }

/-- Fails the ensemble because the delivery contract was broken. -/
def refuse {α : Type} (node : Node) (violation : Violation) : Node × Except RouterError α :=
  (node.fail (.protocolViolation violation), .error (.protocolViolation node.rank violation))

/-- Makes a call to the backend. A refusal fails the ensemble. The flag says whether the call was
accepted. -/
def request (node : Node) (backend : Backend) (call : Call) : Node × Bool :=
  match node.journal.attempt backend call with
  | (journal, none) => ({ node with journal }, true)
  | (journal, some refusal) => ({ node with journal }.fail (.backendFailure refusal), false)

/-- Asks the backend to transmit the data of a source on a channel. -/
def establish (node : Node) (backend : Backend) (source : Rank) (channel : Channel) :
    Node × Bool :=
  node.request backend (.establish source channel)

/-- Asks for several transmits in order and stops at the first refusal. -/
def establishAll (node : Node) (backend : Backend) : List (Rank × Channel) → Node × Bool
  | [] => (node, true)
  | (source, channel) :: rest =>
    match node.establish backend source channel with
    | (node, true) => node.establishAll backend rest
    | (node, false) => (node, false)

def raiseTransmits (node : Node) (extra : Nat) : Node :=
  { node with progress := node.progress.raiseTransmits extra }

def countNetworkLink (node : Node) : Node × Except RouterError Nat :=
  match node.progress.complete .network with
  | .error surplus => node.refuse (.surplusCompletion surplus)
  | .ok progress => ({ node with progress }, .ok progress.expected.network)

/-- Tells the delegate that the ensemble is ready, the first time that nothing is outstanding and
the backend is locked. -/
def signalReadiness (node : Node) : Node :=
  if node.progress.locked && node.progress.isReady then
    match node.progress.enter? .ready with
    | none => node
    | some progress => { node with progress, journal := node.journal.notify .ready }
  else node

/-- Locks the backend once the local mesh is complete, and signals readiness if nothing else is
outstanding. -/
def lockWhenComplete (node : Node) (backend : Backend) : Node :=
  if node.isFailed || !node.progress.expected.meshDone then node
  else if node.progress.locked then node.signalReadiness
  else
    match node.request backend .lock with
    | (node, true) => { node with progress := node.progress.lock }.signalReadiness
    | (node, false) => node

/-! ## Channels -/

/-- The checks that every profile makes of a channel on which a peer was observed. -/
def screening (node : Node) (event : ChannelEvent) : Screening :=
  if node.lostChannels.contains event.channel then .reject (.invalidated event.channel)
  else if event.peer = node.rank then .reject .localPeer
  else
    match node.topology.chassis? event.peer with
    | none => .reject (.notMember event.peer)
    | some chassis =>
      if chassis ≠ event.chassis then .reject (.wrongChassis event.peer event.chassis chassis)
      else if !node.topology.sharePartition node.rank event.peer then
        .reject (.otherPartition event.peer)
      else
        match node.boundPeer? event.channel with
        | some bound =>
          if bound = event.peer then .duplicate else .reject (.channelTaken event.channel bound)
        | none =>
          if node.progress.locked then .reject (.meshLocked event.channel)
          else
            match node.boundChannel? event.peer with
            | some existing => .reject (.peerTaken event.peer existing)
            | none => .fresh

def refuseChannel (node : Node) (backend : Backend) (channel : Channel) : Node :=
  (node.request backend (.disable channel)).1

/-- Binds a peer to a channel and gives it a ledger entry. -/
def bind (node : Node) (channel : Channel) (peer : Rank) : Node :=
  { node with bindings := node.bindings.insert channel peer, ledger := node.ledger.track peer }

/-- A channel went away. Losing one with a bound peer fails the ensemble, and the channel is never
used again. -/
def channelLost (node : Node) (channel : Channel) : Node :=
  match node.boundPeer? channel with
  | none => node
  | some peer =>
    { node with
      bindings := node.bindings.erase channel
      lostChannels := node.lostChannels.add channel }.fail (.channelLost channel peer)

/-! ## Connections and routes -/

/-- The peer bound to the channel of a completed connection, and the ledger that records the
connection. An incoming connection sets the input of its source, once. An outgoing one adds an
output toward the bound peer, and the node's own data also makes the direct route to that peer. -/
def ledgerAfter (node : Node) (direction : Direction) (channel : Channel) (source : Rank) :
    Except Violation (Rank × Ledger) :=
  match node.boundPeer? channel with
  | none => .error (.undiscoveredChannel direction channel)
  | some bound =>
    if !node.topology.hasMember source then .error (.unknownSource direction source)
    else
      match direction with
      | .rx =>
        if source = node.rank then .error (.ownDataReceived channel)
        else
          match node.ledger.recordInput source channel with
          | .error clash => .error (.inputClash clash)
          | .ok ledger => .ok (bound, ledger)
      | .tx =>
        if source = bound then .error (.relayedBack source)
        else
          let ledger := node.ledger.recordOutput bound channel
          if source = node.rank then .ok (bound, ledger.recordRoute bound (.direct source bound))
          else .ok (bound, ledger)

/-- Records a completed connection and counts it. Answers the peer bound to its channel, which on
a transmit is the receiver. -/
def completeConnection (node : Node) (direction : Direction) (channel : Channel) (source : Rank) :
    Node × Except RouterError Rank :=
  match node.ledgerAfter direction channel source with
  | .error violation => node.refuse violation
  | .ok (bound, ledger) =>
    match node.progress.complete direction.counter with
    | .error surplus => { node with ledger }.refuse (.surplusCompletion surplus)
    | .ok progress => ({ node with ledger, progress }, .ok bound)

/-- Learns that a node relays to a receiver: the route to the forwarder extended by the receiver
is a route, unless one is known already. -/
def learnForward (node : Node) (forwarder receiver : Rank) : Node × Except RouterError Unit :=
  if !node.topology.hasMember forwarder || !node.topology.hasMember receiver then
    node.refuse (.forwardNamesUnknown forwarder receiver)
  else
    match node.ledger.route? forwarder with
    | none => node.refuse (.forwardBeforeRoute forwarder)
    | some base =>
      let route := base.relayed receiver
      match route.fault? node.rank receiver with
      | some fault => node.refuse (.unsoundRoute fault)
      | none => ({ node with ledger := node.ledger.recordRoute receiver route }, .ok ())

end Node

end MeshFormation
