import MeshFormation.ControlMessage
import MeshFormation.Forwarding.Fanout
import MeshFormation.Relay
import MeshFormation.Role

/-!
# Forwarding in a cube

Eight nodes sit in two chassis of four, and two nodes of each chassis hold a link to the other
one. These outer nodes relay everything that crosses between the chassis, by three rules that each
run at most once:

* relay the partner at the far end of the link to every chassis peer;
* relay both inner chassis peers to the partner;
* relay one inner node of the other chassis to both inner chassis peers.

The last two need to know the other outer node of the chassis. Each outer node therefore announces
itself, once, to every peer it transmits to directly.
-/

namespace MeshFormation

/-- The number of further transmits that a cube node expects once it turns out to be an outer
node: three by the first rule, two by each of the others, and the direct one to its partner. -/
def outerExtraTx : Nat := 8

/-- What a cube node knows about outer nodes, and which rules have run. -/
structure CubeForwarding where
  role : Role
  announcers : KeySet
  informed : KeySet
  partnerRelayed : Bool
  uplinkRelayed : Bool
  crossRelayed : Bool
deriving DecidableEq

namespace CubeForwarding

def start : CubeForwarding := ⟨.undetermined, ∅, ∅, false, false, false⟩

/-- The other outer node of the local chassis, once exactly one announced itself. -/
def fellow? (cube : CubeForwarding) (node : Node) : Option Rank :=
  match cube.announcers.keys.filter (node.topology.chassisMates node.rank).contains with
  | [rank] => some rank
  | _ => none

def announce (cube : CubeForwarding) (node : Node) (peer : Rank) : CubeForwarding × Outbox :=
  if cube.informed.contains peer then (cube, [])
  else
    ({ cube with informed := cube.informed.add peer },
      [⟨peer, .outerAnnounce node.rank node.topology.localChassis⟩])

/-- Announces the local node to several peers in order. -/
def announceAll (cube : CubeForwarding) (node : Node) : List Rank → CubeForwarding × Outbox
  | [] => (cube, [])
  | peer :: rest =>
    let (cube, first) := cube.announce node peer
    let (cube, others) := cube.announceAll node rest
    (cube, first ++ others)

def rejection? (cube : CubeForwarding) (node : Node) (event : ChannelEvent) : Option Rejection :=
  if node.topology.shareChassis node.rank event.peer then none
  else cube.role.partner?.map .crossLinkHeld

/-- A channel was bound. One that leads to the other chassis makes the node an outer node, which
expects further transmits and announces itself to the peers it already transmits to. -/
def channelBound (cube : CubeForwarding) (node : Node) (event : ChannelEvent) :
    CubeForwarding × Node × Outbox :=
  if node.topology.shareChassis node.rank event.peer then (cube, node, [])
  else
    match cube.role.becomeOuter event.peer with
    | .error _ => (cube, node, [])
    | .ok role =>
      let node := node.raiseTransmits outerExtraTx
      let (cube, outbox) := { cube with role }.announceAll node node.ledger.directlyReached
      (cube, node, outbox)

/-- A direct transmit toward a receiver is complete. An outer node announces itself there. -/
def transmitDone (cube : CubeForwarding) (node : Node) (receiver : Rank) :
    CubeForwarding × Outbox :=
  if cube.role.isOuter then cube.announce node receiver else (cube, [])

/-- The requests of the first rule, if it is due. -/
def partnerRelays? (cube : CubeForwarding) (node : Node) (partner : Rank) :
    Option (List RelayRequest) :=
  if cube.partnerRelayed then none else node.partnerFanout? partner

/-- The requests of the second rule, if it is due: the data of every inner peer, on the channel of
the partner. The rule waits until the data of all of them arrives. -/
def uplinkRelays? (cube : CubeForwarding) (node : Node) (inners : List Rank) (uplink : Channel) :
    Option (List RelayRequest) :=
  if cube.uplinkRelayed || !inners.all (fun peer => (node.ledger.input? peer).isSome) then none
  else some (inners.map fun peer => (peer, uplink))

/-- The requests of the third rule, if it is due: the data of the chosen inner node of the other
chassis, on the channel of every inner peer. The rule waits until the data of both inner nodes
arrives over the link to the partner. -/
def crossRelays? (cube : CubeForwarding) (node : Node) (partner fellow : Rank)
    (inners : List Rank) (uplink : Channel) : Option (List RelayRequest) :=
  if cube.crossRelayed then none
  else
    match crossChoice node.rank fellow
        ((node.ledger.heardOn uplink).filter (· != partner)) with
    | none => none
    | some candidate =>
      (inners.mapM node.ledger.input?).map fun channels =>
        channels.map fun channel => (candidate, channel)

/-- Runs the rules that are due, in order. The second and the third wait for the other outer node
and for the partner's data. A refused request ends the attempt. -/
def runRules (cube : CubeForwarding) (node : Node) (backend : Backend) :
    CubeForwarding × Node :=
  match cube.role.partner? with
  | none => (cube, node)
  | some partner =>
    let fanout := cube.partnerRelays? node partner
    let cube := { cube with partnerRelayed := cube.partnerRelayed || fanout.isSome }
    match node.establishAll backend (fanout.getD []) with
    | (node, false) => (cube, node)
    | (node, true) =>
      match cube.fellow? node, node.ledger.input? partner with
      | some fellow, some uplink =>
        let inners := innerNodes (node.topology.chassisMates node.rank) fellow
        let uplinks := cube.uplinkRelays? node inners uplink
        let cube := { cube with uplinkRelayed := cube.uplinkRelayed || uplinks.isSome }
        match node.establishAll backend (uplinks.getD []) with
        | (node, false) => (cube, node)
        | (node, true) =>
          let cross := cube.crossRelays? node partner fellow inners uplink
          let cube := { cube with crossRelayed := cube.crossRelayed || cross.isSome }
          (cube, (node.establishAll backend (cross.getD [])).1)
      | _, _ => (cube, node)

/-- A node announced that it holds a link to the other chassis. It must be another member, in the
chassis it states. -/
def announcementHeard (cube : CubeForwarding) (node : Node) (announcer : Rank) (chassis : String) :
    CubeForwarding × Node × Except RouterError Unit :=
  if announcer = node.rank then (cube, node.refuse .announceNamesSelf)
  else
    match node.topology.chassis? announcer with
    | none => (cube, node.refuse (.announceNamesUnknown announcer))
    | some declared =>
      if declared ≠ chassis then
        (cube, node.refuse (.announceWrongChassis announcer chassis declared))
      else ({ cube with announcers := cube.announcers.add announcer }, node, .ok ())

end CubeForwarding

end MeshFormation
