import MeshFormation.Forwarding.Cube
import MeshFormation.Forwarding.Hypercube

/-!
# Forwarding by profile

What a router does beyond the transitions that all profiles share. A pair has nothing to forward,
a cube and a hypercube have rules of their own. Announcements of outer nodes concern only a cube,
and network links only a hypercube; elsewhere such an event is answered as unsupported.
-/

namespace MeshFormation

/-- The state of the profile's own rules. -/
inductive Forwarding where
  | pair
  | cube (rules : CubeForwarding)
  | hypercube (rules : HypercubeForwarding)
deriving DecidableEq

namespace Forwarding

def profile : Forwarding → Profile
  | pair => .pair
  | cube _ => .cube
  | hypercube _ => .hypercube

/-- The rules of a profile for a node that has seen no event. -/
def start (profile : Profile) (node : Node) : Node × Except ConfigurationError Forwarding :=
  match profile with
  | .pair => (node, .ok pair)
  | .cube => (node, .ok (cube .start))
  | .hypercube =>
    match HypercubeForwarding.start node with
    | (node, .error fault) => (node, .error fault)
    | (node, .ok rules) => (node, .ok (hypercube rules))

/-- Why the profile does not use a channel that passed the shared checks. -/
def rejection? (forwarding : Forwarding) (node : Node) (event : ChannelEvent) : Option Rejection :=
  match forwarding with
  | pair => none
  | cube rules => rules.rejection? node event
  | hypercube rules => rules.rejection? node event

/-- A channel was bound and the direct transmit on it was accepted. -/
def channelBound (forwarding : Forwarding) (node : Node) (event : ChannelEvent) :
    Forwarding × Node × Outbox :=
  match forwarding with
  | pair => (pair, node, [])
  | cube rules =>
    let (rules, node, outbox) := rules.channelBound node event
    (cube rules, node, outbox)
  | hypercube rules => (hypercube (rules.channelBound node event), node, [])

/-- A direct transmit toward a receiver is complete. -/
def transmitDone (forwarding : Forwarding) (node : Node) (receiver : Rank) :
    Forwarding × Outbox :=
  match forwarding with
  | pair => (pair, [])
  | cube rules =>
    let (rules, outbox) := rules.transmitDone node receiver
    (cube rules, outbox)
  | hypercube rules => (hypercube rules, [])

def runRules (forwarding : Forwarding) (node : Node) (backend : Backend) :
    Forwarding × Node :=
  match forwarding with
  | pair => (pair, node)
  | cube rules =>
    let (rules, node) := rules.runRules node backend
    (cube rules, node)
  | hypercube rules =>
    let (rules, node) := rules.runRules node backend
    (hypercube rules, node)

/-- A node announced that it holds a link to the other chassis. -/
def announcementHeard (forwarding : Forwarding) (node : Node) (announcer : Rank)
    (chassis : String) : Forwarding × Node × Except RouterError Unit :=
  match forwarding with
  | cube rules =>
    let (rules, node, result) := rules.announcementHeard node announcer chassis
    (cube rules, node, result)
  | other => (other, node, .error (.unsupported .outerAnnounce other.profile))

/-- A network link came up or went down. -/
def networkChanged (forwarding : Forwarding) (node : Node) (event : NetworkEvent) :
    Forwarding × Node × Except RouterError Unit :=
  match forwarding with
  | hypercube rules =>
    let (rules, node, result) := rules.networkChanged node event
    (hypercube rules, node, result)
  | other => (other, node, .error (.unsupported .networkLink other.profile))

/-- The partner in the other chassis, once it is discovered. -/
def crossPartner? : Forwarding → Option Rank
  | pair => none
  | cube rules => rules.role.partner?
  | hypercube rules => rules.partner.value

/-- The partition partners with a live network link, in rank order. -/
def liveLinks : Forwarding → List Rank
  | hypercube rules => rules.liveLinks.keys
  | _ => []

end Forwarding

end MeshFormation
