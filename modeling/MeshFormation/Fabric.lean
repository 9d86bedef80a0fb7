import MeshFormation.Cabling
import MeshFormation.Service

/-!
# Fabrics

A fabric is a whole ensemble: a service for every member, the cables between them, and a queue of
what is still to be delivered. Accepted transmits and sent messages of a service are queued as
deliveries to the ends of a cable and to the addressed node. One step takes any entry out of the
queue and delivers it; a run chooses an entry again and again until the queue is empty.

The delivery contract rules some choices out, see `Fabric.allows`. A run in the order of
arrival keeps to no other rule than that order.
-/

namespace MeshFormation

/-- Something that is still to be delivered. -/
inductive Parcel where
  | delivery (target : Rank) (delivery : Delivery)
  /-- A transmit over a cable. It is delivered as the tx completion at the near end, immediately
  followed by the rx completion at the far end. -/
  | transmit (source near : Rank) (nearChannel : Channel) (far : Rank) (farChannel : Channel)
deriving DecidableEq

namespace Parcel

def weight : Parcel → Nat
  | delivery _ _ => 1
  | transmit _ _ _ _ _ => 2

/-- What an attempted call of a node leads to. -/
def ofAttempt (node : Rank) (wiring : Wiring) (attempt : Attempt) : Option Parcel :=
  match attempt.refusal, attempt.call with
  | none, .establish source channel =>
    (wiring.get? channel).map fun (far, farChannel) =>
      .transmit source node channel far farChannel
  | none, .send receiver payload => some (.delivery receiver (.control payload))
  | _, _ => none

end Parcel

/-- A node of the fabric with its end of the cables. -/
structure Site where
  service : Service
  wiring : Wiring
deriving DecidableEq

/-- The backend of a node with the given wiring refuses to transmit where there is no cable. -/
def Wiring.backend (wiring : Wiring) : Backend := fun _ call =>
  match call with
  | .establish _ channel =>
    if wiring.contains channel then none
    else some ⟨call.operation, s!"channel {channel} not cabled"⟩
  | _ => none

/-- An ensemble with its cables and its queue. -/
structure Fabric where
  sites : Table Site
  queue : List Parcel
  /-- The channels on which a node was told of a peer. -/
  knownChannels : List (Rank × Channel)
  errors : List (Rank × RouterError)
  delivered : Nat
deriving DecidableEq

namespace Fabric

/-! ## Construction -/

/-- The sites of several members, given all members, on top of other sites. -/
def addSites (all : List Member) (request : ProfileRequest) (cabling : Cabling) :
    List Member → Table Site → Except RouterError (Table Site)
  | [], sites => .ok sites
  | member :: rest, sites =>
    match Topology.ofMembers all member.rank request with
    | .error fault => .error (.configuration fault)
    | .ok topology =>
      match (Service.create topology).2 with
      | .error error => .error error
      | .ok service =>
        addSites all request cabling rest
          (sites.insert member.rank ⟨service, cabling.wiringOf member.rank⟩)

/-- The chassis that a rank states. One that is no member states an empty one. -/
def statedChassis (members : List Member) (rank : Rank) : String :=
  match members.find? (·.rank == rank) with
  | some member => member.chassis
  | none => ""

/-- The channel event at an end of a cable. -/
def discovery (members : List Member) (cableEnd : CableEnd) : Parcel :=
  .delivery cableEnd.node
    (.channel ⟨cableEnd.channel, cableEnd.peer, statedChassis members cableEnd.peer, true⟩)

/-- The network links that the nodes asked for come up. -/
def networkLinks (sites : Table Site) : List Parcel :=
  sites.rows.flatMap fun (rank, site) =>
    site.service.journal.hostnames.map fun (_, peer) => .delivery rank (.network ⟨peer, true⟩)

/-- The fabric of members that are connected by links. Its queue holds the channel events of all
cables and the network links that were asked for. -/
def create (members : List Member) (request : ProfileRequest) (links : List Link) :
    Except RouterError Fabric :=
  match addSites members request (.ofLinks links) members ∅ with
  | .error error => .error error
  | .ok sites =>
    .ok ⟨sites, (Cabling.ends links).map (discovery members) ++ networkLinks sites, [], [], 0⟩

def reference (count : Nat) (request : ProfileRequest) : Except RouterError Fabric :=
  match Topology.ofMembers (Layout.members count) 0 request with
  | .error fault => .error (.configuration fault)
  | .ok topology =>
    create (Layout.members count) request (Layout.links topology.profile count)

/-! ## Delivery -/

def enqueue (fabric : Fabric) (target : Rank) (delivery : Delivery) : Fabric :=
  { fabric with queue := fabric.queue ++ [.delivery target delivery] }

/-- Notes that a node was told of a peer. -/
def noteDiscovery (fabric : Fabric) (target : Rank) : Delivery → Fabric
  | .channel event =>
    if event.connected then
      { fabric with knownChannels := (target, event.channel) :: fabric.knownChannels }
    else fabric
  | _ => fabric

/-- Makes a delivery to a node, queues what it leads to and keeps the error it returns. A delivery
to a rank without a node is lost. -/
def deliverTo (fabric : Fabric) (target : Rank) (delivery : Delivery) : Fabric :=
  let fabric := fabric.noteDiscovery target delivery
  match fabric.sites.get? target with
  | none => fabric
  | some site =>
    let (service, result) := site.service.deliver site.wiring.backend delivery
    let attempts := service.journal.attempts.drop site.service.journal.attempts.length
    { fabric with
      sites := fabric.sites.insert target { site with service }
      queue := fabric.queue ++ attempts.filterMap (Parcel.ofAttempt target site.wiring)
      errors :=
        match result with
        | .error error => fabric.errors ++ [(target, error)]
        | .ok _ => fabric.errors }

def deliver (fabric : Fabric) : Parcel → Fabric
  | .delivery target delivery => fabric.deliverTo target delivery
  | .transmit source near nearChannel far farChannel =>
    (fabric.deliverTo near (.connection ⟨.tx, nearChannel, source, true⟩)).deliverTo far
      (.connection ⟨.rx, farChannel, source, true⟩)

/-- Takes an entry out of the queue and delivers it. -/
def step? (fabric : Fabric) (index : Nat) : Option Fabric :=
  match fabric.queue[index]? with
  | none => none
  | some parcel =>
    some <|
      { fabric with
        queue := fabric.queue.eraseIdx index
        delivered := fabric.delivered + parcel.weight }.deliver parcel

/-- Whether an entry is a control message to a rank. -/
def isControlTo (rank : Rank) : Parcel → Bool
  | .delivery target (.control _) => target == rank
  | _ => false

/-- Whether the delivery contract allows to deliver an entry now. A completion waits until its node
was told of the channel; a transmit waits for its far end. Control messages to one rank keep the
order in which they were sent. -/
def allows (fabric : Fabric) (index : Nat) : Bool :=
  match fabric.queue[index]? with
  | some (.delivery target (.connection event)) =>
    fabric.knownChannels.contains (target, event.channel)
  | some (.transmit _ _ _ far farChannel) => fabric.knownChannels.contains (far, farChannel)
  | some (.delivery target (.control _)) => !(fabric.queue.take index).any (isControlTo target)
  | some (.delivery _ _) => true
  | none => false

/-! ## Runs -/

/-- A rule that chooses the entry to deliver next. -/
abbrev Order := Fabric → Nat

def inOrder : Order := fun _ => 0

/-- The first entry that the delivery contract allows, or the first of all if it allows none. -/
def firstDeliverable : Order := fun fabric =>
  ((List.range fabric.queue.length).find? fabric.allows).getD 0

/-- A run stops once it made this number of deliveries. -/
def deliveryLimit : Nat := 100000

/-- Delivers entries until the queue is empty or the limit is reached, for at most a number of
rounds. -/
def runRounds (order : Order) (start : Nat) : Nat → Fabric → Fabric
  | 0, fabric => fabric
  | rounds + 1, fabric =>
    if fabric.delivered - start < deliveryLimit then
      match fabric.step? (order fabric) with
      | none => fabric
      | some next => runRounds order start rounds next
    else fabric

/-- Delivers entries until the queue is empty or the limit is reached. Each round makes a delivery,
so the limit bounds the number of rounds. -/
def run (fabric : Fabric) (order : Order) : Fabric :=
  runRounds order fabric.delivered deliveryLimit fabric

def isReady (fabric : Fabric) : Bool :=
  fabric.sites.values.all (·.service.router.isReady)

end Fabric

end MeshFormation
