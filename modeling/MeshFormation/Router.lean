import MeshFormation.Forwarding

/-!
# Routers

A router is a node together with the rules of its profile. `Router.handle` applies one event and
answers the control messages that the transition asks for, in order; they are sent afterwards, by
the service that owns the router. A link failure is no error: it fails the router and is told to
the delegate. An error means that the event broke the delivery contract, which fails the router
too, or that the profile does not know the event, which changes nothing.
-/

namespace MeshFormation

inductive Event where
  | channel (event : ChannelEvent)
  /-- The backend finished or lost a directed connection. -/
  | connection (event : ConnectionEvent)
  /-- A peer relays the local node's data to a receiver. -/
  | forward (forwarder receiver : Rank)
  /-- A peer holds a link to the other chassis. -/
  | outerAnnounce (announcer : Rank) (chassis : String)
  | network (event : NetworkEvent)
  /-- A failure was detected outside the router. -/
  | failure (reason : FailureReason)
deriving DecidableEq

/-- The connections that a fresh node of a topology expects. -/
def Topology.expected (topology : Topology) : Expected :=
  ⟨topology.receiveCount, topology.transmitCount, topology.networkLinkCount⟩

/-- The state machine of one ensemble member. -/
structure Router where
  node : Node
  forwarding : Forwarding
deriving DecidableEq

/-- The observable state of a router at one time. -/
structure Snapshot where
  rank : Rank
  profile : Profile
  phase : Phase
  expected : Expected
  locked : Bool
  crossPartner : Option Rank
  transfers : List (Rank × Option Channel × List Channel)
  routes : List (Rank × String)
  liveLinks : List Rank
deriving DecidableEq

namespace Router

/-- Builds a router of a profile for a topology, which must be of that profile. The journal tells
what was asked of the delegate, also if the router cannot be built. -/
def create (profile : Profile) (topology : Topology) : Journal × Except RouterError Router :=
  if topology.profile ≠ profile then
    (.empty, .error (.configuration (.profileSizeMismatch profile topology.size)))
  else
    match Forwarding.start profile (.start topology topology.expected) with
    | (node, .error fault) => (node.journal, .error (.configuration fault))
    | (node, .ok forwarding) => (node.journal, .ok ⟨node, forwarding⟩)

def rank (router : Router) : Rank := router.node.rank

def phase (router : Router) : Phase := router.node.progress.phase

def expected (router : Router) : Expected := router.node.progress.expected

def isReady (router : Router) : Bool := router.node.progress.isReady

def snapshot (router : Router) : Snapshot where
  rank := router.rank
  profile := router.forwarding.profile
  phase := router.phase
  expected := router.expected
  locked := router.node.progress.locked
  crossPartner := router.forwarding.crossPartner?
  transfers := router.node.ledger.transfers
  routes := router.node.ledger.routes
  liveLinks := router.forwarding.liveLinks

/-- Locks the backend once the mesh is complete, and otherwise runs the forwarding rules that are
due. -/
def proceed (router : Router) (backend : Backend) : Router :=
  if router.node.isFailed then router
  else if router.node.progress.expected.meshDone then
    { router with node := router.node.lockWhenComplete backend }
  else
    let (forwarding, node) := router.forwarding.runRules router.node backend
    ⟨node, forwarding⟩

/-- A channel slot observed or lost a peer. A new peer that passes all checks is bound, and the
node starts to transmit its own data there. -/
def channelChanged (router : Router) (backend : Backend) (event : ChannelEvent) :
    Router × Outbox :=
  if !event.connected then
    ({ router with node := router.node.channelLost event.channel }, [])
  else
    match router.node.screening event with
    | .duplicate => (router, [])
    | .reject _ => ({ router with node := router.node.refuseChannel backend event.channel }, [])
    | .fresh =>
      match router.forwarding.rejection? router.node event with
      | some _ => ({ router with node := router.node.refuseChannel backend event.channel }, [])
      | none =>
        match (router.node.bind event.channel event.peer).establish backend
            router.node.rank event.channel with
        | (node, false) => ({ router with node }, [])
        | (node, true) =>
          let (forwarding, node, outbox) := router.forwarding.channelBound node event
          (⟨node, forwarding⟩, outbox)

/-- The messages due when a transmit toward a bound peer is complete. The node's own data may make
the profile announce something; a relay is told to the source of the data. -/
def transmitCompleted (router : Router) (source bound : Rank) : Router × Outbox :=
  if source = router.rank then
    let (forwarding, outbox) := router.forwarding.transmitDone router.node bound
    ({ router with forwarding }, outbox)
  else (router, [⟨source, .forward router.rank bound⟩])

def connectionChanged (router : Router) (backend : Backend) (event : ConnectionEvent) :
    Router × Except RouterError Outbox :=
  if !event.connected then
    ({ router with node := router.node.fail (.connectionLost event.source) }, .ok [])
  else
    match router.node.completeConnection event.direction event.channel event.source with
    | (node, .error error) => ({ router with node }, .error error)
    | (node, .ok bound) =>
      let (router, outbox) :=
        match event.direction with
        | .rx => ({ router with node }, [])
        | .tx => { router with node }.transmitCompleted event.source bound
      (router.proceed backend, .ok outbox)

/-- A peer relays the local node's data to a receiver. -/
def forwarded (router : Router) (backend : Backend) (forwarder receiver : Rank) :
    Router × Except RouterError Outbox :=
  if receiver = router.rank then
    let (node, result) := router.node.refuse (.forwardToSelf forwarder)
    ({ router with node }, result)
  else
    match router.node.learnForward forwarder receiver with
    | (node, .error error) => ({ router with node }, .error error)
    | (node, .ok _) => ({ router with node }.proceed backend, .ok [])

/-- A peer announced that it holds a link to the other chassis. -/
def announcementHeard (router : Router) (backend : Backend) (announcer : Rank) (chassis : String) :
    Router × Except RouterError Outbox :=
  match router.forwarding.announcementHeard router.node announcer chassis with
  | (forwarding, node, .error error) => (⟨node, forwarding⟩, .error error)
  | (forwarding, node, .ok _) => (Router.proceed ⟨node, forwarding⟩ backend, .ok [])

/-- A network link came up or went down. -/
def networkChanged (router : Router) (event : NetworkEvent) : Router × Except RouterError Outbox :=
  match router.forwarding.networkChanged router.node event with
  | (forwarding, node, .error error) => (⟨node, forwarding⟩, .error error)
  | (forwarding, node, .ok _) => (⟨node, forwarding⟩, .ok [])

/-- Applies one event. A failed router ignores everything. -/
def handle (router : Router) (backend : Backend) (event : Event) :
    Router × Except RouterError Outbox :=
  if router.node.isFailed then (router, .ok [])
  else
    match event with
    | .channel event =>
      let (router, outbox) := router.channelChanged backend event
      (router, .ok outbox)
    | .connection event => router.connectionChanged backend event
    | .forward forwarder receiver => router.forwarded backend forwarder receiver
    | .outerAnnounce announcer chassis => router.announcementHeard backend announcer chassis
    | .network event => router.networkChanged event
    | .failure reason => ({ router with node := router.node.fail reason }, .ok [])

def run (router : Router) (backend : Backend) (events : List Event) : Router :=
  events.foldl (fun router event => (router.handle backend event).1) router

end Router

end MeshFormation
