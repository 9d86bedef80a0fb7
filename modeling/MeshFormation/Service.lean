import MeshFormation.ControlMessage.Codec
import MeshFormation.Router

/-!
# Services

A service owns a router and sends the messages that its transitions ask for. Every delivery is one
transition, after which the messages are sent in order. If one of them is refused, the ensemble
fails and the messages behind it are dropped. Bytes that are no control message are answered as an
error and do not reach the router.
-/

namespace MeshFormation

/-- What the outside can deliver to a service. -/
inductive Delivery where
  | channel (event : ChannelEvent)
  | connection (event : ConnectionEvent)
  | network (event : NetworkEvent)
  | control (payload : Payload)
  | failure (reason : FailureReason)
deriving DecidableEq

/-- The event that a control message is for its receiver. -/
def ControlMessage.event : ControlMessage → Event
  | forward forwarder receiver => .forward forwarder receiver
  | outerAnnounce node chassis => .outerAnnounce node chassis

/-- The event that a delivery is for the router, if its bytes can be read. -/
def Delivery.event : Delivery → Except PayloadError Event
  | channel event => .ok (.channel event)
  | connection event => .ok (.connection event)
  | network event => .ok (.network event)
  | control payload => (ControlMessage.decode payload).map ControlMessage.event
  | failure reason => .ok (.failure reason)

/-- A router whose messages are sent. -/
structure Service where
  router : Router
deriving DecidableEq

namespace Service

/-- Builds the service for a topology. The journal tells what was asked of the delegate, also if
the router cannot be built. -/
def create (topology : Topology) : Journal × Except RouterError Service :=
  match Router.create topology.profile topology with
  | (journal, .error error) => (journal, .error error)
  | (journal, .ok router) => (journal, .ok ⟨router⟩)

def journal (service : Service) : Journal := service.router.node.journal

/-- Sends messages in order, up to the first refusal, which fails the ensemble. -/
def dispatch (service : Service) (backend : Backend) : Outbox → Service
  | [] => service
  | outbound :: rest =>
    let node := service.router.node
    match node.journal.attempt backend (.send outbound.receiver outbound.message.encode) with
    | (journal, none) =>
      dispatch ⟨{ service.router with node := { node with journal } }⟩ backend rest
    | (journal, some refusal) =>
      let reason := .undeliverable outbound.receiver refusal.message
      ⟨{ service.router with node := { node with journal }.fail reason }⟩

/-- Applies an event and sends the messages it leads to. -/
def handle (service : Service) (backend : Backend) (event : Event) :
    Service × Except RouterError Unit :=
  match service.router.handle backend event with
  | (router, .error error) => (⟨router⟩, .error error)
  | (router, .ok outbox) => (dispatch ⟨router⟩ backend outbox, .ok ())

def receive (service : Service) (backend : Backend) (message : ControlMessage) :
    Service × Except RouterError Unit :=
  service.handle backend message.event

def deliver (service : Service) (backend : Backend) (delivery : Delivery) :
    Service × Except RouterError Unit :=
  match delivery.event with
  | .error error => (service, .error (.codec error))
  | .ok event => service.handle backend event

end Service

end MeshFormation
