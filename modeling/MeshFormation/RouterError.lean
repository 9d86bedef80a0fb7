import MeshFormation.ConfigurationError
import MeshFormation.Violation

/-!
# Errors of routers and services

What an operation can answer instead of its result. A link failure is never among them: it fails
the router and is told to the delegate.
-/

namespace MeshFormation

inductive PayloadError where
  | empty
  /-- The bytes are no control message; what is wrong with them is not told. -/
  | malformed
deriving DecidableEq

def PayloadError.message : PayloadError → String
  | empty => "Empty control message"
  | malformed => "Malformed control message"

/-- The events that only some profiles handle. -/
inductive OptionalEvent where
  | outerAnnounce
  | networkLink
deriving DecidableEq

/-- The name of such an event in texts. -/
def OptionalEvent.name : OptionalEvent → String
  | outerAnnounce => "OuterNodeAnnounce"
  | networkLink => "NetworkConnectionEvent"

inductive RouterError where
  | configuration (error : ConfigurationError)
  | protocolViolation (rank : Rank) (violation : Violation)
  | unsupported (event : OptionalEvent) (profile : Profile)
  | codec (error : PayloadError)
  | routerStopped
deriving DecidableEq

def RouterError.message : RouterError → String
  | configuration error => s!"Configuration error: {error.message}"
  | protocolViolation rank violation =>
    s!"Protocol violation on rank {rank}: {violation.message}"
  | unsupported event profile => s!"{event.name} is not supported by the {profile.name} profile"
  | codec error => s!"Codec error: {error.message}"
  | routerStopped => "Router task is no longer running"

end MeshFormation
