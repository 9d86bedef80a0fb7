import MeshFormation.Violation

/-!
# Failures

A link that is lost, a backend that refuses, or a broken delivery contract fails the whole
ensemble. The reason is reported once to the delegate, in the words of `FailureReason.message`.
-/

namespace MeshFormation

structure Refusal where
  operation : String
  detail : String
deriving DecidableEq

def Refusal.message (refusal : Refusal) : String :=
  s!"{refusal.operation} failed: {refusal.detail}"

inductive FailureReason where
  | channelLost (channel : Channel) (peer : Rank)
  | connectionLost (peer : Rank)
  | backendFailure (refusal : Refusal)
  | protocolViolation (violation : Violation)
  /-- A control message could not be handed to the transport. -/
  | undeliverable (receiver : Rank) (detail : String)
deriving DecidableEq

def FailureReason.message : FailureReason → String
  | channelLost channel peer => s!"channel {channel} to rank {peer} lost"
  | connectionLost peer => s!"connection for rank {peer} lost"
  | backendFailure refusal => s!"backend failure: {refusal.message}"
  | protocolViolation violation => s!"protocol violation: {violation.message}"
  | undeliverable receiver detail =>
    s!"control message to rank {receiver} undeliverable: {detail}"

end MeshFormation
