import MeshFormation.Route
import MeshFormation.Table

/-!
# The connectivity ledger

For every peer a node knows of, the ledger holds the channel on which the peer's data arrives, the
channels on which the node transmits toward it, and the route to it. The ledger only grows: an
input channel is written once, outputs are appended, and of several routes the first one stays.
-/

namespace MeshFormation

structure Connectivity where
  input : Option Channel
  outputs : List Channel
  route : Option Route
deriving DecidableEq

namespace Connectivity

def blank : Connectivity := ⟨none, [], none⟩

def hasDirectRoute (entry : Connectivity) : Bool := entry.route.any (·.linkCount == 1)

def exchangesDirectly (entry : Connectivity) : Bool :=
  entry.input.isSome && entry.hasDirectRoute

end Connectivity

/-- A second input channel was named for one source. -/
structure InputClash where
  peer : Rank
  existing : Channel
deriving DecidableEq

def InputClash.message (clash : InputClash) : String :=
  s!"Input channel for rank {clash.peer} already set to {clash.existing}"

structure Ledger where
  entries : Table Connectivity
deriving DecidableEq

namespace Ledger

def empty : Ledger := ⟨∅⟩

def get? (ledger : Ledger) (peer : Rank) : Option Connectivity := ledger.entries.get? peer

def entry (ledger : Ledger) (peer : Rank) : Connectivity := (ledger.get? peer).getD .blank

def contains (ledger : Ledger) (peer : Rank) : Bool := ledger.entries.contains peer

def size (ledger : Ledger) : Nat := ledger.entries.size

def put (ledger : Ledger) (peer : Rank) (entry : Connectivity) : Ledger :=
  ⟨ledger.entries.insert peer entry⟩

def track (ledger : Ledger) (peer : Rank) : Ledger := ledger.put peer (ledger.entry peer)

/-- Writes the channel on which a peer's data arrives, once. -/
def recordInput (ledger : Ledger) (peer : Rank) (channel : Channel) :
    Except InputClash Ledger :=
  match (ledger.entry peer).input with
  | some existing => .error ⟨peer, existing⟩
  | none => .ok (ledger.put peer { ledger.entry peer with input := some channel })

/-- Appends a channel on which the node transmits toward a peer. -/
def recordOutput (ledger : Ledger) (peer : Rank) (channel : Channel) : Ledger :=
  let entry := ledger.entry peer
  ledger.put peer { entry with outputs := entry.outputs ++ [channel] }

/-- Writes the route to a peer, unless one is known already. -/
def recordRoute (ledger : Ledger) (peer : Rank) (route : Route) : Ledger :=
  let entry := ledger.entry peer
  ledger.put peer { entry with route := entry.route <|> some route }

def input? (ledger : Ledger) (peer : Rank) : Option Channel := (ledger.entry peer).input

def route? (ledger : Ledger) (peer : Rank) : Option Route := (ledger.entry peer).route

def exchangesDirectly (ledger : Ledger) (peer : Rank) : Bool :=
  (ledger.entry peer).exchangesDirectly

/-- The sources whose data arrives on a channel, in rank order. -/
def heardOn (ledger : Ledger) (channel : Channel) : List Rank :=
  (ledger.entries.rows.filter (fun row => row.2.input == some channel)).map (·.1)

/-- The peers to which a route of a single hop is known, in rank order. -/
def directlyReached (ledger : Ledger) : List Rank :=
  (ledger.entries.rows.filter (fun row => row.2.hasDirectRoute)).map (·.1)

/-- The input channel and the output channels of every peer, in rank order. -/
def transfers (ledger : Ledger) : List (Rank × Option Channel × List Channel) :=
  ledger.entries.rows.map fun row => (row.1, row.2.input, row.2.outputs)

def routes (ledger : Ledger) : List (Rank × String) :=
  ledger.entries.rows.filterMap fun row => row.2.route.map fun route => (row.1, route.text)

theorem entry_put (ledger : Ledger) (peer other : Rank) (entry : Connectivity) :
    (ledger.put peer entry).entry other = if other = peer then entry else ledger.entry other := by
  simp only [Ledger.entry, get?, put, Table.get?_insert]
  split <;> rfl

@[simp] theorem entry_track (ledger : Ledger) (peer other : Rank) :
    (ledger.track peer).entry other = ledger.entry other := by
  rw [track, entry_put]
  split <;> simp_all

theorem recordInput_eq_ok_iff {ledger next : Ledger} {peer : Rank} {channel : Channel} :
    ledger.recordInput peer channel = .ok next ↔
      ledger.input? peer = none ∧
        next = ledger.put peer { ledger.entry peer with input := some channel } := by
  unfold recordInput input?
  cases (ledger.entry peer).input <;> simp [eq_comm]

theorem entry_recordOutput (ledger : Ledger) (peer other : Rank) (channel : Channel) :
    (ledger.recordOutput peer channel).entry other =
      if other = peer then
        { ledger.entry peer with outputs := (ledger.entry peer).outputs ++ [channel] }
      else ledger.entry other :=
  entry_put ledger peer other _

/-- A route that is known stays. -/
theorem route?_recordRoute (ledger : Ledger) (peer other : Rank) (route : Route) :
    (ledger.recordRoute peer route).route? other =
      if other = peer then some ((ledger.route? peer).getD route) else ledger.route? other := by
  simp only [route?, recordRoute, entry_put]
  split
  · cases (ledger.entry peer).route <;> rfl
  · rfl

end Ledger

end MeshFormation
