import MeshFormation.Rank

/-!
# Routes

A route is the chain of ranks by which a node reaches a peer. It starts with one direct hop, and
every further rank is learned from the node that relays to it, so a longer route is always a
shorter one extended at its end.
-/

namespace MeshFormation

/-- A chain of at least two ranks. -/
inductive Route where
  | direct (origin destination : Rank)
  | relayed (base : Route) (destination : Rank)
deriving DecidableEq

namespace Route

/-- All ranks of the route, origin and destination included. -/
def hops : Route → List Rank
  | direct origin destination => [origin, destination]
  | relayed base destination => base.hops ++ [destination]

def origin : Route → Rank
  | direct origin _ => origin
  | relayed base _ => base.origin

def destination : Route → Rank
  | direct _ destination => destination
  | relayed _ destination => destination

def linkCount : Route → Nat
  | direct _ _ => 1
  | relayed base _ => base.linkCount + 1

/-- The route as it is displayed, such as `0->2->5`. -/
def text : Route → String
  | direct origin destination => toString origin ++ "->" ++ toString destination
  | relayed base destination => base.text ++ "->" ++ toString destination

/-- The first entry of a list that occurs again further on. -/
def firstRepeated? : List Rank → Option Rank
  | [] => none
  | rank :: rest => if rest.contains rank then some rank else firstRepeated? rest

/-- What is wrong with a route that should lead from the local node to a peer. -/
inductive Fault where
  | wrongOrigin (route : Route) (localRank : Rank)
  | wrongDestination (route : Route) (peer : Rank)
  | revisits (route : Route) (rank : Rank)
deriving DecidableEq

def Fault.message : Fault → String
  | wrongOrigin route localRank => s!"route {route.text} does not start at rank {localRank}"
  | wrongDestination route peer => s!"route {route.text} does not end at rank {peer}"
  | revisits route rank => s!"route {route.text} revisits rank {rank}"

/-- A route is sound if it starts at the local rank, ends at the peer and visits no rank twice.
The first of the three demands that fails is reported. -/
def fault? (route : Route) (localRank peer : Rank) : Option Fault :=
  if route.origin ≠ localRank then some (.wrongOrigin route localRank)
  else if route.destination ≠ peer then some (.wrongDestination route peer)
  else (firstRepeated? route.hops).map (.revisits route)

theorem length_hops (route : Route) : route.hops.length = route.linkCount + 1 := by
  induction route with
  | direct => rfl
  | relayed base destination ih => simp [hops, linkCount, ih]

theorem head?_hops (route : Route) : route.hops.head? = some route.origin := by
  induction route with
  | direct => rfl
  | relayed base destination ih => simp [hops, origin, List.head?_append, ih]

theorem getLast?_hops (route : Route) : route.hops.getLast? = some route.destination := by
  cases route <;> simp [hops, destination]

theorem firstRepeated?_eq_none_iff {ranks : List Rank} :
    firstRepeated? ranks = none ↔ ranks.Nodup := by
  induction ranks with
  | nil => simp [firstRepeated?]
  | cons rank rest ih =>
    by_cases h : rank ∈ rest <;> simp [firstRepeated?, h, ih]

theorem fault?_eq_none_iff {route : Route} {localRank peer : Rank} :
    route.fault? localRank peer = none ↔
      route.origin = localRank ∧ route.destination = peer ∧ route.hops.Nodup := by
  unfold fault?
  split
  · simp_all
  · split <;> simp_all [firstRepeated?_eq_none_iff]

end Route

end MeshFormation
