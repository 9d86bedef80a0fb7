import MeshFormation.Rank

/-!
# Choosing what to relay

The two outer nodes of a chassis both receive the data of the same two inner nodes of the other
chassis, and each relays one of them. The choice is a rule that both nodes evaluate alone.
-/

namespace MeshFormation

/-- The candidate that a node relays into its chassis. The outer node of lower rank takes the
higher candidate and the other one takes the lower, so that both are covered without overlap.
Nothing is chosen unless there are exactly two different candidates. -/
def crossChoice (self fellow : Rank) (candidates : List Rank) : Option Rank :=
  match candidates with
  | [first, second] =>
    if first = second then none
    else if fellow < self then some (if first < second then first else second)
    else some (if first < second then second else first)
  | _ => none

/-- The chassis peers that are not the other outer node. -/
def innerNodes (chassisMates : List Rank) (fellow : Rank) : List Rank :=
  chassisMates.filter (· != fellow)

end MeshFormation
