import MeshFormation.Topology

/-!
# The reference layout

Members and cables of an ensemble as it is meant to be built. Every eight ranks form a partition
with two chassis of four. All nodes of a chassis are linked to each other. A pair is a single link;
in a cube the first two nodes of one chassis are linked to those of the other, in a hypercube all
four are.
-/

namespace MeshFormation

/-- A cable between two nodes. -/
abbrev Link := Rank × Rank

namespace Layout

def chassisOf (rank : Nat) : String :=
  s!"p{rank / partitionSize}-" ++ if rank % partitionSize < chassisSize then "a" else "b"

def member (rank : Nat) : Member := ⟨UInt32.ofNat rank, chassisOf rank, some s!"node{rank}"⟩

def members (count : Nat) : List Member := (List.range count).map member

/-- The links between all nodes of a chassis, given its lowest rank. -/
def chassisLinks (first : Nat) : List (Nat × Nat) :=
  (List.range chassisSize).flatMap fun low =>
    (List.range' (low + 1) (chassisSize - 1 - low)).map fun high => (first + low, first + high)

/-- The number of links between the two chassis of a partition. -/
def crossLinkCount : Profile → Nat
  | .cube => 2
  | _ => chassisSize

/-- The links of a partition, given its lowest rank. -/
def partitionLinks (profile : Profile) (base : Nat) : List (Nat × Nat) :=
  chassisLinks base ++ chassisLinks (base + chassisSize) ++
    (List.range (crossLinkCount profile)).map fun slot =>
      (base + slot, base + slot + chassisSize)

/-- The links of an ensemble with a number of members. A partition that is only begun gets all of
its links. -/
def links (profile : Profile) (count : Nat) : List Link :=
  match profile with
  | .pair => [(0, 1)]
  | profile =>
    ((List.range ((count + partitionSize - 1) / partitionSize)).flatMap fun partition =>
      partitionLinks profile (partition * partitionSize)).map
        fun (low, high) => (UInt32.ofNat low, UInt32.ofNat high)

end Layout

end MeshFormation
