import MeshFormation.Layout
import MeshFormation.Table

/-!
# Cabling

The cables of an ensemble, given as a list of links. Every node numbers its channels from zero in
the order of the list. A link from a node to itself uses one channel.
-/

namespace MeshFormation

/-- The far ends of a node's channels. -/
abbrev Wiring := Table (Rank × Channel)

/-- The wiring of every node that has a cable. -/
structure Cabling where
  wirings : Table Wiring
deriving DecidableEq

/-- One end of a cable: the node, its channel, and the node at the far end. -/
structure CableEnd where
  node : Rank
  channel : Channel
  peer : Rank
deriving DecidableEq

namespace Cabling

def empty : Cabling := ⟨∅⟩

def wiringOf (cabling : Cabling) (node : Rank) : Wiring := (cabling.wirings.get? node).getD ∅

def nextChannel (cabling : Cabling) (node : Rank) : Channel :=
  UInt32.ofNat (cabling.wiringOf node).size

def wire (cabling : Cabling) (node : Rank) (channel : Channel) (farEnd : Rank × Channel) :
    Cabling :=
  ⟨cabling.wirings.insert node ((cabling.wiringOf node).insert channel farEnd)⟩

/-- The two ends of the next cable. -/
def nextEnds (cabling : Cabling) (link : Link) : List CableEnd :=
  [⟨link.1, cabling.nextChannel link.1, link.2⟩, ⟨link.2, cabling.nextChannel link.2, link.1⟩]

def add (cabling : Cabling) (link : Link) : Cabling :=
  let first := cabling.nextChannel link.1
  let second := cabling.nextChannel link.2
  (cabling.wire link.1 first (link.2, second)).wire link.2 second (link.1, first)

def ofLinks (links : List Link) : Cabling := links.foldl add empty

/-- The ends of all cables, in the order of the links, on top of a cabling. -/
def endsFrom (cabling : Cabling) : List Link → List CableEnd
  | [] => []
  | link :: rest => cabling.nextEnds link ++ (cabling.add link).endsFrom rest

/-- The ends of all cables, in the order of the links. -/
def ends (links : List Link) : List CableEnd := empty.endsFrom links

end Cabling

end MeshFormation
