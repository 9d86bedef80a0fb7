import MeshFormation.ConfigurationError
import MeshFormation.Member
import MeshFormation.Table

/-!
# Topologies

A topology is a list of members that was found to fit a profile, seen from one of them.
`Topology.ofMembers` is the only way to build one. It answers the structural questions that a node
asks: who shares my chassis, in which partition is a rank, who are my partners in other partitions.

In a cube the eight members sit in two chassis of four. A hypercube numbers its members from zero;
each run of eight ranks is a partition, laid out like a cube, and ranks that agree modulo eight are
partners of each other.
-/

namespace MeshFormation

/-- The number of members in a chassis of the eight-node layouts. -/
def chassisSize : Nat := 4

/-- The number of members in a partition, and in a cube. -/
def partitionSize : Nat := 8

/-- The members of an ensemble and its profile, as seen from one member. -/
structure Topology where
  profile : Profile
  localRank : Rank
  members : Table Member
deriving DecidableEq

/-- The profile that a request means for a number of members. -/
def ProfileRequest.resolve (count : Nat) : ProfileRequest → Except ConfigurationError Profile
  | .exact profile => .ok profile
  | .auto =>
    if count = 2 then .ok .pair
    else if count = 8 then .ok .cube
    else if count = 16 ∨ count = 32 then .ok .hypercube
    else .error (.unsupportedSize count)

/-- Adds a name to an ascending list of names that each occur once. -/
def addName (name : String) : List String → List String
  | [] => [name]
  | head :: rest =>
    if name < head then name :: head :: rest
    else if name = head then head :: rest
    else head :: addName name rest

def distinctNames (names : List String) : List String := names.foldr addName []

/-- What is wrong with a group whose members sit in the listed chassis, one for each member. There
must be two chassis of four. Of two chassis with a wrong size, the one whose name comes first is
named. -/
def chassisFault? (chassis : List String) : Option ChassisFault :=
  let names := distinctNames chassis
  if names.length ≠ 2 then some (.chassisCount names.length)
  else
    (names.find? (fun name => chassis.count name != chassisSize)).map
      fun name => .chassisSize name (chassis.count name)

namespace Topology

/-- Sorts members by rank. The first member whose rank occurred before is refused. -/
def gather : List Member → Table Member → Except ConfigurationError (Table Member)
  | [], table => .ok table
  | member :: rest, table =>
    if table.contains member.rank then .error (.duplicateRank member.rank)
    else gather rest (table.insert member.rank member)

def size (topology : Topology) : Nat := topology.members.size

def ranks (topology : Topology) : List Rank := topology.members.keys

def member? (topology : Topology) (rank : Rank) : Option Member := topology.members.get? rank

def hasMember (topology : Topology) (rank : Rank) : Bool := topology.members.contains rank

def chassis? (topology : Topology) (rank : Rank) : Option String :=
  (topology.member? rank).map (·.chassis)

def localChassis (topology : Topology) : String :=
  (topology.chassis? topology.localRank).getD ""

/-- The partition of a rank. Only a hypercube has more than one. -/
def partitionIndex (topology : Topology) (rank : Rank) : Nat :=
  match topology.profile with
  | .hypercube => rank.toNat / partitionSize
  | _ => 0

def partitionCount (topology : Topology) : Nat :=
  match topology.profile with
  | .hypercube => topology.size / partitionSize
  | _ => 1

/-- The members of a partition, in rank order. -/
def partitionRanks (topology : Topology) (partition : Nat) : List Rank :=
  topology.ranks.filter fun rank => topology.partitionIndex rank == partition

def sharePartition (topology : Topology) (first second : Rank) : Bool :=
  topology.partitionIndex first == topology.partitionIndex second

/-- Whether two ranks are members that share a chassis and a partition. -/
def shareChassis (topology : Topology) (first second : Rank) : Bool :=
  topology.sharePartition first second &&
    match topology.chassis? first, topology.chassis? second with
    | some one, some other => one == other
    | _, _ => false

/-- The other members in the chassis of a rank, in rank order. -/
def chassisMates (topology : Topology) (rank : Rank) : List Rank :=
  topology.ranks.filter fun other => other != rank && topology.shareChassis rank other

/-- The members of other partitions that agree with a rank modulo eight, in rank order. -/
def counterparts (topology : Topology) (rank : Rank) : List Rank :=
  match topology.profile with
  | .hypercube =>
    topology.ranks.filter fun other =>
      other.toNat % partitionSize == rank.toNat % partitionSize &&
        !topology.sharePartition rank other
  | _ => []

/-- The number of peers from which the local node must receive over the mesh. -/
def receiveCount (topology : Topology) : Nat :=
  match topology.profile with
  | .pair => 1
  | .cube => partitionSize - 1
  | .hypercube => partitionSize - 1

/-- The number of transmits that are known from the start. A cube node starts with the links in
its chassis and expects more once it turns out to hold a link to the other chassis. -/
def transmitCount (topology : Topology) : Nat :=
  match topology.profile with
  | .pair => 1
  | .cube => chassisSize - 1
  | .hypercube => partitionSize - 1

/-- The number of long-haul links to partition partners. -/
def networkLinkCount (topology : Topology) : Nat :=
  (topology.counterparts topology.localRank).length

/-- What is wrong with the chassis of a group of members. -/
def groupFault? (topology : Topology) (group : Nat) (ranks : List Rank) :
    Option ConfigurationError :=
  (chassisFault? (ranks.filterMap topology.chassis?)).map (.invalidChassisLayout group)

/-- The number of members does not fit the profile. -/
def sizeMismatch (topology : Topology) : ConfigurationError :=
  .profileSizeMismatch topology.profile topology.size

/-- The least rank below the number of members that no member has. -/
def missingRank? (topology : Topology) : Option Rank :=
  ((List.range topology.size).map UInt32.ofNat).find? fun rank => !topology.hasMember rank

/-- The first demand of the profile that the members do not meet. -/
def fault? (topology : Topology) : Option ConfigurationError :=
  match topology.profile with
  | .pair => if topology.size ≠ 2 then some topology.sizeMismatch else none
  | .cube =>
    if topology.size ≠ partitionSize then some topology.sizeMismatch
    else topology.groupFault? 0 topology.ranks
  | .hypercube =>
    if topology.size % partitionSize ≠ 0 ∨ topology.size / partitionSize ∉ [1, 2, 4] then
      some topology.sizeMismatch
    else
      match topology.missingRank? with
      | some missing => some (.nonContiguousRanks missing)
      | none =>
        (List.range topology.partitionCount).findSome? fun partition =>
          topology.groupFault? partition (topology.partitionRanks partition)

/-- The topology of a list of members as seen from a local rank, if there is one. Repeated ranks
are found first, then a missing local rank, then what the profile demands. -/
def ofMembers (members : List Member) (localRank : Rank) (request : ProfileRequest) :
    Except ConfigurationError Topology :=
  match gather members ∅ with
  | .error fault => .error fault
  | .ok table =>
    if !table.contains localRank then .error (.unknownSelfRank localRank)
    else
      match request.resolve members.length with
      | .error fault => .error fault
      | .ok profile =>
        let topology : Topology := ⟨profile, localRank, table⟩
        match topology.fault? with
        | some fault => .error fault
        | none => .ok topology

end Topology

end MeshFormation
