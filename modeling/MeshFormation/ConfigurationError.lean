import MeshFormation.Profile
import MeshFormation.Rank

/-!
# Configuration errors

The ways in which a list of members, a profile name or a configuration document can be unusable.
-/

namespace MeshFormation

/-- What is wrong with the chassis of a group of eight. -/
inductive ChassisFault where
  | chassisCount (found : Nat)
  | chassisSize (chassis : String) (size : Nat)
deriving DecidableEq

def ChassisFault.message : ChassisFault → String
  | chassisCount found => s!"expected 2 chassis, found {found}"
  | chassisSize chassis size => s!"chassis {chassis} holds {size} members"

inductive ConfigurationError where
  | unsupportedSize (count : Nat)
  | profileSizeMismatch (profile : Profile) (count : Nat)
  | duplicateRank (rank : Rank)
  | nonContiguousRanks (missing : Rank)
  | invalidChassisLayout (group : Nat) (fault : ChassisFault)
  | unknownSelfRank (rank : Rank)
  | missingHostname (partner : Rank)
  | unknownProfile (name : String)
  /-- A document that cannot be read; what is wrong with it is not told. -/
  | unreadableSource
deriving DecidableEq

def ConfigurationError.message : ConfigurationError → String
  | unsupportedSize count => s!"Unsupported ensemble size: {count}"
  | profileSizeMismatch profile count => s!"Profile {profile.name} cannot hold {count} members"
  | duplicateRank rank => s!"Duplicate rank: {rank}"
  | nonContiguousRanks missing => s!"Ranks are not contiguous from zero (missing {missing})"
  | invalidChassisLayout group fault =>
    s!"Invalid chassis layout in group {group}: {fault.message}"
  | unknownSelfRank rank => s!"Local rank {rank} is not an ensemble member"
  | missingHostname partner => s!"Partition partner {partner} has no hostname"
  | unknownProfile name => s!"Unknown profile: {name}"
  | unreadableSource => "Invalid configuration source"

end MeshFormation
