import MeshFormation.Rank

/-!
# Ensemble members

The static description of one member, as the list of members states it.
-/

namespace MeshFormation

/-- One member of an ensemble. The hostname is only needed to open long-haul network links. -/
structure Member where
  rank : Rank
  chassis : String
  hostname : Option String
deriving DecidableEq

end MeshFormation
