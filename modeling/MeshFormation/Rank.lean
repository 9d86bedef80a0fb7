/-!
# Ranks and channels

The two kinds of number that every part of an ensemble speaks of. Both are 32-bit words.
-/

namespace MeshFormation

/-- The number of an ensemble member, unique and stable for the lifetime of the ensemble. -/
abbrev Rank := UInt32

/-- The number of a physical channel slot of one node. -/
abbrev Channel := UInt32

end MeshFormation
