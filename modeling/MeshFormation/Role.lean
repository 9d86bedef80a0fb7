import MeshFormation.Rank

/-!
# Roles that are assigned once

Which node holds a link to the other chassis is discovered from link events, not configured. A
role is assigned at most once, and a second assignment is refused instead of rewriting the first.
-/

namespace MeshFormation

/-- A role or a partner was recorded before. The text says which. -/
structure RoleTaken where
  current : String
deriving DecidableEq

def RoleTaken.message (refusal : RoleTaken) : String :=
  s!"Role already assigned ({refusal.current})"

inductive Role where
  /-- No link to the other chassis was observed yet. -/
  | undetermined
  /-- The node holds a link to `partner` in the other chassis. -/
  | outer (partner : Rank)
deriving DecidableEq

namespace Role

def isOuter : Role → Bool
  | undetermined => false
  | outer _ => true

/-- The node at the other end of that link. -/
def partner? : Role → Option Rank
  | undetermined => none
  | outer partner => some partner

def becomeOuter (role : Role) (partner : Rank) : Except RoleTaken Role :=
  match role with
  | undetermined => .ok (outer partner)
  | outer current => .error ⟨s!"outer with partner {current}"⟩

end Role

/-- A rank that may be written once. -/
structure OnceRank where
  value : Option Rank
deriving DecidableEq

namespace OnceRank

def unset : OnceRank := ⟨none⟩

/-- Writes the slot, unless it holds a rank already. -/
def set (slot : OnceRank) (rank : Rank) : Except RoleTaken OnceRank :=
  match slot.value with
  | none => .ok ⟨some rank⟩
  | some current => .error ⟨toString current⟩

end OnceRank

end MeshFormation
