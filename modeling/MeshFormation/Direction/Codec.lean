import MeshFormation.Event
import MeshFormation.Json.Reader
import MeshFormation.Json.Writer

/-!
# Directions as JSON

A direction is written as the string `Rx` or `Tx`. An object whose only member has that name and
the value null is read as the same direction.
-/

namespace MeshFormation.Direction

open Json

def label : Direction → String
  | rx => "Rx"
  | tx => "Tx"

def ofLabel? : Text → Option Direction
  | some "Rx" => some rx
  | some "Tx" => some tx
  | _ => none

def ofValue? : Value → Option Direction
  | .string label => ofLabel? label
  | .object [(label, .null)] => ofLabel? label
  | _ => none

/-- The direction that a JSON text stands for. -/
def ofJson? (text : List Char) : Option Direction := (readLenient text).bind ofValue?

def toJson (direction : Direction) : List Char := writeString direction.label

end MeshFormation.Direction
