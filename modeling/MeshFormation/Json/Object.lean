import MeshFormation.Json.Value

/-!
# Members of an object

Readers of a document pick the members they know by name. A name that they know may stand in an
object once; what else the object holds does not matter to them.
-/

namespace MeshFormation.Json

/-- The members of an object with the texts of their names, if all names stand for a text. -/
def namedMembers? : List (Text × Value) → Option (List (String × Value))
  | [] => some []
  | (none, _) :: _ => none
  | (some name, value) :: rest => (namedMembers? rest).map ((name, value) :: ·)

def valuesOf (members : List (String × Value)) (name : String) : List Value :=
  (members.filter (·.1 == name)).map (·.2)

/-- The value of a member that must be there, once. -/
def required? (members : List (String × Value)) (name : String) : Option Value :=
  match valuesOf members name with
  | [value] => some value
  | _ => none

/-- The value of a member that may be there, once. The outer option is empty if it is repeated. -/
def optional? (members : List (String × Value)) (name : String) : Option (Option Value) :=
  match valuesOf members name with
  | [] => some none
  | [value] => some (some value)
  | _ => none

def Value.text? : Value → Option String
  | string text => text
  | _ => none

/-- The 32-bit word that an integer stands for, if it is small enough. -/
def Value.word? : Value → Option UInt32
  | number value =>
    match value.toNat? with
    | some n => if n < UInt32.size then some (UInt32.ofNat n) else none
    | none => none
  | _ => none

/-- The text of a string value, where a null says that there is none. -/
def Value.textOrNull? : Value → Option (Option String)
  | null => some none
  | string (some text) => some (some text)
  | _ => none

end MeshFormation.Json
