import MeshFormation.Json.Object
import MeshFormation.Json.Reader
import MeshFormation.Json.Writer
import MeshFormation.Member

/-!
# Members as JSON

A member is written as an object with its rank, its chassis and its hostname, which is null if
there is none. A reader accepts the members of the object in any order, ignores what it does not
know without looking into it, and takes a missing hostname for none. An array of the same values
in their order is accepted too, with or without the hostname.
-/

namespace MeshFormation.Member

open Json

/-- The member whose fields are given by name. -/
def ofMembers? (members : List (String × Value)) : Option Member :=
  match (required? members "rank").bind Value.word?,
      (required? members "chassis_id").bind Value.text?, optional? members "hostname" with
  | some rank, some chassis, some hostname =>
    match hostname with
    | none => some ⟨rank, chassis, none⟩
    | some value => value.textOrNull?.map fun hostname => ⟨rank, chassis, hostname⟩
  | _, _, _ => none

/-- The member whose fields are given in order. -/
def ofItems? : List Value → Option Member
  | [rank, chassis] =>
    match rank.word?, chassis.text? with
    | some rank, some chassis => some ⟨rank, chassis, none⟩
    | _, _ => none
  | [rank, chassis, hostname] =>
    match rank.word?, chassis.text?, hostname.textOrNull? with
    | some rank, some chassis, some hostname => some ⟨rank, chassis, hostname⟩
    | _, _, _ => none
  | _ => none

def ofValue? : Value → Option Member
  | .object members => (namedMembers? members).bind ofMembers?
  | .array items => ofItems? items
  | _ => none

/-- The member that a JSON text stands for. -/
def ofJson? (text : List Char) : Option Member := (readLenient text).bind ofValue?

def toJson (member : Member) : List Char :=
  writeObject
    [("rank", writeWord member.rank), ("chassis_id", writeString member.chassis),
      ("hostname", writeOptional member.hostname)]

end MeshFormation.Member
