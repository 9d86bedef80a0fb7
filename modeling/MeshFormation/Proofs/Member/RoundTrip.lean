import MeshFormation.Member.Codec
import MeshFormation.Proofs.Json.RoundTrip

/-!
# Members survive their JSON text

What `Member.toJson` writes is read back by `Member.ofJson?` as the same member, with or without a
hostname.
-/

namespace MeshFormation.Member

open Json

/-- The fields of a written member: name, written value and the value it is read as. -/
def fields (member : Member) : List (String × List Char × Value) :=
  [("rank", writeWord member.rank, .number (wordNumber member.rank)),
    ("chassis_id", writeString member.chassis, .string (some member.chassis)),
    ("hostname", writeOptional member.hostname, textOrNull member.hostname)]

theorem readsAs_of_mem_fields {member : Member} {levels : Nat} {field : String × List Char × Value}
    (h : field ∈ member.fields) : ReadsAs levels field.2.1 field.2.2 := by
  simp only [fields, List.mem_cons, List.not_mem_nil, or_false] at h
  rcases h with rfl | rfl | rfl
  · exact readsAs_writeWord levels _
  · exact readsAs_writeString levels _
  · exact readsAs_writeOptional levels _

theorem ofValue?_fields (member : Member) :
    ofValue? (.object (member.fields.map fun field => (some field.1, field.2.2))) =
      some member := by
  simp [fields, ofValue?, namedMembers?, ofMembers?, required?, optional?, valuesOf, Value.text?,
    word?_wordNumber, textOrNull?_textOrNull]

/-- A member is read back from its own text. -/
theorem ofJson?_toJson (member : Member) : ofJson? member.toJson = some member := by
  have hread : readLenient member.toJson =
      some (.object (member.fields.map fun field => (some field.1, field.2.2))) :=
    read_writeObject _ (List.cons_ne_nil _ _) fun _ h => readsAs_of_mem_fields h
  rw [ofJson?, hread, Option.bind_some, ofValue?_fields]

end MeshFormation.Member
