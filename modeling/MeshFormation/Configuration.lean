import MeshFormation.Toml.Document
import MeshFormation.Topology

/-!
# Configuration documents

The membership of an ensemble as one node is told it: the local rank, the name of the wanted
profile and the members. It is read from a TOML document such as

    self_rank = 2
    profile = "auto"

    [[members]]
    rank = 0
    chassis_id = "rack1-a"
    hostname = "node0.cluster"

Settings that the document has beyond these are ignored. The members are not checked until the
topology is asked for.
-/

namespace MeshFormation

/-- Ensemble membership as one node is told it. -/
structure Configuration where
  localRank : Rank
  profileName : String
  members : List Member
deriving DecidableEq

namespace Toml

/-- The 32-bit word that an integer is. -/
def Value.word? : Value → Option UInt32
  | integer value =>
    if 0 ≤ value ∧ value < UInt32.size then some (UInt32.ofNat value.toNat) else none
  | _ => none

def Value.text? : Value → Option String
  | string text => some text
  | _ => none

/-- The text of a string that may be missing. The outer option is empty if there is something that
is no string. -/
def Value.optionalText? : Option Value → Option (Option String)
  | none => some none
  | some value => value.text?.map some

end Toml

namespace Member

open Toml (Entries Value)

/-- The member that a table describes. -/
def ofEntries? (entries : Entries) : Option Member :=
  match (entries.find? "rank").bind Value.word?, (entries.find? "chassis_id").bind Value.text?,
      Value.optionalText? (entries.find? "hostname") with
  | some rank, some chassis, some hostname => some ⟨rank, chassis, hostname⟩
  | _, _, _ => none

/-- The member that an array describes by its first items, in order. -/
def ofTomlItems? : List Value → Option Member
  | rank :: chassis :: rest =>
    match rank.word?, chassis.text?, Value.optionalText? rest.head? with
    | some rank, some chassis, some hostname => some ⟨rank, chassis, hostname⟩
    | _, _, _ => none
  | _ => none

/-- The member that an item of the list of members describes. -/
def ofToml? : Value → Option Member
  | .table _ entries => ofEntries? entries
  | .array items => ofTomlItems? items
  | _ => none

/-- The members that the value of the members setting describes. -/
def listOfToml? : Option Value → Option (List Member)
  | none => some []
  | some (.array items) => items.mapM ofToml?
  | some (.tables elements) => elements.mapM ofEntries?
  | some _ => none

end Member

namespace Configuration

open Toml (Entries Value)

/-- The name of the profile that is wanted where nothing else is said. -/
def defaultProfileName : String := "auto"

/-- The configuration that the settings of a document describe. -/
def ofEntries? (entries : Entries) : Option Configuration :=
  match (entries.find? "self_rank").bind Value.word?,
      Value.optionalText? (entries.find? "profile"),
      Member.listOfToml? (entries.find? "members") with
  | some localRank, some profileName, some members =>
    some ⟨localRank, profileName.getD defaultProfileName, members⟩
  | _, _, _ => none

def ofText (text : String) : Except ConfigurationError Configuration :=
  match (Toml.read text.toList).bind ofEntries? with
  | some configuration => .ok configuration
  | none => .error .unreadableSource

/-- The configuration in a file, which is absent if the file cannot be read. -/
def ofFile (content : Option ByteArray) : Except ConfigurationError Configuration :=
  match content.bind String.fromUTF8? with
  | some text => ofText text
  | none => .error .unreadableSource

/-- The topology of the configured ensemble. The name of the profile is looked at first. -/
def topology (configuration : Configuration) : Except ConfigurationError Topology :=
  match ProfileRequest.ofName configuration.profileName with
  | .error name => .error (.unknownProfile name)
  | .ok request => Topology.ofMembers configuration.members configuration.localRank request

end Configuration

end MeshFormation
