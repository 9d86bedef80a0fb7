import Mathlib.Data.List.Forall2
import MeshFormation.Proofs.Configuration.Description
import MeshFormation.Proofs.Toml.Writing

/-!
# Reading and writing configurations

A text that describes a configuration is read as that configuration. So is the text that is written
for one, and so are texts whose tables have their keys in another order or have further keys.
-/

namespace MeshFormation

open Toml (DocumentText Entries IsBarePath LinesText Section Setting Statement Tabulates Value
  isKnown plain writeElement writeSetting writeString writeTable writeWord writes_writeString
  writes_writeWord)

/-! ## Tables whose keys have no dots -/

/-- The table of a member has its fields, and maybe others. -/
def Member.IsTabulatedBy (member : Member) (table : List (String × Value)) : Prop :=
  Tabulates Member.keys table member.tomlFields

namespace Configuration

variable {localRank : Rank} {profileName : Option String} {members : List Member}
  {entries : Entries} {settings : List (String × Value)} {tables : List (List (String × Value))}

/-- The section with the table of a member. -/
def memberSection (table : List (String × Value)) : Section := ⟨true, ["members"], table.map plain⟩

/-- The statements of a table of a member. -/
def memberStatements (table : List (String × Value)) : List Statement :=
  .element ["members"] :: table.map Statement.ofField

/-- The statements of a document with some settings and some tables of members. -/
def tableStatements (settings : List (String × Value)) (tables : List (List (String × Value))) :
    List Statement :=
  settings.map Statement.ofField ++ tables.flatMap memberStatements

theorem groupStatements_tableStatements (settings : List (String × Value))
    (tables : List (List (String × Value))) :
    Toml.groupStatements (tableStatements settings tables) =
      (settings.map plain, tables.map memberSection) := by
  have htables : Toml.groupStatements (tables.flatMap memberStatements) =
      ([], tables.map memberSection) := by
    induction tables with
    | nil => rfl
    | cons table tables ih =>
      rw [List.flatMap_cons, memberStatements, List.cons_append, Toml.groupStatements,
        Toml.groupStatements_fields, ih, List.append_nil]
      rfl
  rw [tableStatements, Toml.groupStatements_fields, htables, List.append_nil]

theorem sections_tables (h : List.Forall₂ Member.IsTabulatedBy members tables) (seen : Bool) :
    Sections seen (tables.map memberSection) members := by
  induction h generalizing seen with
  | nil => exact .nil
  | cons table tables ih => exact .member table.perm_plain (ih true)

/-- What is left of the tables of members without their known fields can be filed one after the
other. -/
theorem isSome_foldlM_addTo (h : List.Forall₂ Member.IsTabulatedBy members tables)
    {filedTables : List Entries} (hfiled : Entries.find? entries "members" = filed filedTables) :
    (((tables.map memberSection).map stripSection).foldlM Section.addTo entries).isSome = true := by
  induction h generalizing entries filedTables with
  | nil => rfl
  | @cons member table members tables htable others ih =>
    obtain ⟨element, helement⟩ := htable.exists_unknown
    rw [List.map_cons, List.map_cons, List.foldlM_cons, memberSection, stripSection_member,
      addTo_member helement hfiled]
    exact ih (find?_put_members entries filedTables element)

/-- Tables describe a configuration if they have its fields, whatever other fields they have. -/
theorem describes_tables (hsettings : Tabulates keys settings (tomlFields localRank profileName))
    (htables : List.Forall₂ Member.IsTabulatedBy members tables) :
    Describes (tableStatements settings tables) localRank profileName members := by
  have hgroups := groupStatements_tableStatements settings tables
  constructor
  · rw [hgroups]
    exact hsettings.perm_plain
  · rw [hgroups]
    exact sections_tables htables false
  · obtain ⟨others, hothers⟩ := hsettings.exists_unknown
    have hmembers : Entries.find? others "members" = filed [] :=
      Toml.find?_assignAll_unknown hothers (by decide)
    simp only [Toml.ofStatements?, groupStatements_strip, hgroups, hothers]
    exact isSome_foldlM_addTo htables hmembers

end Configuration

/-! ## Canonical documents -/

theorem Member.isBarePath : ∀ key ∈ Member.keys, IsBarePath [key] := by decide

theorem Configuration.isBarePath : ∀ key ∈ Configuration.keys, IsBarePath [key] := by decide

/-- The table of a member, with its keys in their usual order and without the one of a missing
hostname. -/
def Member.document (member : Member) : List Char :=
  writeElement ["members"] ++ (writeSetting ["rank"] (writeWord member.rank) ++
    (writeSetting ["chassis_id"] (writeString member.chassis) ++
      member.hostname.elim [] fun hostname => writeSetting ["hostname"] (writeString hostname)))

theorem Member.linesText_document (member : Member) {text : List Char} {statements : List Statement}
    (others : LinesText text statements) :
    LinesText (member.document ++ text)
      (Configuration.memberStatements member.tomlFields ++ statements) := by
  obtain ⟨rank, chassis, hostname⟩ := member
  have hhostname : LinesText
      ((hostname.elim [] fun hostname => writeSetting ["hostname"] (writeString hostname)) ++ text)
      ((hostname.toList.map fun hostname => .setting ["hostname"] (.string hostname)) ++
        statements) := by
    cases hostname with
    | none => exact others
    | some hostname =>
      exact others.setting (isBarePath "hostname" (by decide)) (writes_writeString hostname)
  have hchassis := hhostname.setting (isBarePath "chassis_id" (by decide))
    (writes_writeString chassis)
  have hrank := hchassis.setting (isBarePath "rank" (by decide)) (writes_writeWord rank)
  have helement := hrank.element (Configuration.isBarePath "members" (by decide))
  simpa [document, Configuration.memberStatements, tomlFields, Statement.ofField, Function.comp_def]
    using helement

namespace Configuration

/-- The document of a configuration, in which the name of the profile may be left out. -/
def documentOf (localRank : Rank) (profileName : Option String) (members : List Member) :
    List Char :=
  writeSetting ["self_rank"] (writeWord localRank) ++
    ((profileName.elim [] fun name => writeSetting ["profile"] (writeString name)) ++
      members.flatMap Member.document)

theorem linesText_members (members : List Member) :
    LinesText (members.flatMap Member.document)
      ((members.map Member.tomlFields).flatMap memberStatements) := by
  induction members with
  | nil => exact .nil
  | cons member members ih =>
    rw [List.flatMap_cons, List.map_cons, List.flatMap_cons]
    exact member.linesText_document ih

theorem linesText_documentOf (localRank : Rank) (profileName : Option String)
    (members : List Member) :
    LinesText (documentOf localRank profileName members)
      (tableStatements (tomlFields localRank profileName) (members.map Member.tomlFields)) := by
  have hprofile : LinesText
      ((profileName.elim [] fun name => writeSetting ["profile"] (writeString name)) ++
        members.flatMap Member.document)
      ((profileName.toList.map fun name => .setting ["profile"] (.string name)) ++
        (members.map Member.tomlFields).flatMap memberStatements) := by
    cases profileName with
    | none => exact linesText_members members
    | some name =>
      exact (linesText_members members).setting (isBarePath "profile" (by decide))
        (writes_writeString name)
  have hrank := hprofile.setting (isBarePath "self_rank" (by decide)) (writes_writeWord localRank)
  simpa [documentOf, tableStatements, tomlFields, Statement.ofField, Function.comp_def] using hrank

/-- The canonical document of a configuration. -/
def document (configuration : Configuration) : List Char :=
  documentOf configuration.localRank (some configuration.profileName) configuration.members

end Configuration

/-! ## Reading -/

theorem Member.isTabulatedBy_tomlFields (member : Member) :
    member.IsTabulatedBy member.tomlFields := by
  apply Toml.tabulates_self member.nodup_tomlFields
  simp [tomlFields, keys]

namespace Configuration

theorem tabulates_tomlFields (localRank : Rank) (profileName : Option String) :
    Tabulates keys (tomlFields localRank profileName) (tomlFields localRank profileName) := by
  apply Toml.tabulates_self (nodup_tomlFields localRank profileName)
  simp [tomlFields, keys]

theorem ofText_of_describes {text : String} {statements : List Statement} {localRank : Rank}
    {profileName : Option String} {members : List Member}
    (hdocument : DocumentText text.toList statements)
    (hdescribes : Describes statements localRank profileName members) :
    ofText text = .ok ⟨localRank, profileName.getD defaultProfileName, members⟩ := by
  rw [ofText, hdocument.read_eq, hdescribes.ofEntries?_eq]

theorem ofText_documentOf (localRank : Rank) (profileName : Option String) (members : List Member) :
    ofText (String.ofList (documentOf localRank profileName members)) =
      .ok ⟨localRank, profileName.getD defaultProfileName, members⟩ := by
  have htables : List.Forall₂ Member.IsTabulatedBy members (members.map Member.tomlFields) := by
    rw [List.forall₂_map_right_iff, List.forall₂_same]
    exact fun member _ => member.isTabulatedBy_tomlFields
  have hdocument := DocumentText.plain (linesText_documentOf localRank profileName members)
  rw [← String.toList_ofList (l := documentOf localRank profileName members)] at hdocument
  exact ofText_of_describes hdocument
    (describes_tables (tabulates_tomlFields localRank profileName) htables)

/-- Documents mean what they say. The canonical document of a configuration is read as this
configuration; without the name of the profile it has the default one, and without tables of members
it has no members. A text is read as the configuration whose fields its tables have, whatever the
order of their keys and whatever other keys they have. That holds of tables whose keys have no dots,
and of all documents that describe the configuration. -/
theorem ofText_document :
      (∀ configuration : Configuration,
        ofText (String.ofList configuration.document) = .ok configuration) ∧
      (∀ configuration : Configuration,
        ofText (String.ofList (documentOf configuration.localRank none configuration.members)) =
          .ok { configuration with profileName := "auto" }) ∧
      (∀ configuration : Configuration,
        ofText (String.ofList
            (documentOf configuration.localRank (some configuration.profileName) [])) =
          .ok { configuration with members := [] }) ∧
      (∀ {text : String} {settings : List (String × Value)} {tables : List (List (String × Value))}
        {localRank : Rank} {profileName : Option String} {members : List Member},
        DocumentText text.toList (tableStatements settings tables) →
        Tabulates keys settings (tomlFields localRank profileName) →
        List.Forall₂ Member.IsTabulatedBy members tables →
          ofText text = .ok ⟨localRank, profileName.getD "auto", members⟩) ∧
      ∀ {text : String} {statements : List Statement} {localRank : Rank}
        {profileName : Option String} {members : List Member},
        DocumentText text.toList statements →
        Describes statements localRank profileName members →
          ofText text = .ok ⟨localRank, profileName.getD "auto", members⟩ := by
  refine ⟨fun configuration => ?_, fun configuration => ?_, fun configuration => ?_, ?_, ?_⟩
  · exact ofText_documentOf configuration.localRank (some configuration.profileName)
      configuration.members
  · exact ofText_documentOf configuration.localRank none configuration.members
  · exact ofText_documentOf configuration.localRank (some configuration.profileName) []
  · intro text settings tables localRank profileName members hdocument hsettings htables
    exact ofText_of_describes hdocument (describes_tables hsettings htables)
  · intro text statements localRank profileName members hdocument hdescribes
    exact ofText_of_describes hdocument hdescribes

/-- A document whose keys stand in another order, with a setting and a field of a member that are
not read. -/
def furtherText : String :=
  "secure = true\nprofile = \"pair\"\nself_rank = 1\n" ++
    "[[members]]\nslot = 4\nchassis_id = \"left\"\nrank = 1\n" ++
    "[[members]]\nhostname = \"b\\tc\"\nrank = 0\nchassis_id = \"right\"\n"

def furtherSettings : List (String × Value) :=
  [("secure", .other .boolean), ("profile", .string "pair"), ("self_rank", .integer 1)]

def furtherTables : List (List (String × Value)) :=
  [[("slot", .integer 4), ("chassis_id", .string "left"), ("rank", .integer 1)],
    [("hostname", .string "b\tc"), ("rank", .integer 0), ("chassis_id", .string "right")]]

def furtherMembers : List Member := [⟨1, "left", none⟩, ⟨0, "right", some "b\tc"⟩]

theorem documentText_further :
    DocumentText furtherText.toList (tableStatements furtherSettings furtherTables) := by
  have htext : furtherText.toList = writeSetting ["secure"] "true".toList ++
      (writeSetting ["profile"] (writeString "pair") ++ (writeSetting ["self_rank"] (writeWord 1) ++
        (writeElement ["members"] ++ (writeSetting ["slot"] (writeWord 4) ++
          (writeSetting ["chassis_id"] (writeString "left") ++
            (writeSetting ["rank"] (writeWord 1) ++ (writeElement ["members"] ++
              (writeSetting ["hostname"] (writeString "b\tc") ++
                (writeSetting ["rank"] (writeWord 0) ++
                  (writeSetting ["chassis_id"] (writeString "right") ++ [])))))))))) := by
    decide +kernel
  rw [htext]
  apply DocumentText.plain
  apply LinesText.setting (by decide) (Toml.writes_of_scalarText fun _ => .yes)
  apply LinesText.setting (by decide) (writes_writeString "pair")
  apply LinesText.setting (by decide) (writes_writeWord 1)
  apply LinesText.element (by decide)
  apply LinesText.setting (by decide) (writes_writeWord 4)
  apply LinesText.setting (by decide) (writes_writeString "left")
  apply LinesText.setting (by decide) (writes_writeWord 1)
  apply LinesText.element (by decide)
  apply LinesText.setting (by decide) (writes_writeString "b\tc")
  apply LinesText.setting (by decide) (writes_writeWord 0)
  apply LinesText.setting (by decide) (writes_writeString "right")
  exact .nil

theorem tabulates_further : Tabulates keys furtherSettings (tomlFields 1 (some "pair")) := by
  constructor
  · decide
  · exact .swap _ _ _

theorem isTabulatedBy_further : List.Forall₂ Member.IsTabulatedBy furtherMembers furtherTables := by
  constructor
  · constructor
    · decide
    · exact .swap _ _ _
  constructor
  · constructor
    · decide
    · exact (List.Perm.swap _ _ _).trans (.cons _ (.swap _ _ _))
  constructor

/-- A document with a dotted key that is not read, and with a table below that of a member. -/
def nestedText : String :=
  "log.level = 3\nself_rank = 1\n[[members]]\nchassis_id = \"left\"\nrank = 1\n[members.site]\n" ++
    "opened = 2024-05-01\n"

def nestedStatements : List Statement :=
  [.setting ["log", "level"] (.integer 3), .setting ["self_rank"] (.integer 1),
    .element ["members"], .setting ["chassis_id"] (.string "left"), .setting ["rank"] (.integer 1),
    .table ["members", "site"], .setting ["opened"] (.other .dateTime)]

theorem documentText_nested : DocumentText nestedText.toList nestedStatements := by
  have htext : nestedText.toList = writeSetting ["log", "level"] (writeWord 3) ++
      (writeSetting ["self_rank"] (writeWord 1) ++ (writeElement ["members"] ++
        (writeSetting ["chassis_id"] (writeString "left") ++ (writeSetting ["rank"] (writeWord 1) ++
          (writeTable ["members", "site"] ++
            (writeSetting ["opened"] "2024-05-01".toList ++ [])))))) := by
    decide
  have hdate : Toml.DateText "2024-05-01".toList :=
    @Toml.DateText.mk ['2', '0'] ['2', '4'] ['0', '5'] ['0', '1'] _ _ _ _ (.mk rfl rfl)
      (.mk rfl rfl) (.mk rfl rfl) (.mk rfl rfl) (by decide) (by decide)
  rw [htext]
  apply DocumentText.plain
  apply LinesText.setting (by decide) (writes_writeWord 3)
  apply LinesText.setting (by decide) (writes_writeWord 1)
  apply LinesText.element (by decide)
  apply LinesText.setting (by decide) (writes_writeString "left")
  apply LinesText.setting (by decide) (writes_writeWord 1)
  apply LinesText.table (by decide)
  apply LinesText.setting (by decide) (Toml.writes_of_scalarText fun _ => .dateTime (.date hdate))
  exact .nil

theorem describes_nested : Describes nestedStatements 1 none [⟨1, "left", none⟩] := by
  constructor
  · exact .refl _
  · exact .member (.swap _ _ _) (.nested (by decide) .nil)
  · decide

theorem ofText_document_further :
    (DocumentText furtherText.toList (tableStatements furtherSettings furtherTables) ∧
        Tabulates keys furtherSettings (tomlFields 1 (some "pair")) ∧
        List.Forall₂ Member.IsTabulatedBy furtherMembers furtherTables ∧
        ofText furtherText = .ok ⟨1, "pair", furtherMembers⟩) ∧
      DocumentText nestedText.toList nestedStatements ∧
        Describes nestedStatements 1 none [⟨1, "left", none⟩] ∧
        ofText nestedText = .ok ⟨1, "auto", [⟨1, "left", none⟩]⟩ := by
  obtain ⟨-, -, -, htables, hdescribed⟩ := ofText_document
  constructor
  · exact ⟨documentText_further, tabulates_further, isTabulatedBy_further,
      htables documentText_further tabulates_further isTabulatedBy_further⟩
  · exact ⟨documentText_nested, describes_nested, hdescribed documentText_nested describes_nested⟩

end Configuration

end MeshFormation
