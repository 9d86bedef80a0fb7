import MeshFormation.Configuration
import MeshFormation.Proofs.Toml.Tables

/-!
# Documents that describe a configuration

A document describes a configuration by its settings, whatever their order within a table, and
whatever other settings and tables it has. The other ones have to make sense by themselves: the
document without the settings that a configuration reads must still be one. What a document
describes is what is read from it.
-/

namespace MeshFormation

open Toml (Entries Section Setting Statement Value AgreeOff Carries isKnown plain)

/-! ## Fields -/

namespace Member

def keys : List String := ["rank", "chassis_id", "hostname"]

/-- The fields of the table of a member. -/
def tomlFields (member : Member) : List (String × Value) :=
  ("rank", .integer member.rank.toNat) :: ("chassis_id", .string member.chassis) ::
    member.hostname.toList.map fun hostname => ("hostname", .string hostname)

/-- The settings of a table are those of a member, in any order and between other ones. -/
def IsSetBy (member : Member) (settings : List Setting) : Prop :=
  (settings.filter (isKnown keys)).Perm (member.tomlFields.map plain)

end Member

namespace Configuration

def keys : List String := ["self_rank", "profile", "members"]

/-- The fields of a document outside of the tables of its members. The profile may be missing. -/
def tomlFields (localRank : Rank) (profileName : Option String) : List (String × Value) :=
  ("self_rank", .integer localRank.toNat) ::
    profileName.toList.map fun name => ("profile", .string name)

/-- The sections of a document are the tables of the members, in order, and tables of unknown keys.
A table below that of a member can only follow one. -/
inductive Sections : Bool → List Section → List Member → Prop where
  | nil {seen : Bool} : Sections seen [] []
  | member {seen : Bool} {settings : List Setting} {parts : List Section} {member : Member}
      {members : List Member} (set : member.IsSetBy settings)
      (others : Sections true parts members) :
      Sections seen (⟨true, ["members"], settings⟩ :: parts) (member :: members)
  | foreign {seen isElement : Bool} {key : String} {path : List String} {settings : List Setting}
      {parts : List Section} {members : List Member} (unknown : key ∉ keys)
      (others : Sections seen parts members) :
      Sections seen (⟨isElement, key :: path, settings⟩ :: parts) members
  | nested {isElement : Bool} {key : String} {path : List String} {settings : List Setting}
      {parts : List Section} {members : List Member} (unknown : key ∉ Member.keys)
      (others : Sections true parts members) :
      Sections true (⟨isElement, "members" :: key :: path, settings⟩ :: parts) members

/-- The statements without the settings of known keys, which are others below a member than before
the first header. -/
def strip : List String → List Statement → List Statement
  | _, [] => []
  | known, .setting path value :: rest =>
    if isKnown known (path, value) then strip known rest
    else .setting path value :: strip known rest
  | _, .table path :: rest => .table path :: strip [] rest
  | _, .element path :: rest =>
    .element path :: strip (if path = ["members"] then Member.keys else []) rest

/-- The statements of a document describe a configuration. -/
structure Describes (statements : List Statement) (localRank : Rank) (profileName : Option String)
    (members : List Member) : Prop where
  settings : ((Toml.groupStatements statements).1.filter (isKnown keys)).Perm
    ((tomlFields localRank profileName).map plain)
  sections : Sections false (Toml.groupStatements statements).2 members
  others : (Toml.ofStatements? (strip keys statements)).isSome = true

end Configuration

/-! ## Reading fields -/

namespace Toml

theorem Value.word?_integer (word : UInt32) : (Value.integer word.toNat).word? = some word := by
  have hlt : (word.toNat : Int) < UInt32.size := by
    have := word.toNat_lt
    simp only [UInt32.size]
    omega
  rw [Value.word?, if_pos ⟨Int.natCast_nonneg _, hlt⟩, Int.toNat_natCast, UInt32.ofNat_toNat]

theorem Value.optionalText?_map (text : Option String) :
    Value.optionalText? (text.map .string) = some text := by
  cases text <;> rfl

/-- A field that may be missing is found if it is there. -/
theorem Carries.find?_map {known : List String} {entries : Entries} {fields : List (String × Value)}
    {key : String} {text : Option String} (h : Carries known entries fields) (hkey : key ∈ known)
    (hfields : ∀ value,
      (key, value) ∈ fields ↔ ∃ string, text = some string ∧ value = .string string) :
    Entries.find? entries key = text.map .string := by
  cases text with
  | none =>
    rw [Option.map_none, Option.eq_none_iff_forall_ne_some]
    intro value hvalue
    obtain ⟨string, hstring, -⟩ := (hfields value).1 ((h key hkey value).1 hvalue)
    exact absurd hstring (by simp)
  | some string => exact (h key hkey _).2 ((hfields _).2 ⟨string, rfl, rfl⟩)

end Toml

theorem Member.nodup_tomlFields (member : Member) : (member.tomlFields.map (·.1)).Nodup := by
  obtain ⟨rank, chassis, hostname⟩ := member
  cases hostname <;> simp [tomlFields]

theorem Member.ofEntries?_eq {member : Member} {entries : Entries}
    (h : Carries keys entries member.tomlFields) : ofEntries? entries = some member := by
  have hrank : Entries.find? entries "rank" = some (.integer member.rank.toNat) :=
    (h "rank" (by decide) _).2 (by simp [tomlFields])
  have hchassis : Entries.find? entries "chassis_id" = some (.string member.chassis) :=
    (h "chassis_id" (by decide) _).2 (by simp [tomlFields])
  have hhostname : Entries.find? entries "hostname" = member.hostname.map .string :=
    h.find?_map (by decide) (by simp [tomlFields, eq_comm])
  rw [ofEntries?, hrank, hchassis, hhostname, Toml.Value.optionalText?_map, Option.bind_some,
    Option.bind_some, Toml.Value.word?_integer]
  rfl

namespace Configuration

theorem nodup_tomlFields (localRank : Rank) (profileName : Option String) :
    ((tomlFields localRank profileName).map (·.1)).Nodup := by
  cases profileName <;> simp [tomlFields]

/-! ## The tables of the members -/

/-- The settings of a section that are not settings of a member. -/
def stripSection (part : Section) : Section :=
  let known := if part.isElement = true ∧ part.path = ["members"] then Member.keys else []
  { part with settings := part.settings.filter (!isKnown known ·) }

theorem isKnown_nil (setting : Setting) : isKnown [] setting = false := by
  rw [isKnown]
  cases setting.1.head? <;> rfl

theorem stripSection_eq {part : Section} (h : part.path ≠ ["members"]) :
    stripSection part = part := by
  have hno : ¬(part.isElement = true ∧ part.path = ["members"]) := fun hboth => h hboth.2
  have hall : part.settings.filter (!isKnown [] ·) = part.settings :=
    List.filter_eq_self.2 fun setting _ => by rw [isKnown_nil, Bool.not_false]
  simp only [stripSection, if_neg hno, hall]

theorem stripSection_member (settings : List Setting) :
    stripSection ⟨true, ["members"], settings⟩ =
      ⟨true, ["members"], settings.filter (!isKnown Member.keys ·)⟩ := by
  simp [stripSection]

theorem groupStatements_strip (known : List String) (statements : List Statement) :
    Toml.groupStatements (strip known statements) =
      ((Toml.groupStatements statements).1.filter (!isKnown known ·),
        (Toml.groupStatements statements).2.map stripSection) := by
  fun_induction strip known statements with
  | case1 => rfl
  | case2 known path value rest hknown ih =>
    rw [ih, Toml.groupStatements, List.filter_cons_of_neg (by simp [hknown])]
  | case3 known path value rest hknown ih =>
    rw [Toml.groupStatements, ih, Toml.groupStatements, List.filter_cons_of_pos (by simp [hknown])]
  | case4 known path rest ih =>
    rw [Toml.groupStatements, ih, Toml.groupStatements]
    simp [stripSection]
  | case5 known path rest ih =>
    rw [Toml.groupStatements, ih, Toml.groupStatements]
    simp [stripSection]

/-- The table of a member beside what is left of it without the settings of the member. -/
structure MemberTable where
  member : Member
  entries : Entries
  others : Entries
  carries : Carries Member.keys entries member.tomlFields
  agree : AgreeOff Member.keys entries others

/-- The value of the key of the members, once there are tables of members. -/
def filed (tables : List Entries) : Option Value :=
  if tables.isEmpty then none else some (.tables tables)

/-- A document with some tables of members, beside what is left of it without the known settings. -/
structure Filed (tables : List MemberTable) (entries others : Entries) : Prop where
  agree : AgreeOff keys entries others
  entries : Entries.find? entries "members" = filed (tables.map (·.entries))
  others : Entries.find? others "members" = filed (tables.map (·.others))

variable {tables : List MemberTable} {entries others after : Entries} {parts : List Section}
  {members : List Member} {settings : List Setting} {path : List String} {key : String}

theorem addTo_member {element : Entries} (h : Entries.assignAll [] settings = some element)
    {filedTables : List Entries} (hfiled : Entries.find? entries "members" = filed filedTables) :
    Section.addTo entries ⟨true, ["members"], settings⟩ =
      some (Entries.put entries "members" (.tables (filedTables ++ [element]))) := by
  simp only [Section.addTo, if_true, h, Entries.updateAt, hfiled, filed]
  cases filedTables <;> rfl

theorem find?_put_members (entries : Entries) (filedTables : List Entries) (element : Entries) :
    Entries.find? (Entries.put entries "members" (.tables (filedTables ++ [element]))) "members" =
      filed (filedTables ++ [element]) := by
  rw [Entries.find?_put_self]
  simp [filed]

/-- The tables of members are put into place beside what is left of them. -/
theorem filed_put (hagree : AgreeOff keys entries others) (tables : List MemberTable)
    (table : MemberTable) :
    Filed (tables ++ [table])
      (Entries.put entries "members" (.tables (tables.map (·.entries) ++ [table.entries])))
      (Entries.put others "members" (.tables (tables.map (·.others) ++ [table.others]))) := by
  constructor
  · intro key hkey
    have hne : key ≠ "members" := by
      rintro rfl
      exact hkey (by decide)
    rw [Entries.find?_put_ne _ _ hne, Entries.find?_put_ne _ _ hne, hagree key hkey]
  · rw [find?_put_members, List.map_append, List.map_singleton]
  · rw [find?_put_members, List.map_append, List.map_singleton]

/-- The table of a member is filed behind those before. -/
theorem Filed.member {member : Member} (h : Filed tables entries others)
    (set : member.IsSetBy settings)
    (hafter : Section.addTo others (stripSection ⟨true, ["members"], settings⟩) = some after) :
    ∃ table next, Section.addTo entries ⟨true, ["members"], settings⟩ = some next ∧
      table.member = member ∧ Filed (tables ++ [table]) next after ∧
        ∀ key, key ≠ "members" → Entries.find? next key = Entries.find? entries key := by
  rw [stripSection_member] at hafter
  cases hrest : Entries.assignAll [] (settings.filter (!isKnown Member.keys ·)) with
  | none => exact absurd hafter (by simp [Section.addTo, hrest])
  | some rest =>
    obtain ⟨element, helement, hagree, hcarries⟩ :=
      Toml.exists_assignAll_of_perm set member.nodup_tomlFields hrest
    rw [addTo_member hrest h.others] at hafter
    obtain rfl := Option.some.inj hafter
    exact ⟨⟨member, element, rest, hcarries, hagree⟩, _, addTo_member helement h.entries, rfl,
      filed_put h.agree tables _, fun key hkey => Entries.find?_put_ne _ _ hkey⟩

/-- A section of an unknown key does not touch the members. -/
theorem Filed.foreign {part : Section} (h : Filed tables entries others)
    (hpath : part.path = key :: path) (hkey : key ∉ keys)
    (hafter : Section.addTo others (stripSection part) = some after) :
    ∃ next, Section.addTo entries part = some next ∧ Filed tables next after ∧
      ∀ key ∈ keys, Entries.find? next key = Entries.find? entries key := by
  have hlocal := Toml.local_addTo hpath
  have hne : "members" ≠ key := by
    rintro rfl
    exact hkey (by decide)
  have hstrip : stripSection part = part := by
    apply stripSection_eq
    rw [hpath]
    rintro heq
    exact hne (List.cons.inj heq).1.symm
  rw [hstrip] at hafter
  obtain ⟨next, hnext, hagree, hkept⟩ := hlocal.agreeOff hkey h.agree hafter
  refine ⟨next, hnext, ⟨hagree, ?_, ?_⟩, hkept⟩
  · rw [hkept _ (by decide), h.entries]
  · rw [hlocal.find?_eq hafter hne, h.others]

theorem updateAt_filed {change : Option Value → Option Value} {filedTables : List Entries}
    {last : Entries} (h : Entries.find? entries "members" = filed (filedTables ++ [last])) :
    Entries.updateAt change ("members" :: key :: path) entries =
      (Entries.updateAt change (key :: path) last).map fun changed =>
        Entries.put entries "members" (.tables (filedTables ++ [changed])) := by
  have hfiled : filed (filedTables ++ [last]) = some (.tables (filedTables ++ [last])) := by
    simp [filed]
  rw [hfiled] at h
  simp [Entries.updateAt, h]

/-- A section below the table of a member leaves the settings of the member as they are. -/
theorem Filed.nested {part : Section} {table : MemberTable}
    (h : Filed (tables ++ [table]) entries others) (hpath : part.path = "members" :: key :: path)
    (hkey : key ∉ Member.keys) (hafter : Section.addTo others (stripSection part) = some after) :
    ∃ changed next, Section.addTo entries part = some next ∧ changed.member = table.member ∧
      Filed (tables ++ [changed]) next after ∧
        ∀ key, key ≠ "members" → Entries.find? next key = Entries.find? entries key := by
  have hstrip : stripSection part = part := by
    apply stripSection_eq
    rw [hpath]
    simp
  have hentries := h.entries
  have hothers := h.others
  rw [List.map_append, List.map_singleton] at hentries hothers
  rw [hstrip] at hafter
  rcases Toml.addTo_cases part with hnone | ⟨change, hchange⟩
  · exact absurd ((hnone others).symm.trans hafter) (by simp)
  rw [hchange, hpath, updateAt_filed hothers] at hafter
  obtain ⟨rest, hrest, rfl⟩ := Option.map_eq_some_iff.1 hafter
  obtain ⟨element, helement, hagree, hkept⟩ :=
    (Toml.local_updateAt change key path).agreeOff hkey table.agree hrest
  have hcarries : Carries Member.keys element table.member.tomlFields := fun name hname value => by
    rw [hkept name hname, table.carries name hname value]
  refine ⟨⟨table.member, element, rest, hcarries, hagree⟩,
    Entries.put entries "members" (.tables (tables.map (·.entries) ++ [element])), ?_, rfl,
    filed_put h.agree tables _, fun key hkey => Entries.find?_put_ne _ _ hkey⟩
  rw [hchange, hpath, updateAt_filed hentries, helement]
  rfl

theorem foldlM_addTo_cons {part : Section} {first next : Entries}
    (hfirst : Section.addTo entries part = some first)
    (hnext : parts.foldlM Section.addTo first = some next) :
    (part :: parts).foldlM Section.addTo entries = some next := by
  rw [List.foldlM_cons, hfirst]
  exact hnext

theorem exists_addTo_of_foldlM {part : Section}
    (h : ((part :: parts).map stripSection).foldlM Section.addTo entries = some after) :
    ∃ behind, Section.addTo entries (stripSection part) = some behind ∧
      (parts.map stripSection).foldlM Section.addTo behind = some after := by
  rw [List.map_cons, List.foldlM_cons] at h
  exact Option.bind_eq_some_iff.1 h

/-- The sections of a document file the tables of its members, in order. -/
theorem Sections.filed {seen : Bool} (h : Sections seen parts members)
    (hfiled : Filed tables entries others) (hseen : seen = true → tables ≠ [])
    (hafter : (parts.map stripSection).foldlM Section.addTo others = some after) :
    ∃ more next, parts.foldlM Section.addTo entries = some next ∧
      more.map (·.member) = tables.map (·.member) ++ members ∧ Filed more next after ∧
        ∀ key ∈ keys, key ≠ "members" → Entries.find? next key = Entries.find? entries key := by
  induction h generalizing tables entries others with
  | nil =>
    obtain rfl := Option.some.inj hafter
    exact ⟨tables, entries, rfl, (List.append_nil _).symm, hfiled, fun _ _ _ => rfl⟩
  | member set others ih =>
    obtain ⟨behind, hbehind, hafter⟩ := exists_addTo_of_foldlM hafter
    obtain ⟨table, first, hfirst, rfl, hfiled, hkept⟩ := hfiled.member set hbehind
    obtain ⟨more, next, hnext, hmembers, hmore, hlater⟩ := ih hfiled (by simp) hafter
    refine ⟨more, next, foldlM_addTo_cons hfirst hnext, by simp [hmembers], hmore, ?_⟩
    intro key hkey hne
    rw [hlater key hkey hne, hkept key hne]
  | foreign unknown others ih =>
    obtain ⟨behind, hbehind, hafter⟩ := exists_addTo_of_foldlM hafter
    obtain ⟨first, hfirst, hfiled, hkept⟩ := hfiled.foreign rfl unknown hbehind
    obtain ⟨more, next, hnext, hmembers, hmore, hlater⟩ := ih hfiled hseen hafter
    refine ⟨more, next, foldlM_addTo_cons hfirst hnext, hmembers, hmore, ?_⟩
    intro key hkey hne
    rw [hlater key hkey hne, hkept key hkey]
  | nested unknown others ih =>
    -- A table of a member stands before, and the section goes below the last one.
    obtain ⟨before, table, rfl⟩ := (List.eq_nil_or_concat tables).resolve_left (hseen rfl)
    rw [List.concat_eq_append] at hfiled ⊢
    obtain ⟨behind, hbehind, hafter⟩ := exists_addTo_of_foldlM hafter
    obtain ⟨changed, first, hfirst, hmember, hfiled, hkept⟩ := hfiled.nested rfl unknown hbehind
    obtain ⟨more, next, hnext, hmembers, hmore, hlater⟩ := ih hfiled (by simp) hafter
    refine ⟨more, next, foldlM_addTo_cons hfirst hnext, by simp [hmembers, hmember], hmore, ?_⟩
    intro key hkey hne
    rw [hlater key hkey hne, hkept key hne]

theorem listOfToml?_filed (tables : List MemberTable) :
    Member.listOfToml? (filed (tables.map (·.entries))) = some (tables.map (·.member)) := by
  have hall : (tables.map (·.entries)).mapM Member.ofEntries? = some (tables.map (·.member)) := by
    induction tables with
    | nil => rfl
    | cons table tables ih =>
      rw [List.map_cons, List.mapM_cons, Member.ofEntries?_eq table.carries, ih]
      rfl
  cases tables with
  | nil => rfl
  | cons table tables => exact hall

/-- What a document describes is what is read from its statements. -/
theorem Describes.ofEntries?_eq {statements : List Statement} {localRank : Rank}
    {profileName : Option String} (h : Describes statements localRank profileName members) :
    (Toml.ofStatements? statements).bind ofEntries? =
      some ⟨localRank, profileName.getD defaultProfileName, members⟩ := by
  obtain ⟨rest, hrest⟩ := Option.isSome_iff_exists.1 h.others
  simp only [Toml.ofStatements?, groupStatements_strip] at hrest
  split at hrest
  · exact absurd hrest (by simp)
  rename_i others hothers
  obtain ⟨entries, hentries, hagree, hcarries⟩ :=
    Toml.exists_assignAll_of_perm h.settings (nodup_tomlFields localRank profileName) hothers
  have hmembers : Entries.find? entries "members" = none := by
    rw [Option.eq_none_iff_forall_ne_some]
    intro value hvalue
    have hfield := (hcarries "members" (by decide) value).1 hvalue
    simp [tomlFields] at hfield
  have hstart : Filed [] entries others :=
    ⟨hagree, hmembers, Toml.find?_assignAll_unknown hothers (by decide)⟩
  obtain ⟨tables, next, hnext, htables, hfiled, hkept⟩ := h.sections.filed hstart (by simp) hrest
  have hrank : Entries.find? next "self_rank" = some (.integer localRank.toNat) := by
    rw [hkept _ (by decide) (by decide)]
    exact (hcarries _ (by decide) _).2 (by simp [tomlFields])
  have hprofile : Entries.find? next "profile" = profileName.map .string := by
    rw [hkept _ (by decide) (by decide)]
    exact hcarries.find?_map (by decide) (by simp [tomlFields, eq_comm])
  have hread : Toml.ofStatements? statements = some next := by
    rw [Toml.ofStatements?]
    simp only [hentries]
    exact hnext
  rw [hread, Option.bind_some, ofEntries?, hrank, hprofile, hfiled.entries,
    listOfToml?_filed, htables, Toml.Value.optionalText?_map, Option.bind_some,
    Toml.Value.word?_integer]
  rfl

end Configuration

end MeshFormation
