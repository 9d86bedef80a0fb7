import MeshFormation.Toml.Reader

/-!
# TOML documents

The statements of a document are grouped into sections. Settings before the first header belong to
the document itself, and every header starts a section whose settings it collects. A document is
the table that results when all sections are put into place in order.
-/

namespace MeshFormation.Toml

/-- A key with its value. -/
abbrev Setting := List String × Value

/-- A header with the settings that follow it. The flag says whether it names a new element of an
array of tables. -/
structure Section where
  isElement : Bool
  path : List String
  settings : List Setting

/-- The settings before the first header, and the sections. -/
def groupStatements : List Statement → List Setting × List Section
  | [] => ([], [])
  | .setting path value :: rest =>
    let (settings, sections) := groupStatements rest
    ((path, value) :: settings, sections)
  | .table path :: rest =>
    let (settings, sections) := groupStatements rest
    ([], ⟨false, path, settings⟩ :: sections)
  | .element path :: rest =>
    let (settings, sections) := groupStatements rest
    ([], ⟨true, path, settings⟩ :: sections)

/-- Puts a section into place. A table must be new or only implied so far; an element must extend an
array of tables or be its first one. -/
def Section.addTo (entries : Entries) (part : Section) : Option Entries :=
  if part.isElement then
    match Entries.assignAll [] part.settings with
    | none => none
    | some element =>
      let change : Option Value → Option Value
        | none => some (.tables [element])
        | some (.tables elements) => some (.tables (elements ++ [element]))
        | some _ => none
      Entries.updateAt change part.path entries
  else
    let change : Option Value → Option Value
      | none => (Entries.assignAll [] part.settings).map (.table .header)
      | some (.table .implied sub) =>
        (Entries.assignAll sub part.settings).map (.table .header)
      | some _ => none
    Entries.updateAt change part.path entries

def ofStatements? (statements : List Statement) : Option Entries :=
  let (settings, sections) := groupStatements statements
  match Entries.assignAll [] settings with
  | none => none
  | some entries => sections.foldlM Section.addTo entries

/-- The table that a text stands for. A byte order mark at its start is ignored. -/
def read (text : List Char) : Option Entries :=
  let text :=
    match text with
    | '\ufeff' :: rest => rest
    | text => text
  (readStatements (text.length + 1) text).bind ofStatements?

end MeshFormation.Toml
