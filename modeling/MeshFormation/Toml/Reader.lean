import MeshFormation.Toml.Scalar
import MeshFormation.Toml.Text

/-!
# Reading TOML values and statements

A document is a list of statements, each on lines of its own: a key with its value, or a header
that names a table or a new element of an array of tables. This module reads a text into its
statements. What the statements mean together is told by the document.
-/

namespace MeshFormation.Toml

/-- The number of parts that a dotted key may have. -/
def pathLimit : Nat := 79

/-- The number of nested brackets and braces that a value may have. -/
def nestingLimit : Nat := 79

/-- The rest of a text behind white space, line breaks and comments. The flag says that a comment is
going on; it ends with its line. -/
def skipTrivia : Bool → List Char → Option (List Char)
  | _, [] => some []
  | _, '\n' :: rest => skipTrivia false rest
  | _, '\r' :: '\n' :: rest => skipTrivia false rest
  | true, c :: rest => if isPrintable c then skipTrivia true rest else none
  | false, '#' :: rest => skipTrivia true rest
  | false, c :: rest => if isBlank c then skipTrivia false rest else some (c :: rest)

/-! ## Values -/

/-- A key, an equals sign and a value, with the white space behind the value. -/
def readSetting (readItem : List Char → Option (Value × List Char)) (text : List Char) :
    Option ((List String × Value) × List Char) :=
  match readPath pathLimit text with
  | some (path, '=' :: rest) =>
    (readItem (skipBlank rest)).map fun (value, rest) => ((path, value), skipBlank rest)
  | _ => none

/-- The items of an array, behind its opening bracket. Line breaks and comments may stand anywhere
between them, and a comma may follow the last one. Each round of the loop reads an item, so the
length of the text bounds the number of rounds. -/
def readItems (readItem : List Char → Option (Value × List Char)) :
    Nat → List Char → Option (List Value × List Char)
  | 0, _ => none
  | rounds + 1, text =>
    match skipTrivia false text with
    | none => none
    | some (']' :: rest) => some ([], rest)
    | some text =>
      match readItem text with
      | none => none
      | some (item, rest) =>
        match skipTrivia false rest with
        | some (',' :: rest) =>
          (readItems readItem rounds rest).map fun (items, rest) => (item :: items, rest)
        | some (']' :: rest) => some ([item], rest)
        | _ => none

/-- The settings in a table in braces, at least one. All stand on one line, and no comma follows
the last one. -/
def readSettings (readItem : List Char → Option (Value × List Char)) :
    Nat → List Char → Option (List (List String × Value) × List Char)
  | 0, _ => none
  | rounds + 1, text =>
    match readSetting readItem text with
    | some (setting, ',' :: rest) =>
      (readSettings readItem rounds rest).map fun (settings, rest) => (setting :: settings, rest)
    | some (setting, '}' :: rest) => some ([setting], rest)
    | _ => none

/-- The table with the given settings, if each key is new. -/
def closedTable? (settings : List (List String × Value)) : Option Value :=
  (Entries.assignAll [] settings).map (.table .closed)

/-- A string, a boolean, a date or a number. -/
def readScalar : List Char → Option (Value × List Char)
  | 't' :: 'r' :: 'u' :: 'e' :: rest => some (.other .boolean, rest)
  | 'f' :: 'a' :: 'l' :: 's' :: 'e' :: rest => some (.other .boolean, rest)
  | text =>
    match readString text with
    | some (string, rest) => some (.string string, rest)
    | none =>
      match skipDateTime text with
      | some rest => some (.other .dateTime, rest)
      | none => readNumber text

/-- A value, and the rest behind it. Brackets and braces may be nested up to the given number of
levels. -/
def readValue : Nat → List Char → Option (Value × List Char)
  | 0, '[' :: _ => none
  | 0, '{' :: _ => none
  | levels + 1, '[' :: rest =>
    (readItems (readValue levels) (rest.length + 1) rest).map
      fun (items, rest) => (.array items, rest)
  | levels + 1, '{' :: rest =>
    match skipBlank rest with
    | '}' :: rest => some (.table .closed [], rest)
    | rest =>
      match readSettings (readValue levels) (rest.length + 1) rest with
      | none => none
      | some (settings, rest) => (closedTable? settings).map fun table => (table, rest)
  | _, text => readScalar text

/-! ## Statements -/

/-- One statement of a document. -/
inductive Statement where
  /-- A key gets a value. -/
  | setting (path : List String) (value : Value)
  /-- The settings that follow belong to a table. -/
  | table (path : List String)
  /-- The settings that follow belong to a new element of an array of tables. -/
  | element (path : List String)

/-- The rest behind the end of a line, on which only white space and a comment may stand. -/
def skipLineEnd (text : List Char) : Option (List Char) :=
  let rest :=
    match skipBlank text with
    | '#' :: rest => rest.dropWhile isPrintable
    | rest => rest
  match rest with
  | [] => some []
  | rest => lineBreak? rest

/-- A header or a setting, and the rest behind it on its line. -/
def readStatement : List Char → Option (Statement × List Char)
  | '[' :: '[' :: rest =>
    match readPath pathLimit rest with
    | some (path, ']' :: ']' :: rest) => some (.element path, rest)
    | _ => none
  | '[' :: rest =>
    match readPath pathLimit rest with
    | some (path, ']' :: rest) => some (.table path, rest)
    | _ => none
  | text =>
    (readSetting (readValue nestingLimit) text).map
      fun ((path, value), rest) => (.setting path value, rest)

/-- The statements of a text. Each round of the loop reads at least one line, so the length of the
text bounds the number of rounds. -/
def readStatements : Nat → List Char → Option (List Statement)
  | 0, _ => none
  | rounds + 1, text =>
    match skipBlank text with
    | [] => some []
    | '\n' :: rest => readStatements rounds rest
    | '\r' :: '\n' :: rest => readStatements rounds rest
    | '#' :: rest => (skipLineEnd ('#' :: rest)).bind (readStatements rounds)
    | text =>
      match readStatement text with
      | none => none
      | some (statement, rest) =>
        ((skipLineEnd rest).bind (readStatements rounds)).map (statement :: ·)

end MeshFormation.Toml
