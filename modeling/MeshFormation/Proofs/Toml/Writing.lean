import MeshFormation.Proofs.Json.RoundTrip
import MeshFormation.Proofs.Toml.Documents

/-!
# Writing settings

A way to write strings, words and settings, each setting on a line of its own, that belongs to the
grammar. Strings are written in double quotes, with an escape for each character that must not stand
there.
-/

namespace MeshFormation.Toml

variable {c : Char} {text rest chars literal : List Char} {statements : List Statement}
  {value : Value} {path : List String}

/-! ## Strings -/

/-- A character in a string in double quotes. -/
def writeChar : Char → List Char
  | '"' => ['\\', '"']
  | '\\' => ['\\', '\\']
  | '\x08' => ['\\', 'b']
  | '\t' => ['\\', 't']
  | '\n' => ['\\', 'n']
  | '\x0c' => ['\\', 'f']
  | '\r' => ['\\', 'r']
  | c => if isPrintable c then [c] else ['\\', 'u', '0', '0'] ++ Hexadecimal.twoDigits c.toNat

def writeString (text : String) : List Char := '"' :: (text.toList.flatMap writeChar ++ ['"'])

theorem toNat_lt_of_not_printable (h : isPrintable c = false) : c.toNat < 256 := by
  simp only [isPrintable, Bool.or_eq_false_iff, Bool.and_eq_false_iff, decide_eq_false_iff_not,
    bne_eq_false_iff_eq] at h
  rcases h.2 with hcontrol | rfl
  · exact Nat.lt_trans (Json.toNat_lt_of_lt_space (Char.not_le.1 hcontrol)) (by decide)
  · decide

theorem codeEscape?_twoDigits (h : c.toNat < 256) :
    codeEscape? (['0', '0'] ++ Hexadecimal.twoDigits c.toNat) = some c := by
  have hvalid : c.toNat.isValidChar := c.valid
  rw [codeEscape?, Json.ofDigits?_twoDigits h, Option.bind_some, Hexadecimal.scalar?, if_pos hvalid,
    Char.ofNat_toNat]

theorem BasicText.writeChar (h : BasicText text chars rest) :
    BasicText (Toml.writeChar c ++ text) (c :: chars) rest := by
  unfold Toml.writeChar
  split
  iterate 7
    · exact .escape (.letter rfl) h
  rename_i hquote hslash _ _ _ _ _
  split
  · rename_i hprintable
    exact .char hquote hslash hprintable h
  · rename_i hprintable
    have hcode := codeEscape?_twoDigits (toNat_lt_of_not_printable (Bool.eq_false_iff.2 hprintable))
    exact .escape (.short hcode) h

theorem stringText_writeString (text : String) (rest : List Char) :
    StringText (writeString text ++ rest) text rest := by
  have hbasic : ∀ chars : List Char,
      BasicText (chars.flatMap writeChar ++ '"' :: rest) chars rest := by
    intro chars
    induction chars with
    | nil => exact .close
    | cons c chars ih =>
      rw [List.flatMap_cons, List.append_assoc]
      exact ih.writeChar
  have hstring := StringText.basic (hbasic text.toList)
  rw [String.ofList_toList] at hstring
  simpa [writeString] using hstring

/-! ## Words -/

theorem wholeText_toDigits (number : Nat) :
    WholeText (Nat.toDigits 10 number) (Nat.toDigits 10 number) := by
  have hall : ∀ c ∈ Nat.toDigits 10 number, c.isDigit = true := fun c hc =>
    Nat.isDigit_of_mem_toDigits (by decide) (by decide) hc
  obtain ⟨first, others, hdigits⟩ :=
    List.exists_cons_of_ne_nil (Nat.toDigits_ne_nil (n := number) (b := 10))
  have hself := digitsText_self Nat.toDigits_ne_nil hall
  rw [hdigits] at hself ⊢
  by_cases hzero : first = '0'
  · subst hzero
    rw [Json.toDigits_ten_eq_zero_cons hdigits]
    exact .zero
  · exact .digits hzero hself

/-- A word in decimal digits. -/
def writeWord (word : UInt32) : List Char := Nat.toDigits 10 word.toNat

theorem numberText_writeWord (word : UInt32) :
    NumberText (writeWord word) (.integer word.toNat) := by
  have hvalue : signed false (Nat.ofDigitChars 10 (Nat.toDigits 10 word.toNat) 0) = word.toNat := by
    rw [Nat.ofDigitChars_ten_toDigits]
    rfl
  have hword : IsWord (word.toNat : Int) := by
    have hlt := word.toNat_lt
    have hmin : Int64.minValue.toInt = -9223372036854775808 := by decide
    have hmax : Int64.maxValue.toInt = 9223372036854775807 := by decide
    rw [IsWord, hmin, hmax]
    omega
  have htext := NumberText.integer .none (wholeText_toDigits word.toNat) (hvalue ▸ hword)
  rwa [hvalue] at htext

/-! ## Paths of bare keys -/

/-- Whether a key needs no quotes. -/
def IsBareKey (key : String) : Prop := key.toList ≠ [] ∧ key.toList.all isBare = true

instance (key : String) : Decidable (IsBareKey key) := inferInstanceAs (Decidable (_ ∧ _))

theorem IsBareKey.keyText {key : String} (h : IsBareKey key) (rest : List Char) :
    KeyText (key.toList ++ rest) key rest := by
  have hkey : KeyText (key.toList ++ rest) (String.ofList key.toList) rest :=
    .bare h.1 (List.all_eq_true.1 h.2)
  rwa [String.ofList_toList] at hkey

/-- Whether a path consists of bare keys and is not too long. -/
def IsBarePath (path : List String) : Prop :=
  path ≠ [] ∧ path.length ≤ pathLimit ∧ ∀ key ∈ path, IsBareKey key

instance (path : List String) : Decidable (IsBarePath path) :=
  inferInstanceAs (Decidable (_ ∧ _ ∧ _))

/-- Keys with dots between them. -/
def writePath : List String → List Char
  | [] => []
  | [key] => key.toList
  | key :: path => key.toList ++ '.' :: writePath path

theorem IsBarePath.pathText {after : List Char} (h : IsBarePath path)
    (hblanks : Blanks after rest) : PathText (writePath path ++ after) path rest := by
  obtain ⟨hne, -, hbare⟩ := h
  induction path with
  | nil => exact absurd rfl hne
  | cons key path ih =>
    have hkey := hbare key List.mem_cons_self
    cases path with
    | nil => exact .last (hkey.keyText after) hblanks
    | cons next path =>
      have hothers := ih (List.cons_ne_nil _ _) fun other hother =>
        hbare other (List.mem_cons_of_mem _ hother)
      rw [writePath, List.append_assoc]
      · exact .more (hkey.keyText _) .none .none hothers
      · exact List.cons_ne_nil _ _

/-! ## Lines -/

/-- Whether a text is a value wherever a line ends behind it. -/
def Writes (literal : List Char) (value : Value) : Prop :=
  ∀ rest, ValueText nestingLimit (literal ++ '\n' :: rest) value ('\n' :: rest)

theorem writes_of_scalarText (h : ∀ rest, ScalarText (literal ++ rest) value rest) :
    Writes literal value :=
  fun rest => .inl (h ('\n' :: rest))

theorem writes_writeString (text : String) : Writes (writeString text) (.string text) :=
  writes_of_scalarText fun rest => .string (stringText_writeString text rest)

theorem writes_writeWord (word : UInt32) : Writes (writeWord word) (.integer word.toNat) :=
  writes_of_scalarText fun _ => .number (numberText_writeWord word)

/-- A setting on a line of its own. -/
def writeSetting (path : List String) (literal : List Char) : List Char :=
  writePath path ++ ' ' :: '=' :: ' ' :: (literal ++ ['\n'])

/-- The header of a table, on a line of its own. -/
def writeTable (path : List String) : List Char := '[' :: (writePath path ++ [']', '\n'])

/-- The header of an element of an array of tables, on a line of its own. -/
def writeElement (path : List String) : List Char :=
  '[' :: '[' :: (writePath path ++ [']', ']', '\n'])

namespace LinesText

theorem setting (hpath : IsBarePath path) (hliteral : Writes literal value)
    (others : LinesText text statements) :
    LinesText (writeSetting path literal ++ text) (.setting path value :: statements) := by
  have hkeys : PathText (writePath path ++ ' ' :: '=' :: ' ' :: (literal ++ '\n' :: text)) path _ :=
    hpath.pathText (.more rfl .none)
  have hsetting := SettingText.mk hkeys hpath.2.1 (.more rfl .none) (hliteral text) .none
  have hlines := LinesText.statement .none (.setting hsetting) (.line .none .feed) others
  simpa [writeSetting] using hlines

theorem table (hpath : IsBarePath path) (others : LinesText text statements) :
    LinesText (writeTable path ++ text) (.table path :: statements) := by
  have hkeys : PathText (writePath path ++ ']' :: '\n' :: text) path _ := hpath.pathText .none
  have hlines := LinesText.statement .none (.table .none hkeys hpath.2.1) (.line .none .feed) others
  simpa [writeTable] using hlines

theorem element (hpath : IsBarePath path) (others : LinesText text statements) :
    LinesText (writeElement path ++ text) (.element path :: statements) := by
  have hkeys : PathText (writePath path ++ ']' :: ']' :: '\n' :: text) path _ :=
    hpath.pathText .none
  have hlines := LinesText.statement .none (.element .none hkeys hpath.2.1)
    (.line .none .feed) others
  simpa [writeElement] using hlines

end LinesText

end MeshFormation.Toml
