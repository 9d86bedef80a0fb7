import MeshFormation.Json.Object
import MeshFormation.Json.Reader
import MeshFormation.Json.Writer
import Mathlib.Tactic.Set

/-!
# Reading what was written

String literals, words and flat objects are read back as they were written, in front of any text
that cannot continue them. A string is read through the pieces of its literal, a word through its
decimal digits, and an object member by member.
-/

namespace MeshFormation.Json

/-! ## String literals -/

/-- The piece that an escaped character is read as. -/
def writtenPiece (c : Char) : Piece :=
  if c < ' ' ∧ c ∉ ['\x08', '\t', '\n', '\x0c', '\r'] then .unit c.toNat else .char c

theorem toNat_lt_of_lt_space {c : Char} (h : c < ' ') : c.toNat < 32 := by
  simpa [Char.lt_def, UInt32.lt_iff_toNat_lt] using h

theorem digit?_digitChar_all :
    ∀ value : Fin 16, Hexadecimal.digit? (Nat.digitChar value) = some value.1 := by decide

/-- The four digits of a numeric escape stand for the code of the escaped character. -/
theorem ofDigits?_twoDigits {value : Nat} (h : value < 256) :
    Hexadecimal.ofDigits? (['0', '0'] ++ Hexadecimal.twoDigits value) = some value := by
  have hzero : Hexadecimal.digit? '0' = some 0 := by decide
  have hhigh := digit?_digitChar_all ⟨value / 16, by omega⟩
  have hlow := digit?_digitChar_all ⟨value % 16, by omega⟩
  simp only at hhigh hlow
  simp only [Hexadecimal.ofDigits?, Hexadecimal.twoDigits, List.cons_append, List.nil_append,
    List.foldlM_cons, List.foldlM_nil, hzero, hhigh, hlow, Option.map_some, Option.pure_def,
    Option.bind_eq_bind, Option.bind_some]
  congr 1
  omega

theorem readPieces_shortEscape {letter c : Char} (h : shortEscape? letter = some c)
    (text : List Char) :
    readPieces ('\\' :: letter :: text) =
      (readPieces text).map fun read => (.char c :: read.1, read.2) := by
  rw [readPieces]
  · rw [h]
    cases readPieces text <;> rfl
  · rintro a b c' d rest rfl
    simp [shortEscape?] at h

theorem readPieces_escape (c : Char) (text : List Char) :
    readPieces (escape c ++ text) =
      (readPieces text).map fun read => (writtenPiece c :: read.1, read.2) := by
  unfold escape
  split
  iterate 7
    · rw [show writtenPiece _ = .char _ from rfl]
      exact readPieces_shortEscape rfl text
  rename_i hquote hslash hback htab hline hfeed hreturn
  split
  · rename_i hlt
    have hcode := toNat_lt_of_lt_space hlt
    have hunit := ofDigits?_twoDigits (show c.toNat < 256 by omega)
    have hpiece : writtenPiece c = .unit c.toNat := by
      rw [writtenPiece, if_pos]
      simp_all
    simp only [Hexadecimal.twoDigits, List.cons_append, List.nil_append] at hunit ⊢
    rw [readPieces, hunit, hpiece]
    cases readPieces text <;> rfl
  · rename_i hlt
    have hpiece : writtenPiece c = .char c := if_neg fun h => hlt h.1
    rw [List.cons_append, List.nil_append, readPieces, if_neg hlt, hpiece]
    · cases readPieces text <;> rfl
    · exact hquote
    · rintro a b c' d rest rfl
      exact fun _ => hslash rfl
    · rintro letter rest rfl
      exact fun _ => hslash rfl

theorem readPieces_flatMap_escape (chars rest : List Char) :
    readPieces (chars.flatMap escape ++ '"' :: rest) = some (chars.map writtenPiece, rest) := by
  induction chars with
  | nil => rfl
  | cons c chars ih => rw [List.flatMap_cons, List.append_assoc, readPieces_escape, ih]; rfl

theorem decodePieces_map_writtenPiece (chars : List Char) :
    decodePieces (chars.map writtenPiece) = some chars := by
  induction chars with
  | nil => rfl
  | cons c chars ih =>
    rw [List.map_cons, writtenPiece]
    split
    · rename_i h
      have hcode := toNat_lt_of_lt_space h.1
      have hhigh : isHighSurrogate c.toNat = false := by simp [isHighSurrogate]; omega
      have hlow : isLowSurrogate c.toNat = false := by simp [isLowSurrogate]; omega
      rw [decodePieces.eq_def]
      simp [hhigh, hlow, ih]
    · rw [decodePieces, ih]
      rfl

/-- A string literal is read back as its text. -/
theorem readText_writeString (text : String) (rest : List Char) :
    readText (text.toList.flatMap escape ++ '"' :: rest) = some (some text, rest) := by
  simp [readText, readPieces_flatMap_escape, decodePieces_map_writtenPiece]

/-! ## Scalars in front of a separator -/

/-- A text is read as a value wherever a separator of an object follows it. -/
def ReadsAs (levels : Nat) (text : List Char) (value : Value) : Prop :=
  ∀ separator rest, separator = ',' ∨ separator = '}' →
    readValue levels (text ++ separator :: rest) = some (value, separator :: rest)

theorem readsAs_writeString (levels : Nat) (text : String) :
    ReadsAs levels (writeString text) (.string (some text)) := by
  intro separator rest _
  have hscalar : readScalar (writeString text ++ separator :: rest) =
      some (.string (some text), separator :: rest) := by
    rw [writeString, List.cons_append, List.append_assoc, List.singleton_append, readScalar,
      readText_writeString]
    rfl
  cases levels <;> exact hscalar

def wordNumber (word : UInt32) : Number := ⟨false, Nat.toDigits 10 word.toNat, none, none⟩

theorem readDigits_toDigits (value : Nat) {separator : Char} (rest : List Char)
    (h : separator = ',' ∨ separator = '}') :
    readDigits (Nat.toDigits 10 value ++ separator :: rest) =
      some (Nat.toDigits 10 value, separator :: rest) := by
  have hall : ∀ c ∈ Nat.toDigits 10 value, c.isDigit = true := fun c hc =>
    Nat.isDigit_of_mem_toDigits (by decide) (by decide) hc
  have hseparator : separator.isDigit = false := by rcases h with rfl | rfl <;> rfl
  rw [readDigits, List.takeWhile_append_of_pos hall, List.dropWhile_append_of_pos hall]
  simp [hseparator, Nat.toDigits_ne_nil]

/-- The digits of a number start with a zero only if that is all. -/
theorem toDigits_ten_eq_zero_cons {value : Nat} {rest : List Char}
    (h : Nat.toDigits 10 value = '0' :: rest) : rest = [] := by
  induction value using Nat.strongRecOn generalizing rest with
  | ind value ih =>
    rw [Nat.toDigits_eq_if (by decide)] at h
    split at h
    · exact (List.cons.inj h).2.symm
    · rename_i hlt
      obtain ⟨c, tail, hhead⟩ := List.exists_cons_of_ne_nil
        (Nat.toDigits_ne_nil (n := value / 10) (b := 10))
      rw [hhead, List.cons_append] at h
      obtain ⟨rfl, -⟩ := List.cons.inj h
      have htail := ih (value / 10) (by omega) hhead
      subst htail
      have hzero : value / 10 = 0 := by
        rw [← Nat.ofDigitChars_ten_toDigits (n := value / 10), hhead]
        rfl
      omega

/-- The digits of a number start with a digit. -/
theorem exists_toDigits_ten_eq_cons (value : Nat) :
    ∃ first digits, Nat.toDigits 10 value = first :: digits ∧ first.isDigit = true := by
  obtain ⟨first, digits, hdigits⟩ :=
    List.exists_cons_of_ne_nil (Nat.toDigits_ne_nil (n := value) (b := 10))
  exact ⟨first, digits, hdigits, Nat.isDigit_of_mem_toDigits (b := 10) (n := value) (by decide)
    (by decide) (hdigits ▸ List.mem_cons_self)⟩

theorem readNumber_writeWord (word : UInt32) {separator : Char} (rest : List Char)
    (h : separator = ',' ∨ separator = '}') :
    readNumber (writeWord word ++ separator :: rest) =
      some (wordNumber word, separator :: rest) := by
  obtain ⟨first, digits, hdigits, hfirst⟩ := exists_toDigits_ten_eq_cons word.toNat
  have hsign : first ≠ '-' := by rintro rfl; exact absurd hfirst (by decide)
  have hread := readDigits_toDigits word.toNat rest h
  have hwhole : readWhole (writeWord word ++ separator :: rest) =
      some (writeWord word, separator :: rest) := by
    rw [readWhole, writeWord, hread]
    split
    · rename_i heq
      obtain ⟨heq, -⟩ := Prod.mk.inj (Option.some.inj heq)
      exact absurd (toDigits_ten_eq_zero_cons heq) (by simp)
    · rfl
  have hfraction : readFraction (separator :: rest) = some (none, separator :: rest) := by
    rcases h with rfl | rfl <;> rfl
  have hexponent : readExponent (separator :: rest) = some (none, separator :: rest) := by
    rcases h with rfl | rfl <;> simp [readExponent]
  have hnegative : ∀ text, writeWord word ++ separator :: rest = '-' :: text → False := by
    intro text heq
    rw [writeWord, hdigits, List.cons_append] at heq
    exact hsign (List.cons.inj heq).1
  rw [readNumber]
  · simp [hwhole, hfraction, hexponent, wordNumber]
    rfl
  · exact hnegative

theorem readsAs_writeWord (levels : Nat) (word : UInt32) :
    ReadsAs levels (writeWord word) (.number (wordNumber word)) := by
  intro separator rest h
  obtain ⟨first, digits, hdigits, hfirst⟩ := exists_toDigits_ten_eq_cons word.toNat
  have hother : ∀ c : Char, c.isDigit = false → first ≠ c := by
    rintro c hc rfl
    simp [hfirst] at hc
  have hblank : skipBlank (writeWord word ++ separator :: rest) =
      writeWord word ++ separator :: rest := by
    rw [skipBlank, writeWord, hdigits, List.cons_append, List.dropWhile_cons, if_neg]
    simp [isBlank, hother]
  have hscalar : readScalar (writeWord word ++ separator :: rest) =
      some (.number (wordNumber word), separator :: rest) := by
    have hnumber := readNumber_writeWord word rest h
    rw [writeWord, hdigits, List.cons_append] at hnumber ⊢
    rw [readScalar, hnumber]
    · rfl
    all_goals
      intro tail heq
      exact absurd (List.cons.inj heq).1 (hother _ (by decide))
  have hopen : ∀ c tail, c = '[' ∨ c = '{' →
      writeWord word ++ separator :: rest = c :: tail → False := by
    intro c tail hc heq
    rw [writeWord, hdigits, List.cons_append] at heq
    have hdigit : c.isDigit = false := by rcases hc with rfl | rfl <;> rfl
    exact hother c hdigit (List.cons.inj heq).1
  cases levels with
  | zero =>
    rw [readValue, hblank]
    split
    · rename_i tail heq
      exact (hopen _ tail (.inl rfl) heq).elim
    · rename_i tail heq
      exact (hopen _ tail (.inr rfl) heq).elim
    · exact hscalar
  | succ levels =>
    rw [readValue, hblank]
    split
    · rename_i tail heq
      exact (hopen _ tail (.inl rfl) heq).elim
    · rename_i tail heq
      exact (hopen _ tail (.inr rfl) heq).elim
    · exact hscalar

theorem word?_wordNumber (word : UInt32) : (Value.number (wordNumber word)).word? = some word := by
  have hlt : word.toNat < 4294967296 := word.toNat_lt
  simp [Value.word?, wordNumber, Number.toNat?, hlt]

/-- The value that an optional text is read as. -/
def textOrNull : Option String → Value
  | none => .null
  | some text => .string (some text)

theorem textOrNull?_textOrNull (text : Option String) :
    (textOrNull text).textOrNull? = some text := by
  cases text <;> rfl

theorem readsAs_writeOptional (levels : Nat) (text : Option String) :
    ReadsAs levels (writeOptional text) (textOrNull text) := by
  cases text with
  | none =>
    intro separator rest _
    cases levels <;> rfl
  | some text => exact readsAs_writeString levels text

/-! ## Objects -/

theorem readMember_writeMember {levels : Nat} (name : String) {text : List Char} {value : Value}
    (h : ReadsAs levels text value) {separator : Char} (rest : List Char)
    (hseparator : separator = ',' ∨ separator = '}') :
    readMember (readValue levels) (writeMember (name, text) ++ separator :: rest) =
      some ((some name, value), separator :: rest) := by
  have hvalue := h separator rest hseparator
  have hname := readText_writeString name (':' :: (text ++ separator :: rest))
  rw [writeMember, writeString, List.cons_append, List.cons_append, readMember]
  simp only [skipBlank, List.dropWhile_cons, show isBlank '"' = false from rfl,
    show isBlank ':' = false from rfl, Bool.false_eq_true, if_false, List.append_assoc,
    List.cons_append, List.nil_append, hname, hvalue]
  rfl

/-- Members that are written in a row are read back in a row. -/
theorem readMembers_writeMembers {levels : Nat} (rest : List Char) :
    ∀ (members : List (String × List Char × Value)) (rounds : Nat), members ≠ [] →
      (∀ member ∈ members, ReadsAs levels member.2.1 member.2.2) → members.length ≤ rounds →
      readMembers (readValue levels) rounds
        (writeMembers (members.map fun member => (member.1, member.2.1)) ++ '}' :: rest) =
        some (members.map fun member => (some member.1, member.2.2), rest)
  | [], _, hne, _, _ => absurd rfl hne
  | _ :: _, 0, _, _, hrounds => absurd hrounds (by simp)
  | [(name, text, value)], rounds + 1, _, hreads, _ => by
    have hmember := readMember_writeMember name (hreads _ List.mem_cons_self) rest
      (.inr rfl)
    simp only [List.map_cons, List.map_nil, writeMembers] at hmember ⊢
    rw [readMembers, hmember]
    rfl
  | (name, text, value) :: next :: others, rounds + 1, _, hreads, hrounds => by
    have htail := readMembers_writeMembers rest (next :: others) rounds (by simp)
      (fun member hmember => hreads member (List.mem_cons_of_mem _ hmember))
      (Nat.le_of_succ_le_succ hrounds)
    have hmember := readMember_writeMember name (hreads _ List.mem_cons_self)
      (writeMembers ((next :: others).map fun member => (member.1, member.2.1)) ++ '}' :: rest)
      (.inl rfl)
    simp only [List.map_cons] at hmember htail ⊢
    simp only [writeMembers, List.append_assoc, List.cons_append] at hmember ⊢
    rw [readMembers, hmember]
    simp only [skipBlank, List.dropWhile_cons, show isBlank ',' = false from rfl,
      Bool.false_eq_true, if_false]
    rw [htail]

theorem length_le_length_writeMembers (members : List (String × List Char)) :
    members.length ≤ (writeMembers members).length := by
  induction members with
  | nil => exact Nat.zero_le _
  | cons entry rest ih =>
    have hentry : 1 ≤ (writeMember entry).length := by simp [writeMember, writeString]
    cases rest with
    | nil => simpa [writeMembers] using hentry
    | cons next others =>
      simp only [writeMembers, List.length_append, List.length_cons] at ih ⊢
      omega

theorem read_writeObject (levels : Nat) {members : List (String × List Char × Value)}
    (hne : members ≠ []) (hreads : ∀ member ∈ members, ReadsAs levels member.2.1 member.2.2) :
    read (levels + 1) (writeObject (members.map fun member => (member.1, member.2.1))) =
      some (.object (members.map fun member => (some member.1, member.2.2))) := by
  obtain ⟨⟨name, text, value⟩, others, rfl⟩ := List.exists_cons_of_ne_nil hne
  set entries := ((name, text, value) :: others).map fun member => (member.1, member.2.1)
    with hentries
  have hquote : ∃ tail, writeMembers entries ++ ['}'] = '"' :: tail := by
    cases others <;> simp [hentries, writeMembers, writeMember, writeString]
  have hlength := length_le_length_writeMembers entries
  have hmembers := readMembers_writeMembers [] _
    ((writeMembers entries ++ ['}']).length + 1) hne hreads
    (by simp only [hentries, List.length_map, List.length_append] at hlength ⊢; omega)
  have hvalue : readValue (levels + 1) ('{' :: (writeMembers entries ++ ['}'])) =
      some (.object (((name, text, value) :: others).map fun member => (some member.1, member.2.2)),
        []) := by
    obtain ⟨tail, htail⟩ := hquote
    rw [readValue]
    simp only [skipBlank, List.dropWhile_cons, show isBlank '{' = false from rfl,
      Bool.false_eq_true, if_false]
    rw [← hentries] at hmembers
    rw [htail] at hmembers ⊢
    simp only [List.dropWhile_cons, show isBlank '"' = false from rfl, Bool.false_eq_true,
      if_false]
    split
    · rename_i heq
      simp at heq
    · rw [hmembers]
      rfl
  rw [read, writeObject, hvalue]
  rfl

end MeshFormation.Json
