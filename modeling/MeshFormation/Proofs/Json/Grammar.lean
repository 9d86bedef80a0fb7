import MeshFormation.Json.Reader

/-!
# The grammar of JSON

Which texts stand for which values, without regard to how they are read. A part of a document is
described by the text that it begins, what it stands for, and the text behind it. Containers hold
values of one level less than they may have themselves. A literal with a surrogate that has no
partner belongs to the grammar but stands for no text.
-/

namespace MeshFormation.Json

/-- The first text is the second one behind any number of blanks. -/
inductive Blanks : List Char → List Char → Prop where
  | none {rest : List Char} : Blanks rest rest
  | more {c : Char} {text rest : List Char} (blank : isBlank c = true) (blanks : Blanks text rest) :
      Blanks (c :: text) rest

/-! ## Strings -/

/-- The parts of a string literal up to its closing quote. -/
inductive PiecesText : List Char → List Piece → List Char → Prop where
  | close {rest : List Char} : PiecesText ('"' :: rest) [] rest
  | char {c : Char} {text rest : List Char} {pieces : List Piece}
      (quote : c ≠ '"') (slash : c ≠ '\\')
      (printable : ¬ c < ' ') (others : PiecesText text pieces rest) :
      PiecesText (c :: text) (.char c :: pieces) rest
  | letter {letter c : Char} {text rest : List Char} {pieces : List Piece}
      (escape : shortEscape? letter = some c) (others : PiecesText text pieces rest) :
      PiecesText ('\\' :: letter :: text) (.char c :: pieces) rest
  | unit {a b c d : Char} {value : Nat} {text rest : List Char} {pieces : List Piece}
      (hexadecimal : Hexadecimal.ofDigits? [a, b, c, d] = some value)
      (others : PiecesText text pieces rest) :
      PiecesText ('\\' :: 'u' :: a :: b :: c :: d :: text) (.unit value :: pieces) rest

/-- The characters that the parts of a literal stand for. A code unit stands for itself, unless it
is a surrogate, and two surrogates for one character. -/
inductive Spells : List Piece → List Char → Prop where
  | nil : Spells [] []
  | char {c : Char} {pieces : List Piece} {chars : List Char} (rest : Spells pieces chars) :
      Spells (.char c :: pieces) (c :: chars)
  | unit {value : Nat} {pieces : List Piece} {chars : List Char}
      (high : isHighSurrogate value = false)
      (low : isLowSurrogate value = false) (rest : Spells pieces chars) :
      Spells (.unit value :: pieces) (Char.ofNat value :: chars)
  | pair {first second : Nat} {pieces : List Piece} {chars : List Char}
      (high : isHighSurrogate first = true) (low : isLowSurrogate second = true)
      (rest : Spells pieces chars) :
      Spells (.unit first :: .unit second :: pieces)
        (Char.ofNat (0x10000 + (first - 0xd800) * 0x400 + (second - 0xdc00)) :: chars)

/-- The text of a literal with the given parts, if there is one. -/
inductive Denotes (pieces : List Piece) : Text → Prop where
  | text {chars : List Char} (spells : Spells pieces chars) :
      Denotes pieces (some (String.ofList chars))
  | lone (spells : ∀ chars, ¬ Spells pieces chars) : Denotes pieces none

/-- A string literal behind its opening quote. -/
def StringText (text : List Char) (value : Text) (rest : List Char) : Prop :=
  ∃ pieces, PiecesText text pieces rest ∧ Denotes pieces value

/-! ## Numbers -/

structure IsDigits (digits : List Char) : Prop where
  ne_nil : digits ≠ []
  all : ∀ c ∈ digits, c.isDigit = true

/-- Digits that start with a zero only if that is all. -/
structure IsWhole (digits : List Char) : Prop extends IsDigits digits where
  zero : ∀ {rest}, digits = '0' :: rest → rest = []

inductive SignText : List Char → Bool → Prop where
  | none : SignText [] false
  | minus : SignText ['-'] true

inductive FractionText : List Char → Option (List Char) → Prop where
  | none : FractionText [] none
  | point {digits : List Char} (all : IsDigits digits) : FractionText ('.' :: digits) (some digits)

inductive ExponentText : List Char → Option (Bool × List Char) → Prop where
  | none : ExponentText [] none
  | bare {c : Char} {digits : List Char} (letter : c = 'e' ∨ c = 'E') (all : IsDigits digits) :
      ExponentText (c :: digits) (some (false, digits))
  | plus {c : Char} {digits : List Char} (letter : c = 'e' ∨ c = 'E') (all : IsDigits digits) :
      ExponentText (c :: '+' :: digits) (some (false, digits))
  | minus {c : Char} {digits : List Char} (letter : c = 'e' ∨ c = 'E') (all : IsDigits digits) :
      ExponentText (c :: '-' :: digits) (some (true, digits))

inductive NumberText : List Char → Number → Prop where
  | mk {number : Number} {sign fraction exponent : List Char}
      (signed : SignText sign number.negative)
      (whole : IsWhole number.whole) (fractional : FractionText fraction number.fraction)
      (scaled : ExponentText exponent number.exponent) :
      NumberText (sign ++ (number.whole ++ (fraction ++ exponent))) number

/-! ## Values -/

inductive ScalarText : List Char → Value → List Char → Prop where
  | null {rest : List Char} : ScalarText ('n' :: 'u' :: 'l' :: 'l' :: rest) .null rest
  | yes {rest : List Char} : ScalarText ('t' :: 'r' :: 'u' :: 'e' :: rest) (.boolean true) rest
  | no {rest : List Char} :
      ScalarText ('f' :: 'a' :: 'l' :: 's' :: 'e' :: rest) (.boolean false) rest
  | string {text rest : List Char} {value : Text} (literal : StringText text value rest) :
      ScalarText ('"' :: text) (.string value) rest
  | number {literal rest : List Char} {number : Number} (written : NumberText literal number) :
      ScalarText (literal ++ rest) (.number number) rest

/-- Parts with commas between them, at least one, and the closing character. -/
inductive SeparatedText {α : Type} (part : List Char → α → List Char → Prop) (close : Char) :
    List Char → List α → List Char → Prop where
  | last {text after rest : List Char} {value : α} (content : part text value after)
      (closes : Blanks after (close :: rest)) : SeparatedText part close text [value] rest
  | more {text after behind next rest : List Char} {value : α} {values : List α}
      (content : part text value after) (comma : Blanks after (',' :: behind))
      (blanks : Blanks behind next) (others : SeparatedText part close next values rest) :
      SeparatedText part close text (value :: values) rest

inductive ListText {α : Type} (part : List Char → α → List Char → Prop) (close : Char) :
    List Char → List α → List Char → Prop where
  | empty {text rest : List Char} (closes : Blanks text (close :: rest)) :
      ListText part close text [] rest
  | parts {text next rest : List Char} {values : List α} (blanks : Blanks text next)
      (separated : SeparatedText part close next values rest) : ListText part close text values rest

section Containers

variable (inner : List Char → Value → List Char → Prop)

/-- A name and a value with a colon between them. -/
inductive MemberText : List Char → Text × Value → List Char → Prop where
  | mk {text after behind next rest : List Char} {name : Text} {value : Value}
      (literal : StringText text name after) (colon : Blanks after (':' :: behind))
      (blanks : Blanks behind next) (content : inner next value rest) :
      MemberText ('"' :: text) (name, value) rest

inductive ContainerText : List Char → Value → List Char → Prop where
  | array {text rest : List Char} {items : List Value} (list : ListText inner ']' text items rest) :
      ContainerText ('[' :: text) (.array items) rest
  | object {text rest : List Char} {members : List (Text × Value)}
      (list : ListText (MemberText inner) '}' text members rest) :
      ContainerText ('{' :: text) (.object members) rest

end Containers

/-- A value whose containers are nested up to a number of levels. -/
def ValueText : Nat → List Char → Value → List Char → Prop
  | 0, text, value, rest => ScalarText text value rest
  | levels + 1, text, value, rest =>
    ScalarText text value rest ∨ ContainerText (ValueText levels) text value rest

/-- A text that is one value, with nothing but blanks around it. -/
def Document (levels : Nat) (text : List Char) (value : Value) : Prop :=
  ∃ start rest, Blanks text start ∧ ValueText levels start value rest ∧ Blanks rest []

/-! ## More levels -/

section Mono

variable {α : Type} {part other : List Char → α → List Char → Prop} {close : Char}
  {text rest : List Char} {values : List α}
  (hpart : ∀ {text value rest}, part text value rest → other text value rest)
include hpart

theorem SeparatedText.mono (h : SeparatedText part close text values rest) :
    SeparatedText other close text values rest := by
  induction h with
  | last content closes => exact .last (hpart content) closes
  | more content comma blanks _ ih => exact .more (hpart content) comma blanks ih

theorem ListText.mono (h : ListText part close text values rest) :
    ListText other close text values rest := by
  cases h with
  | empty closes => exact .empty closes
  | parts blanks separated => exact .parts blanks (separated.mono hpart)

end Mono

section Mono

variable {inner outer : List Char → Value → List Char → Prop} {text rest : List Char}
  (hinner : ∀ {text value rest}, inner text value rest → outer text value rest)
include hinner

theorem MemberText.mono {entry : Text × Value} (h : MemberText inner text entry rest) :
    MemberText outer text entry rest := by
  cases h with
  | mk literal colon blanks content => exact .mk literal colon blanks (hinner content)

theorem ContainerText.mono {value : Value} (h : ContainerText inner text value rest) :
    ContainerText outer text value rest := by
  cases h with
  | array list => exact .array (list.mono hinner)
  | object list => exact .object (list.mono (MemberText.mono hinner))

end Mono

variable {levels more : Nat} {text rest : List Char} {value : Value}

theorem ValueText.succ (h : ValueText levels text value rest) :
    ValueText (levels + 1) text value rest := by
  induction levels generalizing text value rest with
  | zero => exact .inl h
  | succ levels ih => exact h.imp_right (ContainerText.mono ih)

/-- What belongs to the grammar still does so if more levels are allowed. -/
theorem Document.mono (h : Document levels text value) (hle : levels ≤ more) :
    Document more text value := by
  induction hle with
  | refl => exact h
  | step hle ih =>
    obtain ⟨start, rest, hstart, hvalue, hrest⟩ := ih
    exact ⟨start, rest, hstart, hvalue.succ, hrest⟩

end MeshFormation.Json
