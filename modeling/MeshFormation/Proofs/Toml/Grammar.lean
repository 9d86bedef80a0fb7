import MeshFormation.Toml.Document

/-!
# The grammar of TOML

Which texts stand for which values and statements, without regard to how they are read. A part of a
document is described by the text that it begins, what it stands for, and the text behind it. The
limits on dotted keys and on nested brackets are those of the reader.
-/

namespace MeshFormation.Toml

/-! ## White space -/

/-- The first text is the second one behind any number of blanks. -/
inductive Blanks : List Char → List Char → Prop where
  | none {rest : List Char} : Blanks rest rest
  | more {c : Char} {text rest : List Char} (blank : isBlank c = true) (blanks : Blanks text rest) :
      Blanks (c :: text) rest

/-- The first text is the second one behind a line break. -/
inductive Break : List Char → List Char → Prop where
  | feed {rest : List Char} : Break ('\n' :: rest) rest
  | pair {rest : List Char} : Break ('\r' :: '\n' :: rest) rest

/-- The first text is the second one behind blanks and line breaks. -/
inductive Gap : List Char → List Char → Prop where
  | none {rest : List Char} : Gap rest rest
  | blank {c : Char} {text rest : List Char} (blank : isBlank c = true) (gap : Gap text rest) :
      Gap (c :: text) rest
  | line {text next rest : List Char} (ends : Break text next) (gap : Gap next rest) : Gap text rest

/-- The first text is the second one behind blanks, line breaks and comments. -/
inductive Trivia : List Char → List Char → Prop where
  | none {rest : List Char} : Trivia rest rest
  | blank {c : Char} {text rest : List Char} (blank : isBlank c = true)
      (trivia : Trivia text rest) : Trivia (c :: text) rest
  | line {text next rest : List Char} (ends : Break text next) (trivia : Trivia next rest) :
      Trivia text rest
  | comment {comment text next rest : List Char} (printable : ∀ c ∈ comment, isPrintable c = true)
      (ends : Break text next) (trivia : Trivia next rest) : Trivia ('#' :: (comment ++ text)) rest

/-- The end of a line, which may carry a comment. -/
inductive LineEnd : List Char → List Char → Prop where
  | line {text behind next : List Char} (blanks : Blanks text behind) (ends : Break behind next) :
      LineEnd text next
  | comment {text comment behind next : List Char}
      (blanks : Blanks text ('#' :: (comment ++ behind)))
      (printable : ∀ c ∈ comment, isPrintable c = true)
      (ends : Break behind next) : LineEnd text next
  | last {text : List Char} (blanks : Blanks text []) : LineEnd text []
  | lastComment {text comment : List Char} (blanks : Blanks text ('#' :: comment))
      (printable : ∀ c ∈ comment, isPrintable c = true) : LineEnd text []

/-! ## Strings -/

/-- An escape behind its backslash. -/
inductive EscapeText : List Char → Char → List Char → Prop where
  | letter {letter c : Char} {rest : List Char} (escape : shortEscape? letter = some c) :
      EscapeText (letter :: rest) c rest
  | short {a b c d char : Char} {rest : List Char} (code : codeEscape? [a, b, c, d] = some char) :
      EscapeText ('u' :: a :: b :: c :: d :: rest) char rest
  | long {a b c d e f g h char : Char} {rest : List Char}
      (code : codeEscape? [a, b, c, d, e, f, g, h] = some char) :
      EscapeText ('U' :: a :: b :: c :: d :: e :: f :: g :: h :: rest) char rest

/-- A string in double quotes behind its opening quote. -/
inductive BasicText : List Char → List Char → List Char → Prop where
  | close {rest : List Char} : BasicText ('"' :: rest) [] rest
  | char {c : Char} {text chars rest : List Char} (quote : c ≠ '"') (slash : c ≠ '\\')
      (printable : isPrintable c = true) (others : BasicText text chars rest) :
      BasicText (c :: text) (c :: chars) rest
  | escape {c : Char} {text next chars rest : List Char} (content : EscapeText text c next)
      (others : BasicText next chars rest) : BasicText ('\\' :: text) (c :: chars) rest

/-- A string in single quotes behind its opening quote. -/
inductive LiteralText : List Char → List Char → List Char → Prop where
  | close {rest : List Char} : LiteralText ('\'' :: rest) [] rest
  | char {c : Char} {text chars rest : List Char} (quote : c ≠ '\'')
      (printable : isPrintable c = true)
      (others : LiteralText text chars rest) : LiteralText (c :: text) (c :: chars) rest

/-- The closing quotes of a block, in front of which up to two quotes belong to it. -/
inductive CloseText (quote : Char) : List Char → List Char → List Char → Prop where
  | mk {count : Nat} {rest : List Char} (few : count ≤ 2) :
      CloseText quote (List.replicate (count + 3) quote ++ rest) (List.replicate count quote) rest

/-- A block in double quotes behind its opening quotes. A backslash at the end of a line joins it
with the next text that is neither a blank nor a line break. -/
inductive BasicBlockText : List Char → List Char → List Char → Prop where
  | close {text chars rest : List Char} (ends : CloseText '"' text chars rest) :
      BasicBlockText text chars rest
  | quote {text chars rest : List Char} (few : ∀ {tail}, text ≠ '"' :: '"' :: tail)
      (others : BasicBlockText text chars rest) : BasicBlockText ('"' :: text) ('"' :: chars) rest
  | char {c : Char} {text chars rest : List Char} (quote : c ≠ '"') (slash : c ≠ '\\')
      (printable : isPrintable c = true) (others : BasicBlockText text chars rest) :
      BasicBlockText (c :: text) (c :: chars) rest
  | line {text next chars rest : List Char} (ends : Break text next)
      (others : BasicBlockText next chars rest) : BasicBlockText text ('\n' :: chars) rest
  | escape {c : Char} {text next chars rest : List Char} (content : EscapeText text c next)
      (others : BasicBlockText next chars rest) : BasicBlockText ('\\' :: text) (c :: chars) rest
  | join {text start behind next chars rest : List Char} (blanks : Blanks text start)
      (ends : Break start behind) (gap : Gap behind next)
      (whole : ∀ {c tail}, next = c :: tail → isBlank c = false ∧ c ≠ '\n' ∧ c ≠ '\r')
      (others : BasicBlockText next chars rest) : BasicBlockText ('\\' :: text) chars rest

/-- A block in single quotes behind its opening quotes. -/
inductive LiteralBlockText : List Char → List Char → List Char → Prop where
  | close {text chars rest : List Char} (ends : CloseText '\'' text chars rest) :
      LiteralBlockText text chars rest
  | quote {text chars rest : List Char} (few : ∀ {tail}, text ≠ '\'' :: '\'' :: tail)
      (others : LiteralBlockText text chars rest) :
      LiteralBlockText ('\'' :: text) ('\'' :: chars) rest
  | char {c : Char} {text chars rest : List Char} (quote : c ≠ '\'')
      (printable : isPrintable c = true)
      (others : LiteralBlockText text chars rest) : LiteralBlockText (c :: text) (c :: chars) rest
  | line {text next chars rest : List Char} (ends : Break text next)
      (others : LiteralBlockText next chars rest) : LiteralBlockText text ('\n' :: chars) rest

/-- A line break right behind the opening quotes of a block does not belong to it. -/
inductive BlockStart : List Char → List Char → Prop where
  | line {text start : List Char} (ends : Break text start) : BlockStart text start
  | here {start : List Char} (absent : ∀ {next}, ¬ Break start next) : BlockStart start start

inductive StringText : List Char → String → List Char → Prop where
  | basic {text chars rest : List Char} (content : BasicText text chars rest) :
      StringText ('"' :: text) (String.ofList chars) rest
  | literal {text chars rest : List Char} (content : LiteralText text chars rest) :
      StringText ('\'' :: text) (String.ofList chars) rest
  | basicBlock {text start chars rest : List Char} (starts : BlockStart text start)
      (content : BasicBlockText start chars rest) :
      StringText ('"' :: '"' :: '"' :: text) (String.ofList chars) rest
  | literalBlock {text start chars rest : List Char} (starts : BlockStart text start)
      (content : LiteralBlockText start chars rest) :
      StringText ('\'' :: '\'' :: '\'' :: text) (String.ofList chars) rest

/-! ## Keys -/

inductive KeyText : List Char → String → List Char → Prop where
  | bare {chars rest : List Char} (ne_nil : chars ≠ []) (all : ∀ c ∈ chars, isBare c = true) :
      KeyText (chars ++ rest) (String.ofList chars) rest
  | basic {text chars rest : List Char} (content : BasicText text chars rest) :
      KeyText ('"' :: text) (String.ofList chars) rest
  | literal {text chars rest : List Char} (content : LiteralText text chars rest) :
      KeyText ('\'' :: text) (String.ofList chars) rest

/-- Keys with dots between them, and blanks around the dots. -/
inductive PathText : List Char → List String → List Char → Prop where
  | last {text after rest : List Char} {key : String} (name : KeyText text key after)
      (blanks : Blanks after rest) : PathText text [key] rest
  | more {text after behind next rest : List Char} {key : String} {path : List String}
      (name : KeyText text key after) (dot : Blanks after ('.' :: behind))
      (blanks : Blanks behind next) (others : PathText next path rest) :
      PathText text (key :: path) rest

/-! ## Numbers -/

/-- Digits, at least one, with single underscores between them. -/
inductive DigitsText (isDigit : Char → Bool) : List Char → List Char → Prop where
  | last {c : Char} (digit : isDigit c = true) : DigitsText isDigit [c] [c]
  | more {c : Char} {text digits : List Char} (digit : isDigit c = true)
      (others : DigitsText isDigit text digits) : DigitsText isDigit (c :: text) (c :: digits)
  | apart {c : Char} {text digits : List Char} (digit : isDigit c = true)
      (others : DigitsText isDigit text digits) :
      DigitsText isDigit (c :: '_' :: text) (c :: digits)

/-- Digits that start with a zero only if that is all. -/
inductive WholeText : List Char → List Char → Prop where
  | zero : WholeText ['0'] ['0']
  | digits {c : Char} {text digits : List Char} (leading : c ≠ '0')
      (content : DigitsText Char.isDigit (c :: text) digits) : WholeText (c :: text) digits

inductive SignText : List Char → Bool → Prop where
  | none : SignText [] false
  | plus : SignText ['+'] false
  | minus : SignText ['-'] true

/-- A number with the sign in front. -/
def signed (negative : Bool) (value : Nat) : Int := if negative then -value else value

inductive FractionText : List Char → Option (List Char) → Prop where
  | none : FractionText [] none
  | point {text digits : List Char} (content : DigitsText Char.isDigit text digits) :
      FractionText ('.' :: text) (some digits)

inductive ExponentText : List Char → Option Int → Prop where
  | none : ExponentText [] none
  | letter {c : Char} {sign text digits : List Char} {negative : Bool} (letter : c = 'e' ∨ c = 'E')
      (signs : SignText sign negative) (content : DigitsText Char.isDigit text digits) :
      ExponentText (c :: (sign ++ text)) (some (signed negative (Nat.ofDigitChars 10 digits 0)))

/-- The letters that stand for a base, behind a zero. -/
inductive BaseLetter : Char → Nat → Prop where
  | hexadecimal : BaseLetter 'x' 16
  | octal : BaseLetter 'o' 8
  | binary : BaseLetter 'b' 2

def isBaseDigit (base : Nat) (c : Char) : Bool := (Hexadecimal.digit? c).any (· < base)

/-- The number that digits in a base stand for, most significant first. -/
def ofBaseDigits (base : Nat) (digits : List Char) : Nat :=
  digits.foldl (fun value c => value * base + (Hexadecimal.digit? c).getD 0) 0

/-- An integer has 64 bits with its sign. -/
def IsWord (value : Int) : Prop := Int64.minValue.toInt ≤ value ∧ value ≤ Int64.maxValue.toInt

inductive NumberText : List Char → Value → Prop where
  | integer {sign text digits : List Char} {negative : Bool} (signs : SignText sign negative)
      (whole : WholeText text digits)
      (word : IsWord (signed negative (Nat.ofDigitChars 10 digits 0))) :
      NumberText (sign ++ text) (.integer (signed negative (Nat.ofDigitChars 10 digits 0)))
  | based {letter : Char} {base : Nat} {text digits : List Char} (based : BaseLetter letter base)
      (content : DigitsText (isBaseDigit base) text digits)
      (word : IsWord (ofBaseDigits base digits)) :
      NumberText ('0' :: letter :: text) (.integer (ofBaseDigits base digits))
  | infinite {sign : List Char} {negative : Bool} (signs : SignText sign negative) :
      NumberText (sign ++ ['i', 'n', 'f']) (.other .float)
  | notNumber {sign : List Char} {negative : Bool} (signs : SignText sign negative) :
      NumberText (sign ++ ['n', 'a', 'n']) (.other .float)
  /-- A positive number must not be rounded to infinity. -/
  | float {sign text digits fractionText exponentText : List Char} {negative : Bool}
      {fraction : Option (List Char)} {exponent : Option Int} (signs : SignText sign negative)
      (whole : WholeText text digits) (fractional : FractionText fractionText fraction)
      (scaled : ExponentText exponentText exponent)
      (either : fraction.isSome = true ∨ exponent.isSome = true)
      (bounded : negative = true ∨ DoubleRange.holds (digits ++ fraction.getD [])
        (exponent.getD 0 - (fraction.getD []).length) = true) :
      NumberText (sign ++ (text ++ (fractionText ++ exponentText))) (.other .float)

/-! ## Dates and times -/

inductive PairText : List Char → Nat → Prop where
  | mk {a b : Char} (first : a.isDigit = true) (second : b.isDigit = true) :
      PairText [a, b] (Nat.ofDigitChars 10 [a, b] 0)

inductive DateText : List Char → Prop where
  | mk {centuryText yearText monthText dayText : List Char} {century year month day : Nat}
      (centuries : PairText centuryText century) (years : PairText yearText year)
      (months : PairText monthText month) (days : PairText dayText day)
      (inYear : 1 ≤ month ∧ month ≤ 12)
      (inMonth : 1 ≤ day ∧ day ≤ daysIn (century * 100 + year) month) :
      DateText (centuryText ++ (yearText ++ '-' :: (monthText ++ '-' :: dayText)))

inductive SecondFractionText : List Char → Prop where
  | none : SecondFractionText []
  | point {digits : List Char} (ne_nil : digits ≠ []) (all : ∀ c ∈ digits, c.isDigit = true) :
      SecondFractionText ('.' :: digits)

inductive TimeText : List Char → Prop where
  | mk {hourText minuteText secondText fraction : List Char} {hour minute second : Nat}
      (hours : PairText hourText hour) (inDay : hour ≤ 23) (minutes : PairText minuteText minute)
      (inHour : minute ≤ 59) (seconds : PairText secondText second) (inMinute : second ≤ 60)
      (fractional : SecondFractionText fraction) :
      TimeText (hourText ++ ':' :: (minuteText ++ ':' :: (secondText ++ fraction)))

inductive OffsetText : List Char → Prop where
  | none : OffsetText []
  | zero {c : Char} (letter : c = 'Z' ∨ c = 'z') : OffsetText [c]
  | hours {c : Char} {hourText minuteText : List Char} {hour minute : Nat}
      (sign : c = '+' ∨ c = '-')
      (hours : PairText hourText hour) (inDay : hour ≤ 23) (minutes : PairText minuteText minute)
      (inHour : minute ≤ 59) : OffsetText (c :: (hourText ++ ':' :: minuteText))

inductive DateTimeText : List Char → Prop where
  | date {date : List Char} (dated : DateText date) : DateTimeText date
  | time {time : List Char} (timed : TimeText time) : DateTimeText time
  | both {date time offset : List Char} {c : Char} (dated : DateText date)
      (letter : c = 'T' ∨ c = 't' ∨ c = ' ') (timed : TimeText time) (zoned : OffsetText offset) :
      DateTimeText (date ++ c :: (time ++ offset))

/-! ## Values -/

inductive ScalarText : List Char → Value → List Char → Prop where
  | yes {rest : List Char} : ScalarText ('t' :: 'r' :: 'u' :: 'e' :: rest) (.other .boolean) rest
  | no {rest : List Char} :
      ScalarText ('f' :: 'a' :: 'l' :: 's' :: 'e' :: rest) (.other .boolean) rest
  | string {text rest : List Char} {value : String} (literal : StringText text value rest) :
      ScalarText text (.string value) rest
  | number {literal rest : List Char} {value : Value} (written : NumberText literal value) :
      ScalarText (literal ++ rest) value rest
  | dateTime {literal rest : List Char} (written : DateTimeText literal) :
      ScalarText (literal ++ rest) (.other .dateTime) rest

section Containers

variable (inner : List Char → Value → List Char → Prop)

/-- The items of an array behind its opening bracket. A comma may follow the last one. -/
inductive ItemsText : List Char → List Value → List Char → Prop where
  | close {text rest : List Char} (closes : Trivia text (']' :: rest)) : ItemsText text [] rest
  | last {text start after rest : List Char} {value : Value} (trivia : Trivia text start)
      (content : inner start value after) (closes : Trivia after (']' :: rest)) :
      ItemsText text [value] rest
  | more {text start after next rest : List Char} {value : Value} {values : List Value}
      (trivia : Trivia text start) (content : inner start value after)
      (comma : Trivia after (',' :: next)) (others : ItemsText next values rest) :
      ItemsText text (value :: values) rest

/-- A key, an equals sign and a value, with the blanks behind the value. -/
inductive SettingText : List Char → Setting → List Char → Prop where
  | mk {text after start behind rest : List Char} {path : List String} {value : Value}
      (key : PathText text path ('=' :: after)) (short : path.length ≤ pathLimit)
      (blanks : Blanks after start) (content : inner start value behind)
      (trailing : Blanks behind rest) : SettingText text (path, value) rest

/-- The settings of a table in braces behind its opening brace, at least one. -/
inductive SettingsText : List Char → List Setting → List Char → Prop where
  | last {text start rest : List Char} {setting : Setting} (blanks : Blanks text start)
      (content : SettingText inner start setting ('}' :: rest)) : SettingsText text [setting] rest
  | more {text start next rest : List Char} {setting : Setting} {settings : List Setting}
      (blanks : Blanks text start) (content : SettingText inner start setting (',' :: next))
      (others : SettingsText next settings rest) : SettingsText text (setting :: settings) rest

inductive ContainerText : List Char → Value → List Char → Prop where
  | array {text rest : List Char} {items : List Value} (list : ItemsText inner text items rest) :
      ContainerText ('[' :: text) (.array items) rest
  | empty {text rest : List Char} (closes : Blanks text ('}' :: rest)) :
      ContainerText ('{' :: text) (.table .closed []) rest
  | table {text rest : List Char} {settings : List Setting} {entries : Entries}
      (list : SettingsText inner text settings rest)
      (distinct : Entries.assignAll [] settings = some entries) :
      ContainerText ('{' :: text) (.table .closed entries) rest

end Containers

/-- A value whose brackets and braces are nested up to a number of levels. -/
def ValueText : Nat → List Char → Value → List Char → Prop
  | 0, text, value, rest => ScalarText text value rest
  | levels + 1, text, value, rest =>
    ScalarText text value rest ∨ ContainerText (ValueText levels) text value rest

/-! ## Documents -/

inductive StatementText : List Char → Statement → List Char → Prop where
  | setting {text rest : List Char} {path : List String} {value : Value}
      (content : SettingText (ValueText nestingLimit) text (path, value) rest) :
      StatementText text (.setting path value) rest
  | table {text start rest : List Char} {path : List String} (blanks : Blanks text start)
      (key : PathText start path (']' :: rest)) (short : path.length ≤ pathLimit) :
      StatementText ('[' :: text) (.table path) rest
  | element {text start rest : List Char} {path : List String} (blanks : Blanks text start)
      (key : PathText start path (']' :: ']' :: rest)) (short : path.length ≤ pathLimit) :
      StatementText ('[' :: '[' :: text) (.element path) rest

/-- Lines, each of which is empty or holds a statement. -/
inductive LinesText : List Char → List Statement → Prop where
  | nil : LinesText [] []
  | empty {text next : List Char} {statements : List Statement} (ends : LineEnd text next)
      (others : LinesText next statements) : LinesText text statements
  | statement {text start after next : List Char} {statement : Statement}
      {statements : List Statement}
      (blanks : Blanks text start) (content : StatementText start statement after)
      (ends : LineEnd after next) (others : LinesText next statements) :
      LinesText text (statement :: statements)

/-- A document, with or without a byte order mark. -/
inductive DocumentText : List Char → List Statement → Prop where
  | plain {text : List Char} {statements : List Statement} (lines : LinesText text statements) :
      DocumentText text statements
  | marked {text : List Char} {statements : List Statement} (lines : LinesText text statements) :
      DocumentText ('\ufeff' :: text) statements

end MeshFormation.Toml
