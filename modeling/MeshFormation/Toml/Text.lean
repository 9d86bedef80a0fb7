import MeshFormation.Hexadecimal

/-!
# TOML strings and keys

Strings in double quotes know escapes, strings in single quotes do not. Either may be a block in
tripled quotes, which can hold line breaks, and in which one or two quotes may stand anywhere. The
readers answer the characters of a string and the rest of the text behind its closing quotes.
-/

namespace MeshFormation.Toml

def isBlank (c : Char) : Bool := c == ' ' || c == '\t'

def skipBlank (text : List Char) : List Char := text.dropWhile isBlank

/-- A character that may stand in a string or a comment: no control character but the tab. -/
def isPrintable (c : Char) : Bool := c == '\t' || (' ' ≤ c && c != '\x7f')

/-- The character of an escape with a single letter. -/
def shortEscape? : Char → Option Char
  | '"' => some '"'
  | '\\' => some '\\'
  | 'b' => some '\x08'
  | 'f' => some '\x0c'
  | 'n' => some '\n'
  | 'r' => some '\r'
  | 't' => some '\t'
  | _ => none

/-- The character whose code point is given by hexadecimal digits. -/
def codeEscape? (digits : List Char) : Option Char :=
  (Hexadecimal.ofDigits? digits).bind Hexadecimal.scalar?

/-- A string in double quotes, behind its opening quote. -/
def readBasic : List Char → Option (List Char × List Char)
  | [] => none
  | '"' :: rest => some ([], rest)
  | '\\' :: 'u' :: a :: b :: c :: d :: rest =>
    match codeEscape? [a, b, c, d], readBasic rest with
    | some char, some (chars, rest) => some (char :: chars, rest)
    | _, _ => none
  | '\\' :: 'U' :: a :: b :: c :: d :: e :: f :: g :: h :: rest =>
    match codeEscape? [a, b, c, d, e, f, g, h], readBasic rest with
    | some char, some (chars, rest) => some (char :: chars, rest)
    | _, _ => none
  | '\\' :: letter :: rest =>
    match shortEscape? letter, readBasic rest with
    | some char, some (chars, rest) => some (char :: chars, rest)
    | _, _ => none
  | c :: rest =>
    if isPrintable c then (readBasic rest).map fun (chars, rest) => (c :: chars, rest) else none

/-- A string in single quotes, behind its opening quote. -/
def readLiteral : List Char → Option (List Char × List Char)
  | [] => none
  | '\'' :: rest => some ([], rest)
  | c :: rest =>
    if isPrintable c then (readLiteral rest).map fun (chars, rest) => (c :: chars, rest) else none

/-- The rest behind a line break, if the text starts with one. -/
def lineBreak? : List Char → Option (List Char)
  | '\n' :: rest => some rest
  | '\r' :: '\n' :: rest => some rest
  | _ => none

/-- The rest of a block behind the line break that may follow its opening quotes. -/
def skipFirstBreak (text : List Char) : List Char := (lineBreak? text).getD text

/-- Up to two quotes that stand before the three closing quotes of a block. -/
def closeBlock (quote : Char) : List Char → List Char × List Char
  | first :: second :: rest =>
    if first = quote then
      if second = quote then ([quote, quote], rest) else ([quote], second :: rest)
    else ([], first :: second :: rest)
  | [first] => if first = quote then ([quote], []) else ([], [first])
  | [] => ([], [])

/-- A block in double quotes, behind its opening quotes. A backslash at the end of a line removes
the line break and all white space and line breaks behind it; the flag says that this is going
on. -/
def readBasicBlock : Bool → List Char → Option (List Char × List Char)
  | _, [] => none
  | _, '"' :: '"' :: '"' :: rest => some (closeBlock '"' rest)
  | trimming, '\r' :: '\n' :: rest =>
    if trimming then readBasicBlock true rest
    else (readBasicBlock false rest).map fun (chars, rest) => ('\n' :: chars, rest)
  | trimming, '\n' :: rest =>
    if trimming then readBasicBlock true rest
    else (readBasicBlock false rest).map fun (chars, rest) => ('\n' :: chars, rest)
  | _, '\\' :: 'u' :: a :: b :: c :: d :: rest =>
    match codeEscape? [a, b, c, d], readBasicBlock false rest with
    | some char, some (chars, rest) => some (char :: chars, rest)
    | _, _ => none
  | _, '\\' :: 'U' :: a :: b :: c :: d :: e :: f :: g :: h :: rest =>
    match codeEscape? [a, b, c, d, e, f, g, h], readBasicBlock false rest with
    | some char, some (chars, rest) => some (char :: chars, rest)
    | _, _ => none
  | _, '\\' :: letter :: rest =>
    if (lineBreak? (skipBlank (letter :: rest))).isSome then readBasicBlock true (letter :: rest)
    else
      match shortEscape? letter, readBasicBlock false rest with
      | some char, some (chars, rest) => some (char :: chars, rest)
      | _, _ => none
  | trimming, c :: rest =>
    if trimming && isBlank c then readBasicBlock true rest
    else if isPrintable c then
      (readBasicBlock false rest).map fun (chars, rest) => (c :: chars, rest)
    else none

/-- A block in single quotes, behind its opening quotes. -/
def readLiteralBlock : List Char → Option (List Char × List Char)
  | [] => none
  | '\'' :: '\'' :: '\'' :: rest => some (closeBlock '\'' rest)
  | '\r' :: '\n' :: rest =>
    (readLiteralBlock rest).map fun (chars, rest) => ('\n' :: chars, rest)
  | '\n' :: rest => (readLiteralBlock rest).map fun (chars, rest) => ('\n' :: chars, rest)
  | c :: rest =>
    if isPrintable c then (readLiteralBlock rest).map fun (chars, rest) => (c :: chars, rest)
    else none

def ofChars (result : Option (List Char × List Char)) : Option (String × List Char) :=
  result.map fun (chars, rest) => (String.ofList chars, rest)

def readString : List Char → Option (String × List Char)
  | '"' :: '"' :: '"' :: rest => ofChars (readBasicBlock false (skipFirstBreak rest))
  | '"' :: rest => ofChars (readBasic rest)
  | '\'' :: '\'' :: '\'' :: rest => ofChars (readLiteralBlock (skipFirstBreak rest))
  | '\'' :: rest => ofChars (readLiteral rest)
  | _ => none

def isBare (c : Char) : Bool := c.isAlphanum || c == '_' || c == '-'

/-- A key without dots: a string on one line, or bare characters. -/
def readKey : List Char → Option (String × List Char)
  | '"' :: rest => (readBasic rest).map fun (chars, rest) => (String.ofList chars, rest)
  | '\'' :: rest => (readLiteral rest).map fun (chars, rest) => (String.ofList chars, rest)
  | text =>
    match text.takeWhile isBare with
    | [] => none
    | chars => some (String.ofList chars, text.dropWhile isBare)

/-- The parts of a dotted key, with white space around each, at most the given number. -/
def readPath : Nat → List Char → Option (List String × List Char)
  | 0, _ => none
  | parts + 1, text =>
    match readKey (skipBlank text) with
    | none => none
    | some (key, rest) =>
      match skipBlank rest with
      | '.' :: rest => (readPath parts rest).map fun (path, rest) => (key :: path, rest)
      | rest => some ([key], rest)

end MeshFormation.Toml
