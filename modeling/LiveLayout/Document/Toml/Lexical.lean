import LiveLayout.Text.Digits

/-!
# TOML: blanks, comments and texts

The smallest parts of a TOML document. A reader takes what it reads off the front of the
characters and returns the rest, or nothing if what stands there is not of its kind.
-/

namespace LiveLayout.Toml

/-- Takes a value off the front of characters. -/
abbrev Scan (α : Type) := List Char → Option (α × List Char)

/-- A blank inside a line. -/
def isBlankChar (c : Char) : Bool := c = ' ' || c = '\t'

/-- A character that may stand in a line as it is: a tab, or anything but a control code. -/
def isLineChar (c : Char) : Bool := c = '\t' || (0x20 ≤ c.toNat && c.toNat ≠ 0x7F)

/-- Drops blanks inside a line. -/
def skipBlank (text : List Char) : List Char := text.dropWhile isBlankChar

/-- The rest after a line break, which is a line feed with or without a carriage return. -/
def lineBreak? : List Char → Option (List Char)
  | '\n' :: rest => some rest
  | '\r' :: '\n' :: rest => some rest
  | _ => none

/-- Drops a comment. -/
def skipComment : List Char → List Char
  | '#' :: rest => rest.dropWhile isLineChar
  | text => text

/-- The rest after the end of a line that holds nothing more, or at the end of the document. -/
def lineEnd? (text : List Char) : Option (List Char) :=
  match skipComment (skipBlank text) with
  | [] => some []
  | rest => lineBreak? rest

/-- Drops blanks, line breaks and comments. -/
def skipLines (inComment : Bool) : List Char → List Char
  | [] => []
  | '\r' :: '\n' :: rest => skipLines false rest
  | c :: rest =>
    if inComment && isLineChar c then skipLines true rest
    else if isBlankChar c || c = '\n' then skipLines false rest
    else if c = '#' then skipLines true rest
    else c :: rest

/-! ## Texts -/

/-- The character of a number in base sixteen; surrogates and numbers past the last code point
are no characters. -/
def scalar? (digits : List Char) : Option Char := do
  let n ← numberIn? 16 digits
  if n < 0xD800 ∨ (0xE000 ≤ n ∧ n < 0x110000) then some (Char.ofNat n) else none

/-- The character that a letter after a backslash stands for. -/
def escaped? (c : Char) : Option Char :=
  match c with
  | 'b' => some '\x08'
  | 't' => some '\t'
  | 'n' => some '\n'
  | 'f' => some '\x0c'
  | 'r' => some '\r'
  | '"' => some '"'
  | '\\' => some '\\'
  | _ => none

/-- The rest of a text in double quotes, with the characters so far in reverse. -/
def basicRest (done : List Char) : Scan String
  | '"' :: rest => some (String.ofList done.reverse, rest)
  | '\\' :: 'u' :: a :: b :: c :: d :: rest =>
    match scalar? [a, b, c, d] with
    | some char => basicRest (char :: done) rest
    | none => none
  | '\\' :: 'U' :: a :: b :: c :: d :: e :: f :: g :: h :: rest =>
    match scalar? [a, b, c, d, e, f, g, h] with
    | some char => basicRest (char :: done) rest
    | none => none
  | '\\' :: c :: rest =>
    match escaped? c with
    | some char => basicRest (char :: done) rest
    | none => none
  | c :: rest => if isLineChar c && c ≠ '\\' then basicRest (c :: done) rest else none
  | [] => none

/-- The rest of a text in single quotes. -/
def literalRest (done : List Char) : Scan String
  | '\'' :: rest => some (String.ofList done.reverse, rest)
  | c :: rest => if isLineChar c then literalRest (c :: done) rest else none
  | [] => none

/-- A backslash in front of these characters joins the line to the next one that is not blank. -/
def joinsLines (text : List Char) : Bool := (lineBreak? (skipBlank text)).isSome

/-- The rest of a text in three double quotes. Up to two quotes in front of the closing three
belong to the text. While `joining`, blanks and line breaks are dropped. -/
def longBasicRest (joining : Bool) (done : List Char) : Scan String
  | '\n' :: rest => longBasicRest joining (if joining then done else '\n' :: done) rest
  | '\r' :: '\n' :: rest => longBasicRest joining (if joining then done else '\n' :: done) rest
  | '"' :: '"' :: '"' :: '"' :: '"' :: rest =>
    some (String.ofList ('"' :: '"' :: done).reverse, rest)
  | '"' :: '"' :: '"' :: '"' :: rest => some (String.ofList ('"' :: done).reverse, rest)
  | '"' :: '"' :: '"' :: rest => some (String.ofList done.reverse, rest)
  | '\\' :: 'u' :: a :: b :: c :: d :: rest =>
    match scalar? [a, b, c, d] with
    | some char => longBasicRest false (char :: done) rest
    | none => none
  | '\\' :: 'U' :: a :: b :: c :: d :: e :: f :: g :: h :: rest =>
    match scalar? [a, b, c, d, e, f, g, h] with
    | some char => longBasicRest false (char :: done) rest
    | none => none
  | '\\' :: c :: rest =>
    match escaped? c with
    | some char => longBasicRest false (char :: done) rest
    | none =>
      if joinsLines (c :: rest) then
        if c = '\r' || c = '\n' || isBlankChar c then longBasicRest true done rest else none
      else none
  | c :: rest =>
    if joining && isBlankChar c then longBasicRest true done rest
    else if isLineChar c && c ≠ '\\' then longBasicRest false (c :: done) rest
    else none
  | [] => none

/-- The rest of a text in three single quotes. Up to two quotes in front of the closing three
belong to the text. -/
def longLiteralRest (done : List Char) : Scan String
  | '\n' :: rest => longLiteralRest ('\n' :: done) rest
  | '\r' :: '\n' :: rest => longLiteralRest ('\n' :: done) rest
  | '\'' :: '\'' :: '\'' :: '\'' :: '\'' :: rest =>
    some (String.ofList ('\'' :: '\'' :: done).reverse, rest)
  | '\'' :: '\'' :: '\'' :: '\'' :: rest => some (String.ofList ('\'' :: done).reverse, rest)
  | '\'' :: '\'' :: '\'' :: rest => some (String.ofList done.reverse, rest)
  | c :: rest => if isLineChar c then longLiteralRest (c :: done) rest else none
  | [] => none

/-- Drops a line break, as after three opening quotes. -/
def skipFirstBreak (text : List Char) : List Char := (lineBreak? text).getD text

/-- A text in one of the four kinds of quotes. -/
def text? : Scan String
  | '"' :: '"' :: '"' :: rest => longBasicRest false [] (skipFirstBreak rest)
  | '\'' :: '\'' :: '\'' :: rest => longLiteralRest [] (skipFirstBreak rest)
  | '"' :: rest => basicRest [] rest
  | '\'' :: rest => literalRest [] rest
  | _ => none

/-! ## Keys -/

/-- A character of a key without quotes. -/
def isBareChar (c : Char) : Bool := c.isAlphanum || c = '_' || c = '-'

/-- One part of a key. -/
def keyPart? : Scan String
  | '"' :: rest => basicRest [] rest
  | '\'' :: rest => literalRest [] rest
  | text =>
    let part := text.takeWhile isBareChar
    if part.isEmpty then none else some (String.ofList part, text.drop part.length)

/-- The parts of a key with dots, at most `most` of them, and the blanks around each. -/
def key? : Nat → Scan (List String)
  | 0, _ => none
  | most + 1, text =>
    match keyPart? (skipBlank text) with
    | none => none
    | some (part, rest) =>
      match skipBlank rest with
      | '.' :: rest => (key? most rest).map fun (parts, rest) => (part :: parts, rest)
      | rest => some ([part], rest)

end LiveLayout.Toml
