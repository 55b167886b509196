import LiveLayout.Document.Toml.Scalar
import LiveLayout.Document.Toml.Tree

/-!
# TOML documents

A document is a sequence of lines: entries, headers, comments and blank lines. Lists and tables in
braces nest at most 79 deep, and keys have at most 79 parts.
-/

namespace LiveLayout.Toml

/-- The deepest nesting of values, and the most parts of a key. -/
def depthLimit : Nat := 79

/-! ## Values -/

/-- The items of a list up to its closing bracket, read by `item`; `fuel` bounds their number. -/
def listRest (item : Scan Datum) (done : List Datum) : Nat → Scan (List Datum)
  | 0, _ => none
  | fuel + 1, text =>
    match skipLines false text with
    | ']' :: rest => some (done.reverse, rest)
    | text =>
      match item text with
      | none => none
      | some (value, rest) =>
        match skipLines false rest with
        | ',' :: rest => listRest item (value :: done) fuel rest
        | ']' :: rest => some ((value :: done).reverse, rest)
        | _ => none

/-- A key, an equals sign and a value. -/
def entry? (item : Scan Datum) : Scan (List String × Datum) := fun text => do
  let (path, rest) ← key? depthLimit text
  let rest ← mark? '=' rest
  let (value, rest) ← item (skipBlank rest)
  some ((path, value), rest)

/-- The entries of a table in braces up to its closing brace; `fuel` bounds their number. -/
def inlineRest (item : Scan Datum) (node : Node) : Nat → Scan Node
  | 0, _ => none
  | fuel + 1, text =>
    match entry? item text with
    | none => none
    | some ((path, value), rest) =>
      match node.assign path value with
      | none => none
      | some node =>
        match skipBlank rest with
        | ',' :: rest => inlineRest item node fuel rest
        | '\x7d' :: rest => some (node, rest)
        | _ => none

/-- A table in braces, after the opening one. -/
def inlineTable? (item : Scan Datum) : Scan Datum := fun text =>
  match skipBlank text with
  | '\x7d' :: rest => some (.table [], rest)
  | text => (inlineRest item .root text.length text).map fun (node, rest) => (node.toDatum, rest)

/-- A value that nests nothing. -/
def scalarValue? : Scan Datum := fun text =>
  match text with
  | '"' :: _ | '\'' :: _ => (text? text).map fun (value, rest) => (.text value, rest)
  | 't' :: 'r' :: 'u' :: 'e' :: rest => some (.bool true, rest)
  | 'f' :: 'a' :: 'l' :: 's' :: 'e' :: rest => some (.bool false, rest)
  | _ => if looksLikeDate text then dateTime? text else number? text

/-- A value that nests at most `depth` deep. -/
def value? : Nat → Scan Datum
  | 0, text => scalarValue? text
  | depth + 1, text =>
    match text with
    | '[' :: rest =>
      (listRest (value? depth) [] (rest.length + 1) rest).map fun (items, rest) =>
        (.list items, rest)
    | '\x7b' :: rest => inlineTable? (value? depth) rest
    | _ => scalarValue? text

/-! ## Lines -/

/-- The header of a table: its path between brackets, two of each for a table of a list. -/
def header? : Scan (Bool × List String)
  | '[' :: '[' :: rest => do
    let (path, rest) ← key? depthLimit rest
    let rest ← mark? ']' (← mark? ']' rest)
    some ((true, path), ← lineEnd? rest)
  | '[' :: rest => do
    let (path, rest) ← key? depthLimit rest
    some ((false, path), ← lineEnd? (← mark? ']' rest))
  | _ => none

/-- The lines of a document from some place on; `fuel` bounds their number. -/
def lines (node : Node) (header : List String) : Nat → List Char → Option Node
  | 0, _ => none
  | fuel + 1, text =>
    match skipBlank text with
    | [] => some node
    | '[' :: rest => do
      let ((isRow, path), rest) ← header? ('[' :: rest)
      lines (← node.openHeader isRow path) path fuel rest
    | c :: rest =>
      if c = '#' || c = '\n' || c = '\r' then do
        lines node header fuel (← lineEnd? (c :: rest))
      else do
        let ((path, value), rest) ← entry? (value? depthLimit) (c :: rest)
        lines (← node.assignUnder header path value) header fuel (← lineEnd? rest)

/-- Drops a byte order mark. -/
def skipMark : List Char → List Char
  | '\uFEFF' :: rest => rest
  | text => text

/-- The table that a document spells. -/
def parse? (text : String) : Option Datum :=
  let text := skipMark text.toList
  (lines .root [] (text.length + 1) text).map Node.toDatum

end LiveLayout.Toml
