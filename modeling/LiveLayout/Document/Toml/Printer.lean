import LiveLayout.Document.Datum

/-!
# TOML: printed values

A text is printed in the plainest quotes that can hold it as it is: double, single, three double,
three single; escapes are the last resort. A list of two items or more has one item a line.
-/

namespace LiveLayout.Toml

/-- The longest run of a character in a text. -/
def longestRun (c : Char) (text : List Char) : Nat :=
  (text.foldl (fun (best, run) d =>
    let run := if d = c then run + 1 else 0
    (max best run, run)) (0, 0)).1

/-- A control code, other than the tab and the line feed, which quotes can hold. -/
def isControl (c : Char) : Bool :=
  (c.toNat < 0x20 && c ≠ '\t' && c ≠ '\n') || c.toNat = 0x7F

/-- A digit in base sixteen. -/
def upperHexDigit (n : Nat) : Char := "0123456789ABCDEF".toList[n]?.getD '0'

/-- The escape of a character that double quotes cannot hold, if it is one. -/
def escape? (c : Char) : Option String :=
  if c = '\x08' then some "\\b"
  else if c = '\t' then some "\\t"
  else if c = '\x0c' then some "\\f"
  else if c = '\r' then some "\\r"
  else if c = '\\' then some "\\\\"
  else if isControl c then
    some ("\\u00" ++ String.ofList [upperHexDigit (c.toNat / 16), upperHexDigit (c.toNat % 16)])
  else none

/-- The inside of double quotes, where a run of more than `quotes` quotes is broken by an escape
and line feeds stand as they are only if `long`. `run` is the length of the run so far. -/
def escapeText (long : Bool) (quotes run : Nat) : List Char → String
  | [] => ""
  | c :: rest =>
    if c = '"' then
      if run < quotes then "\"" ++ escapeText long quotes (run + 1) rest
      else "\\\"" ++ escapeText long quotes 0 rest
    else
      let shown :=
        if c = '\n' then (if long then "\n" else "\\n") else (escape? c).getD c.toString
      shown ++ escapeText long quotes 0 rest

/-- A text in quotes. -/
def quote (text : String) : String :=
  let chars := text.toList
  let control := chars.any isControl
  let backslash := chars.contains '\\'
  let newline := chars.contains '\n'
  let double := longestRun '"' chars
  let single := longestRun '\'' chars
  let start := if newline then "\n" else ""
  let basic := "\"" ++ escapeText false 0 0 chars ++ "\""
  let longBasic := "\"\"\"" ++ start ++ escapeText true 2 0 chars ++ "\"\"\""
  if !control && !backslash && double = 0 && !newline then basic
  else if !control && single = 0 && !newline then "'" ++ text ++ "'"
  else if !control && !backslash && double ≤ 2 then longBasic
  else if !control && single ≤ 2 then "'''" ++ start ++ text ++ "'''"
  else if newline then longBasic
  else basic

/-- A list of texts. -/
def quoteList (texts : List String) : String :=
  match texts with
  | [] => "[]"
  | [text] => "[" ++ quote text ++ "]"
  | _ => "[\n" ++ String.join (texts.map fun text => "    " ++ quote text ++ ",\n") ++ "]"

end LiveLayout.Toml
