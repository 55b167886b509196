import LiveLayout.Document.Datum

/-!
# Printed records

Documents in JSON, one entry a line, indented by two blanks a level.
-/

namespace LiveLayout.Json

/-- The digits of a number below sixteen. -/
def hexDigit (n : Nat) : Char := "0123456789abcdef".toList[n]?.getD '0'

/-- A character inside a quoted text. -/
def escape (c : Char) : String :=
  if c = '"' then "\\\""
  else if c = '\\' then "\\\\"
  else if c = '\n' then "\\n"
  else if c = '\r' then "\\r"
  else if c = '\t' then "\\t"
  else if c = '\x08' then "\\b"
  else if c = '\x0c' then "\\f"
  else if c.toNat < 0x20 then
    "\\u00" ++ String.ofList [hexDigit (c.toNat / 16), hexDigit (c.toNat % 16)]
  else c.toString

/-- A text in quotes. -/
def quote (text : String) : String := "\"" ++ String.join (text.toList.map escape) ++ "\""

/-- The start of a line at some depth. -/
def indent (depth : Nat) : String := String.ofList (List.replicate (2 * depth) ' ')

/-- Items between brackets, one a line. -/
def block (opening closing : String) (depth : Nat) (items : List String) : String :=
  if items.isEmpty then opening ++ closing
  else
    opening ++ "\n" ++ ",\n".intercalate (items.map (indent (depth + 1) ++ ·)) ++ "\n" ++
      indent depth ++ closing

mutual

/-- A document at some depth. -/
def renderAt (depth : Nat) : Datum → String
  | .null => "null"
  | .bool value => if value then "true" else "false"
  | .int value => toString value
  | .float spelling => spelling
  | .date spelling => quote spelling
  | .text value => quote value
  | .list items => block "[" "]" depth (renderItems (depth + 1) items)
  | .table entries => block "\x7b" "\x7d" depth (renderEntries (depth + 1) entries)

/-- The items of a list at some depth. -/
def renderItems (depth : Nat) : List Datum → List String
  | [] => []
  | item :: rest => renderAt depth item :: renderItems depth rest

/-- The entries of a table at some depth. -/
def renderEntries (depth : Nat) : List (String × Datum) → List String
  | [] => []
  | (name, value) :: rest =>
    (quote name ++ ": " ++ renderAt depth value) :: renderEntries depth rest

end

/-- A document. -/
def render (datum : Datum) : String := renderAt 0 datum

end LiveLayout.Json
