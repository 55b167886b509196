import LiveLayout.Wire.Frame

/-!
# Reading frames in place

A cursor moves along a buffer that stays where it is, and vectors are made for the cells that are
read from it. Each thing that is done is kept with the place of the cursor at that time. A slice
that is not inside the buffer, or a block that is not as long as the words it is read into, is a
crash: it ends the reading in another way than bytes that are refused.
-/

namespace LiveLayout

/-- The bytes that a cell takes at least: all of a number, and the length of a text. -/
def ColumnType.leastWidth : ColumnType → Nat
  | int => 8
  | float32 => 4
  | text => 4

/-- Something that is done while a buffer is read. -/
inductive Access where
  /-- The bytes behind the cursor are counted: its position is subtracted from the length. -/
  | measure
  /-- The next `count` bytes are sliced out of the buffer. -/
  | slice (count : Nat)
  /-- The first `count` bytes of a slice of `held` bytes are looked at. -/
  | look (held count : Nat)
  /-- A vector of `count` cells is made, for which there are `available` bytes of the buffer. -/
  | reserve (type : ColumnType) (count available : Nat)
  /-- A slice of `held` bytes is read into a vector of `count` words of `width` bytes. -/
  | fill (held width count : Nat)
  deriving DecidableEq, Repr

/-- An access, and the position of the cursor when it is made. -/
structure ReadingStep where
  position : Nat
  access : Access
  deriving DecidableEq, Repr

/-- The step cannot be done on a buffer of the given length. -/
def ReadingStep.crashes (length : Nat) (step : ReadingStep) : Bool :=
  match step.access with
  | .measure => length < step.position
  | .slice count => length < step.position + count
  | .look held count => held < count
  | .reserve _ _ _ => false
  | .fill held width count => held != width * count

/-- A position in a buffer, and the steps that were done so far. -/
structure Cursor where
  position : Nat
  steps : List ReadingStep
  deriving DecidableEq, Repr

/-- The cursor in front of a buffer. -/
def Cursor.start : Cursor := ⟨0, []⟩

/-- How reading ends without a value. -/
inductive Halt where
  | refused (error : CodecError)
  | crashed
  deriving DecidableEq, Repr

/-- Reads a value in place. -/
abbrev Scan := ReaderT Bytes (ExceptT Halt (StateM Cursor))

namespace Scan

variable {α : Type}

/-- What a scan of a buffer gives, and the cursor behind it. -/
def run (scan : Scan α) (wire : Bytes) (cursor : Cursor) : Except Halt α × Cursor :=
  scan wire cursor

/-- Refuses the bytes. -/
def refuse (error : CodecError) : Scan α := throw (.refused error)

/-- Makes an access at the cursor. -/
def perform (access : Access) : Scan Unit := do
  let step : ReadingStep := ⟨(← get).position, access⟩
  modify fun cursor => { cursor with steps := cursor.steps ++ [step] }
  if step.crashes (← read).length then throw .crashed

/-- The number of bytes behind the cursor. -/
def remaining : Scan Nat := do
  perform .measure
  return (← read).length - (← get).position

/-- The next `count` bytes. -/
def take (count : Nat) : Scan Bytes := do
  let left ← remaining
  if left < count then refuse .truncated
  else
    perform (.slice count)
    let start := (← get).position
    modify fun cursor => { cursor with position := cursor.position + count }
    return ((← read).drop start).take count

/-- The next byte. -/
def byte : Scan UInt8 := do
  let slice ← take 1
  perform (.look slice.length 1)
  return slice.headD 0

/-- The next word of `width` bytes. -/
def word (width : Nat) : Scan Nat := do
  let slice ← take width
  perform (.look slice.length width)
  return Word.value (slice.take width)

/-- The next text, behind a length field of `width` bytes. -/
def text (width : Nat) (fault : Utf8.Defect → Malformation) : Scan String := do
  let length ← word width
  let slice ← take length
  match Utf8.decode slice with
  | .ok text => return text
  | .error defect => refuse (.malformed (fault defect))

/-- A product of machine words, if it is a machine word. -/
def product? (a b : Nat) : Option Nat :=
  if a * b < UInt64.size then some (a * b) else none

/-- A product of machine words, or the largest machine word. -/
def cappedProduct (a b : Nat) : Nat := min (a * b) (UInt64.size - 1)

/-- The bytes of the next `count` words of `width` bytes. -/
def block (count width : Nat) : Scan Bytes :=
  match product? count width with
  | none => refuse .truncated
  | some length => take length

/-- A vector of `count` zeros. -/
def vector (type : ColumnType) (count available : Nat) : Scan (List Nat) := do
  perform (.reserve type count available)
  return List.replicate count 0

/-- The words of `width` bytes in a block, one for each element of a vector. -/
def words (width : Nat) : List Nat → Bytes → List Nat
  | [], _ => []
  | _ :: vector, block => Word.value (block.take width) :: words width vector (block.drop width)

/-- Reads a block into a vector of words of `width` bytes. -/
def fill (width : Nat) (vector : List Nat) (block : Bytes) : Scan (List Nat) := do
  perform (.fill block.length width vector.length)
  return words width vector block

/-- The next `count` numbers of a column of the given type. -/
def numbers (type : ColumnType) (count : Nat) : Scan (List Nat) := do
  let slice ← block count type.leastWidth
  let zeros ← vector type count slice.length
  fill type.leastWidth zeros slice

/-- The next `count` items, after those already read in reverse. -/
def many (item : Scan α) (items : List α) : Nat → Scan (List α)
  | 0 => return items.reverse
  | count + 1 => do
    let next ← item
    many item (next :: items) count

/-- The next `count` texts of the column of a name. -/
def texts (name : String) (count : Nat) : Scan (List String) := do
  let left ← remaining
  if left < cappedProduct count ColumnType.text.leastWidth then refuse .truncated
  else
    perform (.reserve .text count left)
    many (text 4 (.cellText name)) [] count

end Scan

/-- The cells of a column of `count` rows. -/
def Column.scan (name : String) (count : Nat) : ColumnType → Scan Column
  | .int => do
    let values ← Scan.numbers .int count
    return .int (values.map fun value => (UInt64.ofNat value).toInt64)
  | .float32 => do
    let values ← Scan.numbers .float32 count
    return .float32 (values.map UInt32.ofNat)
  | .text => do
    let values ← Scan.texts name count
    return .text values

/-- The next column of a frame of `count` rows, with its name. -/
def scanColumn (count : Nat) : Scan (String × Column) := do
  let name ← Scan.text 2 .columnName
  let tag ← Scan.byte
  match ColumnType.ofTag? tag with
  | none => Scan.refuse (.unknownColumnType name tag)
  | some type =>
    let column ← Column.scan name count type
    return (name, column)

/-- The next `left` columns of a frame of `count` rows, pushed onto a table. -/
def scanColumns (count : Nat) (table : Table) : Nat → Scan Table
  | 0 => return table
  | left + 1 => do
    let (name, column) ← scanColumn count
    match table.push name column with
    | .error error => Scan.refuse (.malformed (.schema error))
    | .ok grown => scanColumns count grown left

/-- The header of a frame. -/
def FrameHeader.scan : Scan FrameHeader := do
  let left ← Scan.remaining
  if left < Frame.headerLength then Scan.refuse .truncated
  else
    let magic ← Scan.take 4
    if magic ≠ Frame.magic then
      Scan.perform (.fill magic.length 1 4)
      Scan.refuse (.invalidMagic magic)
    else
      let version ← Scan.byte
      if version ≠ Frame.version then Scan.refuse (.unsupportedVersion version)
      else
        let tag ← Scan.byte
        match FrameKind.ofTag? tag with
        | none => Scan.refuse (.invalidKind tag)
        | some kind =>
          let iteration ← Scan.word 8
          let rows ← Scan.word 4
          let columns ← Scan.word 2
          return ⟨kind, UInt64.ofNat iteration, UInt32.ofNat rows, UInt16.ofNat columns⟩

/-- The frame that a buffer holds. -/
def Frame.scan : Scan Frame := do
  let header ← FrameHeader.scan
  let table ← scanColumns header.rows.toNat Table.empty header.columns.toNat
  let left ← Scan.remaining
  if left ≠ 0 then
    let trailing ← Scan.remaining
    Scan.refuse (.trailingBytes trailing)
  else if header.columns = 0 then
    match table.withRowCount header.rows.toNat with
    | .error error => Scan.refuse (.malformed (.schema error))
    | .ok table => return ⟨header.kind, header.iteration, table⟩
  else return ⟨header.kind, header.iteration, table⟩

end LiveLayout
