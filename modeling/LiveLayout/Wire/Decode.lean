import LiveLayout.Wire.Frame

/-!
# Reading frames

A reader takes what it reads off the front of the bytes and returns the rest. A frame is read to
its last byte: bytes left over are an error, and so are bytes that run out. Cells are only read
once the bytes are known to hold the shortest column of that many rows.
-/

namespace LiveLayout

/-- Takes a value off the front of bytes. -/
abbrev Reader (α : Type) := Bytes → Except CodecError (α × Bytes)

namespace Reader

/-- The next `count` bytes. -/
def take (count : Nat) : Reader Bytes := fun bytes =>
  let (front, rest) := bytes.splitAt count
  if front.length < count then .error .truncated else .ok (front, rest)

/-- The next word of `width` bytes. -/
def word (width : Nat) : Reader Nat := fun bytes => do
  let (front, rest) ← take width bytes
  return (Word.value front, rest)

/-- The next byte. -/
def byte : Reader UInt8
  | [] => .error .truncated
  | first :: rest => .ok (first, rest)

/-- The next `count` items, after those already read in reverse. -/
def many {α : Type} (item : Reader α) (items : List α) : Nat → Reader (List α)
  | 0, bytes => .ok (items.reverse, bytes)
  | count + 1, bytes =>
    match item bytes with
    | .error error => .error error
    | .ok (next, rest) => many item (next :: items) count rest

/-- The next `rows` items, once there are `width` bytes for each. -/
def rows {α : Type} (width count : Nat) (item : Reader α) : Reader (List α) := fun bytes =>
  if bytes.length < count * width then .error .truncated else many item [] count bytes

/-- The next text, behind a length field of `width` bytes. -/
def text (width : Nat) (fault : Utf8.Defect → Malformation) : Reader String := fun bytes => do
  let (length, rest) ← word width bytes
  let (front, rest) ← take length rest
  match Utf8.decode front with
  | .ok text => return (text, rest)
  | .error defect => .error (.malformed (fault defect))

end Reader

/-- The cells of a column of `count` rows. -/
def Column.read (name : String) (count : Nat) : ColumnType → Reader Column
  | .int, bytes => do
    let cell : Reader Int64 := fun bytes => do
      let (value, rest) ← Reader.word 8 bytes
      return ((UInt64.ofNat value).toInt64, rest)
    let (values, rest) ← Reader.rows 8 count cell bytes
    return (.int values, rest)
  | .float32, bytes => do
    let cell : Reader UInt32 := fun bytes => do
      let (value, rest) ← Reader.word 4 bytes
      return (UInt32.ofNat value, rest)
    let (values, rest) ← Reader.rows 4 count cell bytes
    return (.float32 values, rest)
  | .text, bytes => do
    let (values, rest) ← Reader.rows 4 count (Reader.text 4 (.cellText name)) bytes
    return (.text values, rest)

/-- The next column of a frame of `count` rows, with its name. -/
def readColumn (count : Nat) : Reader (String × Column) := fun bytes => do
  let (name, rest) ← Reader.text 2 .columnName bytes
  let (tag, rest) ← Reader.byte rest
  match ColumnType.ofTag? tag with
  | none => .error (.unknownColumnType name tag)
  | some type => do
    let (column, rest) ← Column.read name count type rest
    return ((name, column), rest)

/-- The header of a frame. -/
def FrameHeader.read : Reader FrameHeader := fun bytes => do
  if bytes.length < Frame.headerLength then .error .truncated
  let (magic, rest) ← Reader.take 4 bytes
  if magic ≠ Frame.magic then .error (.invalidMagic magic)
  let (version, rest) ← Reader.byte rest
  if version ≠ Frame.version then .error (.unsupportedVersion version)
  let (tag, rest) ← Reader.byte rest
  let some kind := FrameKind.ofTag? tag | .error (.invalidKind tag)
  let (iteration, rest) ← Reader.word 8 rest
  let (rows, rest) ← Reader.word 4 rest
  let (columns, rest) ← Reader.word 2 rest
  return (⟨kind, UInt64.ofNat iteration, UInt32.ofNat rows, UInt16.ofNat columns⟩, rest)

/-- The header of a frame, whatever comes after it. -/
def FrameHeader.peek (bytes : Bytes) : Except CodecError FrameHeader :=
  Prod.fst <$> FrameHeader.read bytes

/-- The next `left` columns of a frame of `count` rows, pushed onto a table. -/
def readColumns (count : Nat) (table : Table) : Nat → Reader Table
  | 0, bytes => .ok (table, bytes)
  | left + 1, bytes => do
    let ((name, column), rest) ← readColumn count bytes
    match table.push name column with
    | .error error => .error (.malformed (.schema error))
    | .ok grown => readColumns count grown left rest

/-- The frame that bytes spell. -/
def Frame.decode (bytes : Bytes) : Except CodecError Frame := do
  let (header, rest) ← FrameHeader.read bytes
  let (table, rest) ← readColumns header.rows.toNat Table.empty header.columns.toNat rest
  if rest.length ≠ 0 then .error (.trailingBytes rest.length)
  if header.columns = 0 then
    match table.withRowCount header.rows.toNat with
    | .error error => .error (.malformed (.schema error))
    | .ok table => return ⟨header.kind, header.iteration, table⟩
  return ⟨header.kind, header.iteration, table⟩

/-- The message that bytes spell. -/
def Message.decode (bytes : Bytes) : Except CodecError Message :=
  if bytes = closeSentinel then .ok .close else Message.frame <$> Frame.decode bytes

end LiveLayout
