import LiveLayout.Wire.Frame

/-!
# Writing frames

The wire form of a table exists when its counts and lengths fit their fields and each column has
one cell a row. Sizes of the whole table are looked at before its columns, and columns in order.
-/

namespace LiveLayout

/-- A text behind a length field of `width` bytes. -/
def encodeText (width : Nat) (bytes : Bytes) : Bytes :=
  Word.encode width bytes.length ++ bytes

/-- A text cell, if its length fits four bytes. -/
def encodeTextCell (text : String) : Except CodecError Bytes :=
  let bytes := Utf8.encode text
  if bytes.length < UInt32.size then .ok (encodeText 4 bytes)
  else .error (.tooLarge (.cellText bytes.length))

/-- The cells of a column, one after another. -/
def Column.encodeCells : Column → Except CodecError Bytes
  | int values => .ok (values.flatMap fun value => Word.encode 8 value.toUInt64.toNat)
  | float32 bits => .ok (bits.flatMap fun value => Word.encode 4 value.toNat)
  | text values => List.flatten <$> values.mapM encodeTextCell

/-- A column of a frame of `rows` rows: its name, its type and its cells. -/
def encodeColumn (rows : Nat) (entry : String × Column) : Except CodecError Bytes := do
  let (name, column) := entry
  if column.length ≠ rows then
    .error (.malformed (.columnRows name column.length rows))
  let bytes := Utf8.encode name
  if UInt16.size ≤ bytes.length then .error (.tooLarge (.columnName bytes.length))
  let cells ← column.encodeCells
  return encodeText 2 bytes ++ column.type.tag :: cells

/-- The header of a frame. -/
def FrameHeader.encode (header : FrameHeader) : Bytes :=
  Frame.magic ++ Frame.version :: header.kind.tag ::
    (Word.encode 8 header.iteration.toNat ++ Word.encode 4 header.rows.toNat ++
      Word.encode 2 header.columns.toNat)

/-- The frame of `rows` rows with the given columns. -/
def encodeColumns (kind : FrameKind) (iteration : UInt64) (rows : Nat)
    (columns : List (String × Column)) : Except CodecError Bytes := do
  if UInt32.size ≤ rows then .error (.tooLarge (.rows rows))
  if UInt16.size ≤ columns.length then .error (.tooLarge (.columns columns.length))
  let header : FrameHeader :=
    ⟨kind, iteration, UInt32.ofNat rows, UInt16.ofNat columns.length⟩
  let blocks ← columns.mapM (encodeColumn rows)
  return header.encode ++ blocks.flatten

/-- The frame of a table. -/
def Table.encode (table : Table) (kind : FrameKind) (iteration : UInt64) :
    Except CodecError Bytes :=
  encodeColumns kind iteration table.rowCount table.columns

/-- The wire form of a frame. -/
def Frame.encode (frame : Frame) : Except CodecError Bytes :=
  frame.table.encode frame.kind frame.iteration

end LiveLayout
