import LiveLayout.Table.Basic
import LiveLayout.Wire.Word

/-!
# Frames

A frame is a table on the wire: a header of twenty bytes, then each column with its name, its type
and its cells. All words are little-endian.

    magic 4 · version 1 · kind 1 · iteration 8 · rows 4 · columns 2
    per column: name length 2 · name · type 1 · cells
    per cell: int 8 · float32 4 · text: length 4 · bytes
-/

namespace LiveLayout

/-- What the rows of a frame are. -/
inductive FrameKind where
  | nodes
  | edges
  deriving DecidableEq, Repr

namespace FrameKind

/-- The byte that stands for a kind on the wire. -/
def tag : FrameKind → UInt8
  | nodes => 1
  | edges => 2

/-- The kind that a byte stands for. -/
def ofTag? (tag : UInt8) : Option FrameKind :=
  if tag = 1 then some nodes else if tag = 2 then some edges else none

/-- The name of a kind. -/
def name : FrameKind → String
  | nodes => "nodes"
  | edges => "edges"

end FrameKind

/-- A table with what it describes and the iteration it belongs to. -/
structure Frame where
  kind : FrameKind
  iteration : UInt64
  table : Table
  deriving DecidableEq, Repr

/-- The fixed part of a frame, in front of its columns. -/
structure FrameHeader where
  kind : FrameKind
  iteration : UInt64
  rows : UInt32
  columns : UInt16
  deriving DecidableEq, Repr

/-- One message of a stream: a frame, or the sentinel that ends the stream. -/
inductive Message where
  | frame (frame : Frame)
  | close
  deriving DecidableEq, Repr

namespace Frame

/-- The first four bytes of every frame: "GLSF". -/
def magic : Bytes := [71, 76, 83, 70]

/-- The version of this layout. -/
def version : UInt8 := 1

/-- The number of bytes of a header. -/
def headerLength : Nat := 20

end Frame

/-- The payload that ends a stream: "close". It is shorter than a header, so no frame equals it. -/
def closeSentinel : Bytes := [99, 108, 111, 115, 101]

/-- What is wrong inside a frame. -/
inductive Malformation where
  | columnName (defect : Utf8.Defect)
  | cellText (column : String) (defect : Utf8.Defect)
  | columnRows (column : String) (length rows : Nat)
  | schema (error : SchemaError)
  | described (text : String)
  deriving DecidableEq, Repr

/-- The wording of a malformation. -/
def Malformation.message : Malformation → String
  | columnName defect => s!"column name is not utf-8: {defect.message}"
  | cellText column defect => s!"column '{column}' holds invalid utf-8: {defect.message}"
  | columnRows column length rows => s!"column '{column}' has {length} rows, frame has {rows}"
  | schema error => s!"Schema mismatch: {error.message}"
  | described text => text

/-- What does not fit the width of its length field. -/
inductive Excess where
  | rows (count : Nat)
  | columns (count : Nat)
  | columnName (bytes : Nat)
  | cellText (bytes : Nat)
  | described (text : String)
  deriving DecidableEq, Repr

/-- The wording of an excess. -/
def Excess.message : Excess → String
  | rows count => s!"{count} rows"
  | columns count => s!"{count} columns"
  | columnName bytes => s!"column name of {bytes} bytes"
  | cellText bytes => s!"string of {bytes} bytes"
  | described text => text

/-- Why a table has no wire form, or bytes are no frame. -/
inductive CodecError where
  | invalidMagic (bytes : Bytes)
  | unsupportedVersion (version : UInt8)
  | invalidKind (tag : UInt8)
  | unknownColumnType (column : String) (tag : UInt8)
  | truncated
  | trailingBytes (count : Nat)
  | malformed (fault : Malformation)
  | tooLarge (excess : Excess)
  deriving DecidableEq, Repr

/-- The wording of a codec error. -/
def CodecError.message : CodecError → String
  | invalidMagic bytes =>
    "invalid frame magic: [" ++ ", ".intercalate (bytes.map fun byte => toString byte.toNat) ++ "]"
  | unsupportedVersion version => s!"unsupported frame version: {version.toNat}"
  | invalidKind tag => s!"invalid frame kind: {tag.toNat}"
  | unknownColumnType column tag => s!"column '{column}' has unknown type tag {tag.toNat}"
  | truncated => "truncated frame"
  | trailingBytes count => s!"{count} trailing bytes after frame"
  | malformed fault => s!"malformed frame: {fault.message}"
  | tooLarge excess => s!"frame too large: {excess.message}"

end LiveLayout
