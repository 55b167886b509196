import LiveLayout.Table.Basic
import LiveLayout.Table.Names

/-!
# Positions

A layout hands over coordinates in the shape it computes them in. Mapping turns them into one
single-precision coordinate pair a node, in node order.
-/

namespace LiveLayout

/-- Coordinates as a layout keeps them: interleaved singles or doubles, or one list an axis. -/
inductive PositionBuffer where
  | singles (interleaved : List UInt32)
  | doubles (interleaved : List UInt64)
  | columnar (x y : List UInt32)
  deriving DecidableEq, Repr

/-- The coordinates of an iteration, as bits of singles. -/
structure Positions where
  x : List UInt32
  y : List UInt32
  deriving DecidableEq, Repr

namespace Positions

/-- Coordinates with one pair a row. -/
def ofLists (x y : List UInt32) : Except SchemaError Positions :=
  if x.length ≠ y.length then .error (.coordinateLengths x.length y.length) else .ok ⟨x, y⟩

/-- The number of rows, which the first axis decides. -/
def length (positions : Positions) : Nat := positions.x.length

/-- The coordinates as two columns. -/
def toTable (positions : Positions) : Except SchemaError Table :=
  Table.ofColumns [(ColumnName.x, .float32 positions.x), (ColumnName.y, .float32 positions.y)]

end Positions

/-- Every other item, from the first on, behind those taken already. -/
def everyOther {α : Type} (taken : List α) : List α → List α
  | [] => taken.reverse
  | [last] => (last :: taken).reverse
  | first :: _ :: rest => everyOther (first :: taken) rest

namespace PositionBuffer

/-- The number of pairs in an interleaved list. -/
def pairs (length : Nat) : Except SchemaError Nat :=
  if length % 2 ≠ 0 then .error (.oddMatrix length) else .ok (length / 2)

/-- The number of rows. -/
def rows : PositionBuffer → Except SchemaError Nat
  | singles interleaved => pairs interleaved.length
  | doubles interleaved => pairs interleaved.length
  | columnar x y =>
    if x.length ≠ y.length then .error (.columnarLengths x.length y.length) else .ok x.length

/-- The coordinates of a buffer in single precision. -/
def positions : PositionBuffer → Except SchemaError Positions
  | singles interleaved => do
    let _ ← pairs interleaved.length
    return ⟨everyOther [] interleaved, everyOther [] (interleaved.drop 1)⟩
  | doubles interleaved => do
    let _ ← pairs interleaved.length
    return ⟨(everyOther [] interleaved).map Binary32.ofBinary64,
      (everyOther [] (interleaved.drop 1)).map Binary32.ofBinary64⟩
  | columnar x y => do
    let _ ← (columnar x y).rows
    return ⟨x, y⟩

end PositionBuffer

end LiveLayout
