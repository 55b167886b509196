import LiveLayout.Graph.EdgeTable

/-!
# Rows of frames

What a renderer reads from the tables of a stream: one record a node or an edge.
-/

namespace LiveLayout

/-- A column of single-precision cells. -/
def Table.requireFloats (table : Table) (name : String) : Except SchemaError (List UInt32) := do
  match ← table.require name with
  | .float32 bits => return bits
  | _ => .error (.notFloat name)

/-- The label of a row in a column that sorts rows. -/
def Column.category (column : Column) (name : String) (row : Nat) : Except SchemaError Label :=
  match column.label? row with
  | some label => .ok label
  | none => .error (.notCategory name)

/-- The single of a row. -/
def floatAt (name : String) (bits : List UInt32) (row : Nat) : Except SchemaError UInt32 :=
  match bits[row]? with
  | some value => .ok value
  | none => .error (.columnEnds name row)

/-- One node of a node frame. Coordinates are the bits of singles, the size those of a double. -/
structure NodeRow where
  id : Label
  x : UInt32
  y : UInt32
  color : Label
  size : UInt64
  deriving DecidableEq, Repr

/-- The nodes of a table with ids, coordinates, colors and sizes. -/
def NodeRow.ofTable (table : Table) : Except SchemaError (List NodeRow) := do
  let ids ← table.require ColumnName.id
  let xs ← table.requireFloats ColumnName.x
  let ys ← table.requireFloats ColumnName.y
  let colors ← table.require ColumnName.color
  let sizes ← table.require ColumnName.size
  (List.range table.rowCount).mapM fun row => do
    let some id := ids.label? row | .error .nodeNotLabel
    let x ← floatAt ColumnName.x xs row
    let y ← floatAt ColumnName.y ys row
    let color ← colors.category ColumnName.color row
    let some size := sizes.number? row | .error .sizeNotNumber
    return ⟨id, x, y, color, size⟩

/-- One edge of an edge frame. -/
structure EdgeRow where
  edge : Label
  bundle : Label
  color : Label
  deriving DecidableEq, Repr

/-- The edges of a table with edge labels, bundles and colors. -/
def EdgeRow.ofTable (table : Table) : Except SchemaError (List EdgeRow) := do
  let edges ← table.require ColumnName.edge
  let bundles ← table.require ColumnName.bundle
  let colors ← table.require ColumnName.color
  (List.range table.rowCount).mapM fun row => do
    let some edge := edges.label? row | .error .edgeNotLabel
    let bundle ← bundles.category ColumnName.bundle row
    let color ← colors.category ColumnName.color row
    return ⟨edge, bundle, color⟩

end LiveLayout
