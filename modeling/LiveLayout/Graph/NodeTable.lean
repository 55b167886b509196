import LiveLayout.Table.Basic
import LiveLayout.Table.Names
import Std.Data.HashSet
import Std.Data.HashMap

/-!
# Node tables

The static attributes of the nodes of a session: unique labels, a color and a size. Coordinates
change with each iteration and have no place here; other columns ride along.
-/

namespace LiveLayout

/-- A column whose cells are labels. -/
def Table.requireLabels (table : Table) (name : String) : Except SchemaError Unit := do
  let column ← table.require name
  if column.type = .float32 then .error (.notLabels name column.type) else .ok ()

/-- A column of one of some types. -/
def Table.requireType (table : Table) (name : String) (allowed : List ColumnType) :
    Except SchemaError Unit := do
  let column ← table.require name
  if column.type ∈ allowed then .ok () else .error (.unsupportedType name column.type)

/-- A table without a column of that name. -/
def Table.forbid (table : Table) (name : String) : Except SchemaError Unit :=
  if (table.column? name).isSome then .error (.positionColumn name) else .ok ()

/-- The first label that occurred before, given the labels seen so far. -/
def firstRepeat? (seen : Std.HashSet Label) : List Label → Option Label
  | [] => none
  | label :: rest =>
    if seen.contains label then some label else firstRepeat? (seen.insert label) rest

/-- A table that has passed for a node table. -/
structure NodeTable where
  table : Table
  deriving DecidableEq, Repr

namespace NodeTable

/-- Accepts a table with unique node ids, a color and a size, and no coordinates. -/
def ofTable (table : Table) : Except SchemaError NodeTable := do
  table.requireLabels ColumnName.id
  table.requireType ColumnName.color [.int, .text]
  table.requireType ColumnName.size [.int, .float32]
  table.forbid ColumnName.x
  table.forbid ColumnName.y
  let ids ← table.require ColumnName.id
  match firstRepeat? ∅ (ids.cells.filterMap Cell.label?) with
  | some id => .error (.duplicateNode id)
  | none => .ok ⟨table⟩

/-- The node table of integer ids, colors and sizes. -/
def ofColumns (ids colors sizes : List Int64) : Except SchemaError NodeTable := do
  let table ← Table.ofColumns
    [(ColumnName.id, .int ids), (ColumnName.color, .int colors), (ColumnName.size, .int sizes)]
  ofTable table

/-- The number of nodes. -/
def length (nodes : NodeTable) : Nat := nodes.table.rowCount

/-- The ids in row order. -/
def ids (nodes : NodeTable) : List Label :=
  match nodes.table.column? ColumnName.id with
  | some column => column.cells.filterMap Cell.label?
  | none => []

/-- The ids as a set. -/
def idSet (nodes : NodeTable) : Std.HashSet Label := .ofList nodes.ids

/-- The row of each id. -/
def rowIndex (nodes : NodeTable) : Std.HashMap Label Nat :=
  nodes.ids.zipIdx.foldl (fun index entry => index.insert entry.1 entry.2) ∅

/-- The row of an id. -/
def row? (nodes : NodeTable) (index : Std.HashMap Label Nat) (id : Label) :
    Option (Fin nodes.length) :=
  index[id]?.bind fun row => if within : row < nodes.length then some ⟨row, within⟩ else none

end NodeTable

end LiveLayout
