import LiveLayout.Graph.NodeTable

/-!
# Edge tables

The static attributes of the edges of a session: a label, a bundle and a color, and either both
endpoints or neither. Endpoints are ids of nodes; `EdgeTable.endpoints` finds their rows.
-/

namespace LiveLayout

/-- A table that has passed for an edge table. -/
structure EdgeTable where
  table : Table
  deriving DecidableEq, Repr

namespace EdgeTable

/-- Accepts a table with edge labels, bundles and colors, and both endpoints or neither. -/
def ofTable (table : Table) : Except SchemaError EdgeTable := do
  table.requireLabels ColumnName.edge
  table.requireType ColumnName.bundle [.int, .text]
  table.requireType ColumnName.color [.int, .text]
  match table.column? ColumnName.src, table.column? ColumnName.dst with
  | some _, some _ =>
    table.requireLabels ColumnName.src
    table.requireLabels ColumnName.dst
  | none, none => pure ()
  | _, _ => .error .lonelyEndpoint
  return ⟨table⟩

/-- The edge table of integer labels, endpoints, bundles and colors. -/
def ofColumns (edges src dst bundles colors : List Int64) : Except SchemaError EdgeTable := do
  let table ← Table.ofColumns
    [(ColumnName.edge, .int edges), (ColumnName.src, .int src), (ColumnName.dst, .int dst),
      (ColumnName.bundle, .int bundles), (ColumnName.color, .int colors)]
  ofTable table

/-- The edge table without edges. -/
def empty : EdgeTable :=
  ⟨[(ColumnName.edge, .int []), (ColumnName.bundle, .int []), (ColumnName.color, .int [])], 0⟩

/-- The number of edges. -/
def length (edges : EdgeTable) : Nat := edges.table.rowCount

/-- The row of the node that an endpoint of edge `edge` names. -/
def endpoint (nodes : NodeTable) (index : Std.HashMap Label Nat) (edge : Nat) (cell : Cell) :
    Except SchemaError (Fin nodes.length) :=
  match cell.label? with
  | none => .error .endpointNotLabel
  | some id =>
    match nodes.row? index id with
    | none => .error (.unknownNode edge id)
    | some row => .ok row

/-- The rows of both endpoints of each edge, from edge `edge` on. -/
def resolve (nodes : NodeTable) (index : Std.HashMap Label Nat)
    (found : List (Fin nodes.length × Fin nodes.length)) (edge : Nat) :
    List (Cell × Cell) → Except SchemaError (List (Fin nodes.length × Fin nodes.length))
  | [] => .ok found.reverse
  | (src, dst) :: rest => do
    let source ← endpoint nodes index edge src
    let target ← endpoint nodes index edge dst
    resolve nodes index ((source, target) :: found) (edge + 1) rest

/-- The rows of the nodes that each edge joins, if the table has endpoints. -/
def endpoints (edges : EdgeTable) (nodes : NodeTable) :
    Except SchemaError (Option (List (Fin nodes.length × Fin nodes.length))) :=
  match edges.table.column? ColumnName.src, edges.table.column? ColumnName.dst with
  | some src, some dst =>
    some <$> resolve nodes nodes.rowIndex [] 0 (src.cells.zip dst.cells)
  | _, _ => .ok none

/-- Every endpoint is a node. -/
def validate (edges : EdgeTable) (nodes : NodeTable) : Except SchemaError Unit :=
  (fun _ => ()) <$> edges.endpoints nodes

end EdgeTable

/-- The nodes and edges that a layout runs over. -/
structure Graph where
  nodes : NodeTable
  edges : EdgeTable
  deriving DecidableEq, Repr

namespace Graph

/-- Pairs nodes with edges that join only them. -/
def ofTables (nodes : NodeTable) (edges : EdgeTable) : Except SchemaError Graph := do
  edges.validate nodes
  return ⟨nodes, edges⟩

end Graph

end LiveLayout
