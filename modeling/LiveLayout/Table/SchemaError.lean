import LiveLayout.Table.Column

/-!
# Schema errors

The ways in which data fails to fit the tables of a session. Each cause carries what its message
names.
-/

namespace LiveLayout

/-- Why data does not fit. -/
inductive SchemaError where
  | duplicateColumn (name : String)
  | columnLength (name : String) (length rows : Nat)
  | rowCountFixed
  | missingColumn (name : String)
  | joinedRows (left right : Nat)
  | notLabels (name : String) (type : ColumnType)
  | unsupportedType (name : String) (type : ColumnType)
  | positionColumn (name : String)
  | duplicateNode (id : Label)
  | lonelyEndpoint
  | endpointNotLabel
  | unknownNode (edge : Nat) (id : Label)
  | coordinateLengths (x y : Nat)
  | oddMatrix (length : Nat)
  | columnarLengths (x y : Nat)
  | nodeNotLabel
  | edgeNotLabel
  | sizeNotNumber
  | notFloat (name : String)
  | notCategory (name : String)
  | columnEnds (name : String) (row : Nat)
  | batchRows (rows nodes : Nat)
  | mappedRows (rows batch : Nat)
  | unknownNodeColumn (name : String)
  | unknownEdgeColumn (name : String)
  | described (text : String)
  deriving DecidableEq, Repr

/-- The wording of a schema error. -/
def SchemaError.message : SchemaError → String
  | duplicateColumn name => s!"duplicate column '{name}'"
  | columnLength name length rows => s!"column '{name}' has {length} rows, table has {rows}"
  | rowCountFixed => "row count is fixed by the columns once any are present"
  | missingColumn name => s!"missing column '{name}'"
  | joinedRows left right => s!"cannot join tables with {left} and {right} rows"
  | notLabels name type => s!"column '{name}' must be int or string, got {type.name}"
  | unsupportedType name type => s!"column '{name}' has unsupported type {type.name}"
  | positionColumn name => s!"static node table must not carry per-iteration column '{name}'"
  | duplicateNode id => s!"duplicate node id {id.message}"
  | lonelyEndpoint => "edge endpoints need both 'src' and 'dst' columns"
  | endpointNotLabel => "edge endpoint is not an id"
  | unknownNode edge id => s!"edge {edge} references unknown node {id.message}"
  | coordinateLengths x y => s!"x has {x} rows but y has {y}"
  | oddMatrix length => s!"position matrix must have 2 columns, got {length} values"
  | columnarLengths x y => s!"position columns differ in length: x has {x}, y has {y}"
  | nodeNotLabel => "node id column is not an id"
  | edgeNotLabel => "edge column is not an id"
  | sizeNotNumber => "node size is not numeric"
  | notFloat name => s!"column '{name}' must be float32"
  | notCategory name => s!"column '{name}' must be int or string"
  | columnEnds name row => s!"column '{name}' ends before row {row}"
  | batchRows rows nodes => s!"position batch has {rows} rows, session has {nodes} nodes"
  | mappedRows rows batch => s!"position mapper returned {rows} rows for a batch of {batch}"
  | unknownNodeColumn name =>
    s!"node column '{name}' is neither a position nor a static node column"
  | unknownEdgeColumn name => s!"edge column '{name}' is not in the edge table"
  | described text => text

end LiveLayout
