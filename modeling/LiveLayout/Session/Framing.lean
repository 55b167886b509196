import LiveLayout.Channel.Basic
import LiveLayout.Graph.EdgeTable
import LiveLayout.Position.Mapper
import LiveLayout.Session.Options
import LiveLayout.Wire.Encode

/-!
# Framing

Each batch of positions becomes a node frame: its coordinates beside the static columns of the
nodes, in the order the session asked for. The edge table is framed in front of a node frame for
as long as it is owed. A batch that does not fit is refused before anything is sent; a frame that
has no wire form is skipped and counted; a frame the channel does not take is simply lost, except
that the edge frame is then still owed.
-/

namespace LiveLayout

/-- What framing needs to know between batches. -/
structure Framing where
  mapper : PositionMapper
  nodes : NodeTable
  edges : EdgeTable
  nodeColumns : List String
  edgeColumns : List String
  resendEdges : Bool
  edgesPending : Bool
  iteration : Nat
  edgeFrames : Nat
  framesSkipped : Nat

namespace Framing

/-- The columns of a node frame exist and are named once. -/
def checkNodeColumns (nodes : NodeTable) (seen : List String) :
    List String → Except StreamError Unit
  | [] => .ok ()
  | name :: rest =>
    if name ∈ seen then .error (ConfigError.nodeColumnTwice name)
    else if name ≠ ColumnName.x ∧ name ≠ ColumnName.y ∧ (nodes.table.column? name).isNone then
      .error (SchemaError.unknownNodeColumn name)
    else checkNodeColumns nodes (name :: seen) rest

/-- The columns of an edge frame exist and are named once. -/
def checkEdgeColumns (edges : EdgeTable) (seen : List String) :
    List String → Except StreamError Unit
  | [] => .ok ()
  | name :: rest =>
    if name ∈ seen then .error (ConfigError.edgeColumnTwice name)
    else if (edges.table.column? name).isNone then .error (SchemaError.unknownEdgeColumn name)
    else checkEdgeColumns edges (name :: seen) rest

/-- Framing for a graph, before the first batch. -/
def start (mapper : PositionMapper) (graph : Graph) (options : SessionOptions) :
    Except StreamError Framing := do
  checkNodeColumns graph.nodes [] options.nodeColumns
  checkEdgeColumns graph.edges [] options.edgeColumns
  return ⟨mapper, graph.nodes, graph.edges, options.nodeColumns, options.edgeColumns,
    options.resendEdges, true, 0, 0, 0⟩

/-- The coordinates of a batch, one pair a node. -/
def batch (framing : Framing) (buffer : PositionBuffer) : Except StreamError Positions := do
  let rows ← lift buffer.rows
  if rows ≠ framing.nodes.length then
    .error (SchemaError.batchRows rows framing.nodes.length)
  let positions ← framing.mapper buffer
  if positions.length ≠ rows then
    .error (SchemaError.mappedRows positions.length rows)
  return positions

/-- The column of a node frame that a name stands for. -/
def nodeColumn (framing : Framing) (positions : Positions) (name : String) :
    Except SchemaError (String × Column) :=
  if name = ColumnName.x then .ok (name, .float32 positions.x)
  else if name = ColumnName.y then .ok (name, .float32 positions.y)
  else (fun column => (name, column)) <$> framing.nodes.table.require name

/-- The columns of an edge frame. -/
def edgeFrameColumns (framing : Framing) : List (String × Column) :=
  framing.edgeColumns.filterMap fun name =>
    (framing.edges.table.column? name).map fun column => (name, column)

/-- The wire form of the edge frame of this iteration. -/
def edgeFrame (framing : Framing) : Except CodecError Bytes :=
  encodeColumns .edges (UInt64.ofNat framing.iteration) framing.edges.length
    framing.edgeFrameColumns

/-- An edge frame goes in front of the next node frame. -/
def owesEdges (framing : Framing) : Bool := framing.edgesPending || framing.resendEdges

variable {τ : Type} [Transport τ]

/-- Sends the edge frame. It is owed no longer once it was taken or turned out to have no wire
form. -/
def sendEdges (framing : Framing) (channel : Channel τ) : Framing × Channel τ :=
  match framing.edgeFrame with
  | .ok wire =>
    let (result, channel) := channel.send wire
    if result.isDelivered then
      ({ framing with edgesPending := false, edgeFrames := framing.edgeFrames + 1 }, channel)
    else (framing, channel)
  | .error _ =>
    ({ framing with edgesPending := false, framesSkipped := framing.framesSkipped + 1 }, channel)

/-- Sends the node frame of some columns and moves on to the next iteration. -/
def sendNodes (framing : Framing) (rows : Nat) (columns : List (String × Column))
    (channel : Channel τ) : Framing × Channel τ :=
  match encodeColumns .nodes (UInt64.ofNat framing.iteration) rows columns with
  | .ok wire =>
    ({ framing with iteration := framing.iteration + 1 }, (channel.send wire).2)
  | .error _ =>
    ({ framing with
        iteration := framing.iteration + 1, framesSkipped := framing.framesSkipped + 1 }, channel)

/-- Streams one batch of positions. -/
def invoke (framing : Framing) (buffer : PositionBuffer) (channel : Channel τ) :
    Except StreamError Unit × Framing × Channel τ :=
  match framing.batch buffer with
  | .error error => (.error error, framing, channel)
  | .ok positions =>
    let (framing, channel) :=
      if framing.owesEdges then framing.sendEdges channel else (framing, channel)
    match lift (framing.nodeColumns.mapM (framing.nodeColumn positions)) with
    | .error error => (.error error, framing, channel)
    | .ok columns => (.ok (), framing.sendNodes positions.length columns channel)

/-- Takes over a new edge table, which is then owed. The framing that is held is written to behind
both checks, one field after another. -/
def refreshHeld (edges : EdgeTable) : EStateM StreamError Framing Unit := do
  let held ← get
  MonadExcept.ofExcept (checkEdgeColumns edges [] held.edgeColumns)
  MonadExcept.ofExcept (lift (edges.validate held.nodes))
  modify fun framing => { framing with edges }
  modify fun framing => { framing with edgesPending := true }

/-- The framing behind a refresh that was not refused. -/
def refreshEdges (framing : Framing) (edges : EdgeTable) : Except StreamError Framing :=
  match (refreshHeld edges).run framing with
  | .ok _ next => .ok next
  | .error error _ => .error error

end Framing

end LiveLayout
