import LiveLayout.Proofs.Session.Joined

/-!
# Coordinates that do not fit

A batch has as many rows as the session has nodes, and the coordinates read from it are counted by
their first axis alone. So a second axis of another length gets past the check: the edge frame
goes out, the batch counts as an iteration, and the length is only noticed where the second axis is
written, if it is written at all.
-/

namespace LiveLayout.Framing

section Batches

variable {framing : Framing} {buffer : PositionBuffer} {positions : Positions}

theorem batch_of_unreadable {error : SchemaError} (h : buffer.rows = .error error) :
    framing.batch buffer = .error error := by
  rw [batch, h]
  rfl

theorem batch_of_unmapped {error : StreamError} (h : buffer.rows = .ok framing.nodes.length)
    (hmapped : framing.mapper buffer = .error error) : framing.batch buffer = .error error := by
  simp [batch, h, hmapped]

theorem batch_of_rows_ne {rows : Nat} (h : buffer.rows = .ok rows)
    (hrows : rows ≠ framing.nodes.length) :
    framing.batch buffer = .error (SchemaError.batchRows rows framing.nodes.length) := by
  simp [batch, h, hrows]

theorem batch_of_length_ne (h : buffer.rows = .ok framing.nodes.length)
    (hmapped : framing.mapper buffer = .ok positions)
    (hlength : positions.length ≠ framing.nodes.length) :
    framing.batch buffer =
      .error (SchemaError.mappedRows positions.length framing.nodes.length) := by
  simp [batch, h, hmapped, hlength]

/-- A node frame has no wire form if it asks for coordinates of another number than its rows. -/
theorem exists_nodeFrame_error (hy : positions.y.length ≠ positions.length)
    (hasked : ColumnName.y ∈ framing.nodeColumns) :
    ∃ error, framing.nodeFrame positions = .error error := by
  cases hframe : framing.nodeFrame positions with
  | error error => exact ⟨error, rfl⟩
  | ok wire =>
      obtain ⟨-, -, blocks, hblocks, -⟩ := encodeColumns_eq_ok_iff.mp hframe
      have hentry : (ColumnName.y, Column.float32 positions.y) ∈
          framing.nodeFrameColumns positions :=
        List.mem_filterMap.mpr ⟨ColumnName.y, hasked, rfl⟩
      exact absurd (hblocks.length_eq _ hentry) hy

/-- A node frame without the second axis is the same whatever that axis is. -/
theorem nodeFrameColumns_of_not_asked (hasked : ColumnName.y ∉ framing.nodeColumns)
    (x y y' : List UInt32) :
    framing.nodeFrameColumns ⟨x, y⟩ = framing.nodeFrameColumns ⟨x, y'⟩ := by
  apply List.filterMap_congr
  intro name hname
  have hne : name ≠ ColumnName.y := fun heq => hasked (heq ▸ hname)
  simp only [nodeColumn, if_neg hne]

end Batches

variable {τ : Type} [Transport τ]

/-- A node frame without a wire form is skipped, and the batch counts all the same. -/
theorem sendNodes_of_error {framing : Framing} {rows : Nat} {columns : List (String × Column)}
    {error : CodecError}
    (h : encodeColumns .nodes (UInt64.ofNat framing.iteration) rows columns = .error error)
    (channel : Channel τ) :
    framing.sendNodes rows columns channel =
      ({ framing with
          iteration := framing.iteration + 1, framesSkipped := framing.framesSkipped + 1 },
        channel) := by
  simp only [sendNodes, h]

section Streaming

variable {framing : Framing} {buffer : PositionBuffer} {positions : Positions}

/-- Coordinates of which a node frame cannot be written are streamed up to that frame. -/
theorem Named.invoke_of_asked (hnamed : framing.Named)
    (hbatch : framing.batch buffer = .ok positions)
    (hy : positions.y.length ≠ positions.length) (hasked : ColumnName.y ∈ framing.nodeColumns)
    (channel : Channel τ) :
    framing.invoke buffer channel =
      let (settled, channel') := framing.settleEdges channel
      (.ok (), { settled with
        iteration := framing.iteration + 1, framesSkipped := settled.framesSkipped + 1 },
        channel') := by
  have hstill := iteration_settleEdges framing channel
  obtain ⟨error, herror⟩ := exists_nodeFrame_error hy hasked
  rw [nodeFrame, ← hstill] at herror
  rw [hnamed.invoke_eq, hbatch]
  simp only [sendNodes_of_error herror, hstill]

/-- Coordinates of which only the first axis is written are streamed whatever the second is. -/
theorem Named.invoke_of_not_asked (hnamed : framing.Named) {x y : List UInt32}
    (hbatch : framing.batch buffer = .ok ⟨x, y⟩) (hasked : ColumnName.y ∉ framing.nodeColumns)
    (channel : Channel τ) (y' : List UInt32) :
    framing.invoke buffer channel =
      let (settled, channel') := framing.settleEdges channel
      (.ok (), settled.sendNodes x.length (framing.nodeFrameColumns ⟨x, y'⟩) channel') := by
  rw [hnamed.invoke_eq, hbatch, nodeFrameColumns_of_not_asked hasked x y' y]
  rfl

end Streaming

/-- A batch is refused, with nothing sent or counted, if it cannot be read, has another number of
rows than the session has nodes, cannot be mapped, or is mapped to a first axis of another length.
The second axis is not looked at: with one of another length the batch is streamed as if it
fitted, except that a node frame that asks for that axis is skipped. -/
theorem first_axis_decides {mapper : PositionMapper} {graph : Graph} {options : SessionOptions}
    {edges : EdgeTable} {k : Nat} {framing : Framing}
    (hreached : Reached mapper graph options edges k framing) (buffer : PositionBuffer)
    (channel : Channel τ) :
    (∀ error : SchemaError, buffer.rows = .error error →
      framing.invoke buffer channel = (.error error, framing, channel)) ∧
    (∀ rows, buffer.rows = .ok rows → rows ≠ graph.nodes.length →
      framing.invoke buffer channel =
        (.error (SchemaError.batchRows rows graph.nodes.length), framing, channel)) ∧
    (buffer.rows = .ok graph.nodes.length →
      (∀ error, mapper buffer = .error error →
        framing.invoke buffer channel = (.error error, framing, channel)) ∧
      ∀ x y, mapper buffer = .ok ⟨x, y⟩ →
        (x.length ≠ graph.nodes.length →
          framing.invoke buffer channel =
            (.error (SchemaError.mappedRows x.length graph.nodes.length), framing, channel)) ∧
        (x.length = graph.nodes.length → y.length ≠ graph.nodes.length →
          (ColumnName.y ∈ options.nodeColumns →
            framing.invoke buffer channel =
              let (settled, channel') := framing.settleEdges channel
              (.ok (), { settled with
                iteration := k + 1, framesSkipped := settled.framesSkipped + 1 }, channel')) ∧
          (ColumnName.y ∉ options.nodeColumns → ∀ y',
            framing.invoke buffer channel =
              let (settled, channel') := framing.settleEdges channel
              (.ok (), settled.sendNodes graph.nodes.length
                (framing.nodeFrameColumns ⟨x, y'⟩) channel')))) := by
  obtain ⟨hnamed, rfl, -⟩ := hreached.setup_eq
  obtain ⟨rfl, hnodes, -, hnodeColumns, -, -⟩ := hreached.fields
  rw [← hnodes, ← hnodeColumns]
  refine ⟨?unreadable, ?rows, fun hrows => ⟨?unmapped, ?mapped⟩⟩
  case unreadable =>
    intro error herror
    rw [hnamed.invoke_eq, batch_of_unreadable herror]
  case rows =>
    intro rows hrows hne
    rw [hnamed.invoke_eq, batch_of_rows_ne hrows hne]
  case unmapped =>
    intro error hmapped
    rw [hnamed.invoke_eq, batch_of_unmapped hrows hmapped]
  case mapped =>
    intro x y hmapped
    constructor
    · intro hx
      rw [hnamed.invoke_eq, batch_of_length_ne hrows hmapped hx]
      rfl
    · intro hx hy
      have hbatch : framing.batch buffer = .ok ⟨x, y⟩ := batch_eq_ok hrows hmapped hx
      constructor
      · intro hasked
        exact hnamed.invoke_of_asked hbatch (fun hsame => hy (hsame.trans hx)) hasked channel
      · intro hasked y'
        rw [← hx]
        exact hnamed.invoke_of_not_asked hbatch hasked channel y'

/-- A graph of one node, whose coordinates are read as one that has no second axis. -/
theorem first_axis_decides_short :
    let graph : Graph := ⟨⟨[("id", .int [7]), ("color", .int [0]), ("size", .int [1])], 1⟩, .empty⟩
    let options : SessionOptions := ⟨["id", "x"], ["edge"], false, 500⟩
    let channel := Channel.onto (Queue.ofCapacity 4)
    ∃ framing, Reached (fun _ => .ok ⟨[5], []⟩) graph options .empty 0 framing ∧
      framing.invoke (.columnar [5] []) channel =
        (.error (SchemaError.columnarLengths 1 0), framing, channel) ∧
      framing.invoke (.columnar [5] [6]) channel =
        let (settled, channel') := framing.settleEdges channel
        (.ok (), settled.sendNodes 1 [("id", .int [7]), ("x", .float32 [5])] channel') := by
  intro graph options channel
  have hreached : Reached (fun _ => .ok ⟨[5], []⟩) graph options .empty 0 _ := .started rfl
  refine ⟨_, hreached, ?_, ?_⟩
  · exact (first_axis_decides hreached (.columnar [5] []) channel).1 _ rfl
  · have hfits := (first_axis_decides hreached (.columnar [5] [6]) channel).2.2 rfl
    exact ((hfits.2 [5] [] rfl).2 rfl (by decide)).2 (by decide) [6]

/-- The one node of a graph gets no second coordinate, and still the edge frame is sent and the
batch counts as streamed. -/
theorem short_second_axis_streamed :
    let graph : Graph := ⟨⟨[("id", .int [7]), ("color", .int [0]), ("size", .int [1])], 1⟩, .empty⟩
    let options : SessionOptions := ⟨["id", "color", "size", "x", "y"], ["edge"], false, 500⟩
    let channel := Channel.onto (Queue.ofCapacity 4)
    let positions : Positions := ⟨[5], []⟩
    ∃ framing next channel',
      start (fun _ => .ok positions) graph options = .ok framing ∧
        positions.y.length ≠ graph.nodes.length ∧
        framing.invoke (.columnar [5] [6]) channel = (.ok (), next, channel') ∧
        next.iteration = 1 ∧ next.edgeFrames = 1 ∧ next.framesSkipped = 1 ∧
        channel'.stats.sent = 1 := by
  exact ⟨_, _, _, rfl, by decide, rfl, rfl, rfl, rfl, rfl⟩

end LiveLayout.Framing
