import LiveLayout.Channel.Queue
import LiveLayout.Proofs.Session.Framing

/-!
# Frames of joined tables

A batch picks the columns of its frames one by one. What it sends are nevertheless the frames of
whole tables: the static columns of the nodes joined with the coordinates of the batch, and the
edge table, each selected to the names asked for.
-/

namespace LiveLayout.Framing

/-- Framing started over a graph, after some batches and refreshes: with the edge table it took
over last and the number of batches that were not refused. -/
inductive Reached (mapper : PositionMapper) (graph : Graph) (options : SessionOptions) :
    EdgeTable → Nat → Framing → Prop where
  | started {framing : Framing} (h : start mapper graph options = .ok framing) :
      Reached mapper graph options graph.edges 0 framing
  | streamed {τ : Type} [Transport τ] {edges : EdgeTable} {k : Nat} {framing next : Framing}
      {buffer : PositionBuffer} {channel channel' : Channel τ}
      (reached : Reached mapper graph options edges k framing)
      (h : framing.invoke buffer channel = (.ok (), next, channel')) :
      Reached mapper graph options edges (k + 1) next
  | refused {τ : Type} [Transport τ] {edges : EdgeTable} {k : Nat} {framing next : Framing}
      {buffer : PositionBuffer} {channel channel' : Channel τ} {error : StreamError}
      (reached : Reached mapper graph options edges k framing)
      (h : framing.invoke buffer channel = (.error error, next, channel')) :
      Reached mapper graph options edges k next
  | refreshed {edges edges' : EdgeTable} {k : Nat} {framing next : Framing}
      (reached : Reached mapper graph options edges k framing) (proper : edges'.Proper)
      (h : framing.refreshEdges edges' = .ok next) :
      Reached mapper graph options edges' k next

section Reached

variable {mapper : PositionMapper} {graph : Graph} {options : SessionOptions}
  {edges : EdgeTable} {k : Nat} {framing : Framing}

theorem Reached.setup_eq (h : Reached mapper graph options edges k framing) :
    framing.Named ∧ framing.iteration = k ∧
      framing.setup = (mapper, graph.nodes, edges, options.nodeColumns, options.edgeColumns,
        options.resendEdges) := by
  induction h with
  | started h =>
      obtain ⟨rfl, hnamed⟩ := start_eq_ok_iff.mp h
      exact ⟨hnamed, rfl, rfl⟩
  | @streamed τ _ edges k framing next buffer channel channel' _ h ih =>
      obtain ⟨hnamed, hiteration, hsetup⟩ := ih
      obtain ⟨hkept, hmoved⟩ := hnamed.invoke_spec buffer channel
      rw [h] at hkept hmoved
      refine ⟨hnamed.of_setup_eq hkept, ?_, hkept.trans hsetup⟩
      rcases hmoved with ⟨error, hrefused⟩ | ⟨-, hnext⟩
      · simp at hrefused
      · rw [hnext, hiteration]
  | @refused τ _ edges k framing next buffer channel channel' error _ h ih =>
      rcases (ih.1.invoke_spec buffer channel).2 with ⟨other, hrefused⟩ | ⟨hok, -⟩
      · rw [h] at hrefused
        simp only [Prod.mk.injEq] at hrefused
        exact hrefused.2.1 ▸ ih
      · simp [h] at hok
  | refreshed _ _ h ih =>
      obtain ⟨hnamed, hiteration, hsetup⟩ := ih
      obtain ⟨rfl, -⟩ := refreshEdges_eq_ok h
      refine ⟨hnamed.refreshEdges h, hiteration, ?_⟩
      simp only [setup, Prod.mk.injEq] at hsetup ⊢
      tauto

/-- A batch that is not refused takes framing one iteration further. -/
theorem Reached.invoke {τ : Type} [Transport τ] (h : Reached mapper graph options edges k framing)
    {buffer : PositionBuffer} {positions : Positions}
    (hbatch : framing.batch buffer = .ok positions) (channel : Channel τ) :
    Reached mapper graph options edges (k + 1) (framing.invoke buffer channel).2.1 :=
  .streamed h (Prod.ext (h.setup_eq.1.invoke_ok hbatch channel) rfl)

/-- What framing was started with is still there, apart from the edges that it took over. -/
theorem Reached.fields (h : Reached mapper graph options edges k framing) :
    framing.mapper = mapper ∧ framing.nodes = graph.nodes ∧ framing.edges = edges ∧
      framing.nodeColumns = options.nodeColumns ∧ framing.edgeColumns = options.edgeColumns ∧
        framing.resendEdges = options.resendEdges := by
  obtain ⟨-, -, hsetup⟩ := h.setup_eq
  simpa only [setup, Prod.mk.injEq] using hsetup

theorem Reached.edges_proper (h : Reached mapper graph options edges k framing)
    (hedges : graph.edges.Proper) : edges.Proper := by
  induction h with
  | started _ => exact hedges
  | streamed _ _ ih => exact ih
  | refused _ _ ih => exact ih
  | refreshed _ proper _ _ => exact proper

end Reached

section Tables

variable {framing : Framing}

/-- The edge frame is that of the edge table, selected to the names asked for. -/
theorem Named.edgeFrame_eq (hnamed : framing.Named) (hwell : framing.edges.table.WellFormed) :
    ∃ table, framing.edges.table.select framing.edgeColumns = .ok table ∧
      table.names = framing.edgeColumns ∧
      framing.edgeFrame = table.encode .edges (UInt64.ofNat framing.iteration) :=
  ⟨_, Table.select_ok hwell hnamed.edges_nodup hnamed.edges_known,
    Table.map_fst_picked hnamed.edges_known, rfl⟩

/-- Picking a column by its name finds it in the joined table. -/
theorem nodeFrameColumns_eq (hproper : framing.nodes.Proper) (positions : Positions) :
    framing.nodeFrameColumns positions =
      (framing.nodes.beside positions).picked framing.nodeColumns := by
  unfold nodeFrameColumns Table.picked
  congr 1
  funext name
  rw [hproper.column?_beside, nodeColumn]
  split_ifs
  · rfl
  · rfl
  · unfold Table.require
    cases framing.nodes.table.column? name with
    | none => rfl
    | some column => rfl

/-- The joined table has every column that a node frame asks for. -/
theorem Named.mem_names_beside (hnamed : framing.Named) (positions : Positions) :
    ∀ name ∈ framing.nodeColumns, name ∈ (framing.nodes.beside positions).names := by
  intro name hname
  rw [NodeTable.mem_names_beside]
  rcases hnamed.nodes_known name hname with h | h | h
  · exact .inr (.inl h)
  · exact .inr (.inr h)
  · exact .inl h

/-- The node frame is that of the joined table, selected to the names asked for. -/
theorem Named.nodeFrame_eq (hnamed : framing.Named) (hproper : framing.nodes.Proper)
    {positions : Positions} (hx : positions.x.length = framing.nodes.length)
    (hy : positions.y.length = framing.nodes.length) :
    ∃ table, (framing.nodes.beside positions).select framing.nodeColumns = .ok table ∧
      table.names = framing.nodeColumns ∧
      table.rowCount = positions.length ∧
      table.columns = framing.nodeFrameColumns positions := by
  have hknown := hnamed.mem_names_beside positions
  exact ⟨_, Table.select_ok (hproper.beside_wellFormed hx hy) hnamed.nodes_nodup hknown,
    Table.map_fst_picked hknown, hx.symm, (nodeFrameColumns_eq hproper positions).symm⟩

end Tables

variable {τ : Type} [Transport τ]

/-- Sends the edge frame of a table at an iteration. It is owed no longer once it was taken, or
turned out to have no wire form and was counted as skipped. -/
def sendEdgeTable (framing : Framing) (k : Nat) (table : Table) (channel : Channel τ) :
    Framing × Channel τ :=
  match table.encode .edges (UInt64.ofNat k) with
  | .ok wire =>
    let (result, channel) := channel.send wire
    if result.isDelivered then
      ({ framing with edgesPending := false, edgeFrames := framing.edgeFrames + 1 }, channel)
    else (framing, channel)
  | .error _ =>
    ({ framing with edgesPending := false, framesSkipped := framing.framesSkipped + 1 }, channel)

/-- Sends the node frame of a table at an iteration, or counts it as skipped if it has no wire
form, and moves on to the next iteration. -/
def sendNodeTable (framing : Framing) (k : Nat) (table : Table) (channel : Channel τ) :
    Framing × Channel τ :=
  match table.encode .nodes (UInt64.ofNat k) with
  | .ok wire => ({ framing with iteration := k + 1 }, (channel.send wire).2)
  | .error _ =>
    ({ framing with iteration := k + 1, framesSkipped := framing.framesSkipped + 1 }, channel)

theorem sendEdges_eq_sendEdgeTable {framing : Framing} {table : Table}
    (h : framing.edgeFrame = table.encode .edges (UInt64.ofNat framing.iteration))
    (channel : Channel τ) :
    framing.sendEdges channel = framing.sendEdgeTable framing.iteration table channel := by
  rw [sendEdges, h]
  rfl

theorem sendNodes_eq_sendNodeTable (framing : Framing) (table : Table) (channel : Channel τ) :
    framing.sendNodes table.rowCount table.columns channel =
      framing.sendNodeTable framing.iteration table channel := rfl

/-- The frame of a table is read as that table, of that kind and at that iteration. -/
def ReadBack (kind : FrameKind) (k : Nat) (table : Table) : Prop :=
  ∀ wire, table.encode kind (UInt64.ofNat k) = .ok wire →
    Message.decode wire = .ok (.frame ⟨kind, UInt64.ofNat k, table⟩)

theorem readBack_of_nodup {kind : FrameKind} {k : Nat} {table : Table} (h : table.names.Nodup) :
    ReadBack kind k table := by
  intro wire hwire
  exact Message.decode_of_nodup hwire h

/-- Whatever batches and refreshes went before, a batch of as many coordinates as there are nodes
sends the edge table if it is owed, then the static columns joined with the coordinates, each
selected to the names asked for. Joining and selecting never fail, no name asked for is left out,
and every frame sent is read back as its table. -/
theorem streams_joined_tables {mapper : PositionMapper} {graph : Graph} {options : SessionOptions}
    {edges : EdgeTable} {k : Nat} {framing : Framing} (hnodes : graph.nodes.Proper)
    (hedges : graph.edges.Proper) (hreached : Reached mapper graph options edges k framing)
    {buffer : PositionBuffer} {positions : Positions}
    (hrows : buffer.rows = .ok graph.nodes.length) (hmapped : mapper buffer = .ok positions)
    (hx : positions.x.length = graph.nodes.length) (hy : positions.y.length = graph.nodes.length)
    (channel : Channel τ) :
    ∃ coordinates joined nodeTable edgeTable,
      positions.toTable = .ok coordinates ∧
      graph.nodes.table.join coordinates = .ok joined ∧
      joined.select options.nodeColumns = .ok nodeTable ∧
      edges.table.select options.edgeColumns = .ok edgeTable ∧
      nodeTable.names = options.nodeColumns ∧ edgeTable.names = options.edgeColumns ∧
      (framing.invoke buffer channel =
        let (settled, channel) :=
          if framing.owesEdges then framing.sendEdgeTable k edgeTable channel
          else (framing, channel)
        (.ok (), settled.sendNodeTable k nodeTable channel)) ∧
      ReadBack .nodes k nodeTable ∧ ReadBack .edges k edgeTable := by
  obtain ⟨hnamed, hiteration, -⟩ := hreached.setup_eq
  obtain ⟨hmapper, hframingNodes, hframingEdges, hnodeColumns, hedgeColumns, -⟩ := hreached.fields
  have hproper := hreached.edges_proper hedges
  rw [← hframingNodes] at hnodes hrows hx hy
  rw [← hframingEdges] at hproper
  rw [← hmapper] at hmapped
  obtain ⟨edgeTable, hedgeSelect, hedgeNames, hedgeFrame⟩ := hnamed.edgeFrame_eq hproper.1
  obtain ⟨nodeTable, hnodeSelect, hnodeNames, hrowCount, hcolumns⟩ :=
    hnamed.nodeFrame_eq hnodes hx hy
  rw [← hframingNodes, ← hframingEdges, ← hnodeColumns, ← hedgeColumns]
  refine ⟨_, _, nodeTable, edgeTable, Positions.toTable_ok (hy.trans hx.symm),
    hnodes.join_ok hx hy, hnodeSelect, hedgeSelect, hnodeNames, hedgeNames, ?_, ?_, ?_⟩
  · have hsettled : framing.settleEdges channel =
        if framing.owesEdges then framing.sendEdgeTable k edgeTable channel
        else (framing, channel) := by
      rw [settleEdges, sendEdges_eq_sendEdgeTable hedgeFrame, hiteration]
    have hstill : (framing.settleEdges channel).1.iteration = k := by
      rw [iteration_settleEdges, hiteration]
    rw [hnamed.invoke_eq, batch_eq_ok hrows hmapped hx, ← hsettled]
    simp only [← hrowCount, ← hcolumns, sendNodes_eq_sendNodeTable, hstill]
  · exact readBack_of_nodup (hnodeNames ▸ hnamed.nodes_nodup)
  · exact readBack_of_nodup (hedgeNames ▸ hnamed.edges_nodup)

/-- A graph of one node and, after a refresh, one edge; the only transport answers that it is
full. -/
theorem streams_joined_tables_single :
    let nodes : NodeTable := ⟨[("id", .int [7]), ("color", .int [0]), ("size", .int [1])], 1⟩
    let edges : EdgeTable :=
      ⟨[("edge", .int [4]), ("bundle", .int [0]), ("color", .int [2]), ("w", .float32 [1])], 1⟩
    let options : SessionOptions := ⟨["y", "id", "x"], ["edge"], false, 500⟩
    let graph : Graph := ⟨nodes, .empty⟩
    ∃ framing, Reached .standard graph options edges 0 framing ∧
      ∃ coordinates joined nodeTable edgeTable,
        Positions.toTable ⟨[5], [6]⟩ = .ok coordinates ∧
        nodes.table.join coordinates = .ok joined ∧
        joined.select ["y", "id", "x"] = .ok nodeTable ∧
        edges.table.select ["edge"] = .ok edgeTable ∧
        nodeTable.names = ["y", "id", "x"] ∧ edgeTable.names = ["edge"] ∧
        (framing.invoke (.columnar [5] [6]) (Channel.onto (Queue.ofCapacity 0)) =
          let (settled, channel) :=
            if framing.owesEdges then
              framing.sendEdgeTable 0 edgeTable (Channel.onto (Queue.ofCapacity 0))
            else (framing, Channel.onto (Queue.ofCapacity 0))
          (.ok (), settled.sendNodeTable 0 nodeTable channel)) ∧
        ReadBack .nodes 0 nodeTable ∧ ReadBack .edges 0 edgeTable := by
  intro nodes edges options graph
  have hunique : firstRepeat? ∅ [Label.int 7] = none := by simp [firstRepeat?]
  have hnodes : nodes.Proper :=
    ⟨⟨by decide, by decide⟩,
      NodeTable.ofTable_ok rfl rfl rfl (by decide) (by decide) rfl hunique⟩
  have hempty : EdgeTable.empty.Proper := ⟨⟨by decide, by decide⟩, by rfl⟩
  have hedges : edges.Proper := ⟨⟨by decide, by decide⟩, by rfl⟩
  have hreached : Reached .standard graph options edges 0 _ :=
    .refreshed (.started rfl) hedges rfl
  exact ⟨_, hreached, streams_joined_tables hnodes hempty hreached rfl rfl rfl rfl _⟩

end LiveLayout.Framing
