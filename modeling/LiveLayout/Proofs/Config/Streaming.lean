import LiveLayout.Channel.Queue
import LiveLayout.Proofs.Config.Valid
import LiveLayout.Proofs.Layout.Jitter
import LiveLayout.Proofs.Session.OneGraph

/-!
# Valid configurations stream

What is checked on the way from a configuration to its last frame is checked in many places: the
names of both frames, the tables of the graph, the rows of each batch, the fields of the frames. If
the configuration is valid and the graph was accepted, none of these checks fails, so that a jitter
layout streams all its iterations.
-/

namespace LiveLayout

theorem Table.FitsWords.beside {nodes : NodeTable} (h : nodes.table.FitsWords)
    (positions : Positions) : (nodes.beside positions).FitsWords := by
  refine ⟨h.rows, fun entry hentry => ?_⟩
  rcases List.mem_append.mp hentry with hstatic | hcoordinate
  · exact h.cells entry hstatic
  · simp only [Positions.columns, List.mem_cons, List.not_mem_nil, or_false] at hcoordinate
    rcases hcoordinate with rfl | rfl <;> trivial

namespace Framing

section Skipping

variable {τ : Type} [Transport τ] {framing : Framing} {wire : Bytes}

theorem framesSkipped_settleEdges (h : framing.edgeFrame = .ok wire) (channel : Channel τ) :
    (framing.settleEdges channel).1.framesSkipped = framing.framesSkipped := by
  unfold settleEdges sendEdges
  rw [h]
  dsimp only
  split_ifs <;> rfl

theorem framesSkipped_sendNodes {rows : Nat} {columns : List (String × Column)}
    (h : encodeColumns .nodes (UInt64.ofNat framing.iteration) rows columns = .ok wire)
    (channel : Channel τ) :
    (framing.sendNodes rows columns channel).1.framesSkipped = framing.framesSkipped := by
  rw [sendNodes, h]

end Skipping

/-- A batch of pairs of coordinates, one a node, is not refused. -/
theorem batch_interleave {framing : Framing} (hmapper : framing.mapper = .standard)
    {pairs : List (UInt32 × UInt32)} (hlength : pairs.length = framing.nodes.length) :
    framing.batch (.singles (interleave pairs)) =
      .ok ⟨pairs.map Prod.fst, pairs.map Prod.snd⟩ := by
  refine batch_eq_ok ?_ ?_ ?_
  · rw [PositionBuffer.rows_singles, hlength]
  · rw [hmapper, PositionMapper.standard, PositionBuffer.positions_singles]
    rfl
  · rw [Positions.length, List.length_map, hlength]

end Framing

namespace Session

/-- After `k` iterations the session is live over the graph, and skipped no frame if its tables
fit. -/
def Streams {τ : Type} (graph : Graph) (options : SessionOptions) (k : Nat) (session : Session τ) :
    Prop :=
  ∃ openedAt framing channel, session = ⟨options, .live openedAt framing channel⟩ ∧
    Framing.Reached .standard graph options graph.edges k framing ∧
      (graph.nodes.table.FitsWords → graph.edges.table.FitsWords → framing.framesSkipped = 0)

variable {τ : Type} [Transport τ]

omit [Transport τ] in
theorem streams_of_start {graph : Graph} {options : SessionOptions} {framing : Framing}
    (h : Framing.start .standard graph options = .ok framing) (now : Instant)
    (channel : Channel τ) : Streams graph options 0 ⟨options, .live now framing channel⟩ := by
  refine ⟨now, framing, channel, rfl, .started h, fun _ _ => ?_⟩
  rw [(Framing.start_eq_ok_iff.mp h).1]

theorem Streams.teardown {graph : Graph} {options : SessionOptions} {k : Nat} {session : Session τ}
    (h : session.Streams graph options k) (now : Instant) :
    (session.teardown now).1.iterations = k ∧
      (graph.nodes.table.FitsWords → graph.edges.table.FitsWords →
        (session.teardown now).1.framesSkipped = 0) := by
  obtain ⟨openedAt, framing, channel, rfl, hreached, hskipped⟩ := h
  exact ⟨hreached.setup_eq.2.1, hskipped⟩

theorem teardown_teardown (session : Session τ) (now later : Instant) :
    (session.teardown now).2.teardown later = session.teardown now := by
  rcases session with ⟨options, _ | _ | _⟩ <;> rfl

/-- A run that ends with a teardown and skipped no frame put a node frame to its channels for each
iteration of the summary. -/
theorem length_nodes_of_teardown (options : SessionOptions) (calls : List (Call τ)) (now : Instant)
    (hskipped : (((new options).after calls).teardown now).1.framesSkipped = 0) :
    ((watched options (calls ++ [.teardown now])).flatMap (Step.frames .nodes)).length =
      (((new options).after calls).teardown now).1.iterations := by
  obtain ⟨-, hrun⟩ := run_watched options (calls ++ [.teardown now])
  obtain ⟨hiterations, -, hframes⟩ := counters_of_summary? (summary?_watched options calls now)
  rw [hrun.books.length_nodes (hframes.trans hskipped), ← hrun.books.iteration_eq, hiterations]

/-- A layout that ends well by closing the session returns the summary of that. -/
theorem streamLayout_of_closing {session last : Session τ} {layout : Layout} {now : Instant}
    (h : layout.run (callback now) session = (.ok (), (last.teardown now).2)) :
    (session.streamLayout now layout).1 = .ok (last.teardown now).1 := by
  simp only [streamLayout, h, teardown_teardown]
  rfl

end Session

namespace Config

variable {τ : Type} [Transport τ] {config : Config} {graph : Graph}

/-- Neither frame of a batch is skipped if the tables of the graph fit. -/
theorem NamesKnown.framesSkipped_invoke (h : config.NamesKnown) (hnodes : graph.nodes.Proper)
    (hedges : graph.edges.Proper) {k : Nat} {framing : Framing}
    (hreached : Framing.Reached .standard graph config.sessionOptions graph.edges k framing)
    {buffer : PositionBuffer} {positions : Positions}
    (hbatch : framing.batch buffer = .ok positions)
    (hy : positions.y.length = positions.length) (channel : Channel τ)
    (hnodesFit : graph.nodes.table.FitsWords) (hedgesFit : graph.edges.table.FitsWords) :
    (framing.invoke buffer channel).2.1.framesSkipped = framing.framesSkipped := by
  obtain ⟨hnamed, -, -⟩ := hreached.setup_eq
  obtain ⟨-, hframingNodes, hframingEdges, hnodeColumns, hedgeColumns, -⟩ := hreached.fields
  have hx := Framing.length_of_batch hbatch
  -- Both frames are selections from tables that fit: the coordinates add no text to the nodes.
  rw [← hframingNodes] at hnodes hnodesFit
  rw [← hframingEdges] at hedges hedgesFit
  obtain ⟨edgeWire, hedgeWire⟩ := hedgesFit.exists_encode hedges.1
    (hedgeColumns ▸ h.edges_fit) hnamed.edges_known .edges (UInt64.ofNat framing.iteration)
  obtain ⟨nodeWire, hnodeWire⟩ := (hnodesFit.beside positions).exists_encode
    (hnodes.beside_wellFormed hx (hy.trans hx)) (hnodeColumns ▸ h.nodes_fit)
    (hnamed.mem_names_beside positions) .nodes
    (UInt64.ofNat (framing.settleEdges channel).1.iteration)
  have hrows : (framing.nodes.beside positions).rowCount = positions.length := hx.symm
  rw [hrows, ← Framing.nodeFrameColumns_eq hnodes] at hnodeWire
  rw [hnamed.invoke_eq, hbatch]
  exact (Framing.framesSkipped_sendNodes hnodeWire _).trans
    (Framing.framesSkipped_settleEdges hedgeWire channel)

/-- A batch of pairs of coordinates, one a node, is streamed. -/
theorem NamesKnown.iterate (h : config.NamesKnown) (hnodes : graph.nodes.Proper)
    (hedges : graph.edges.Proper) {k : Nat} {session : Session τ}
    (hstreams : session.Streams graph config.sessionOptions k) {pairs : List (UInt32 × UInt32)}
    (hlength : pairs.length = graph.nodes.length) :
    (session.iterate (.singles (interleave pairs))).1 = .ok () ∧
      (session.iterate (.singles (interleave pairs))).2.Streams graph config.sessionOptions
        (k + 1) := by
  obtain ⟨openedAt, framing, channel, rfl, hreached, hskipped⟩ := hstreams
  obtain ⟨hnamed, -, -⟩ := hreached.setup_eq
  obtain ⟨hmapper, hframingNodes, -⟩ := hreached.fields
  have hbatch := Framing.batch_interleave hmapper (by rw [hlength, hframingNodes])
  refine ⟨hnamed.invoke_ok hbatch channel, openedAt, _, _, rfl, hreached.invoke hbatch channel, ?_⟩
  intro hnodesFit hedgesFit
  have hkept := h.framesSkipped_invoke hnodes hedges hreached hbatch (by simp [Positions.length])
    channel hnodesFit hedgesFit
  exact hkept.trans (hskipped hnodesFit hedgesFit)

/-- Batches of a pair of coordinates a node are all streamed, up to closing the session. -/
theorem NamesKnown.run_reportAll (h : config.NamesKnown) (hnodes : graph.nodes.Proper)
    (hedges : graph.edges.Proper) {session : Session τ}
    (hstreams : session.Streams graph config.sessionOptions 0) {batches : List PositionBuffer}
    (hbatches : ∀ buffer ∈ batches, ∃ pairs : List (UInt32 × UInt32),
      pairs.length = graph.nodes.length ∧ buffer = .singles (interleave pairs)) (now : Instant) :
    ∃ last : Session τ, last.Streams graph config.sessionOptions batches.length ∧
      (Layout.reportAll batches (.close .finish)).run (Session.callback now) session =
        (.ok (), (last.teardown now).2) := by
  have hstep : ∀ buffer ∈ batches, ∀ k (session : Session τ),
      session.Streams graph config.sessionOptions k →
        ((Session.callback now).onIteration buffer session).1 = .ok () ∧
          ((Session.callback now).onIteration buffer session).2.Streams graph
            config.sessionOptions (k + 1) := by
    intro buffer hbuffer k session hsession
    obtain ⟨pairs, hlength, rfl⟩ := hbatches buffer hbuffer
    exact h.iterate hnodes hedges hsession hlength
  obtain ⟨last, hlast, hrun⟩ := Layout.run_reportAll hstep (.close .finish) hstreams
  rw [Nat.zero_add] at hlast
  exact ⟨last, hlast, hrun⟩

/-- A valid configuration streams any graph that was accepted, from any layout seed and over any
transport. Its session starts, and the jitter layout streams as many iterations as the configuration
says and ends well. If the rows of the graph and its texts fit their fields, no frame is skipped and
each iteration puts its node frame to the transport. All that was put to the transport can be read,
and every node frame has the id and the coordinates of each node. -/
theorem always_streams {config : Config} (hvalid : config.validate = .ok ()) {nodes : NodeTable}
    {edges : EdgeTable} {graph : Graph} (hnodes : nodes.Proper) (hedges : edges.Proper)
    (hgraph : Graph.ofTables nodes edges = .ok graph) (jitter : Jitter) (opened closed : Instant)
    (channel : Channel τ) :
    let options := config.sessionOptions
    let layout := jitter.layout graph config.iterations
    ∃ session, (Session.new options).start opened graph .standard channel = .ok session ∧
      let calls : List (Call τ) := .start opened graph .standard channel ::
        (layout.calls closed session ++ [.teardown closed])
      let history := Session.watched options calls
      Session.Watches history ((Session.new options).steps calls) ∧
      (session.streamLayout closed layout).2 = (Session.new options).after calls ∧
      (∃ summary, (session.streamLayout closed layout).1 = .ok summary ∧
        summary.iterations = config.iterations ∧
        (nodes.table.FitsWords → edges.table.FitsWords → summary.framesSkipped = 0)) ∧
      (nodes.table.FitsWords → edges.table.FitsWords →
        (history.flatMap (Step.frames .nodes)).length = config.iterations) ∧
      ∀ payload ∈ history.flatMap Step.offers, ∃ message, Message.decode payload = .ok message ∧
        ∀ frame, message = .frame frame → frame.kind = .nodes →
          frame.table.WellFormed ∧ frame.table.rowCount = nodes.length ∧
            ∀ name ∈ [ColumnName.id, ColumnName.x, ColumnName.y], name ∈ frame.table.names := by
  intro options layout
  have hknown := namesKnown_of_validate hvalid
  obtain ⟨batches, hcount, hlayout, hbatches⟩ := jitter.layout_eq_reportAll hgraph config.iterations
  obtain ⟨⟨⟩, -, hpair⟩ := bind_eq_ok_iff.mp hgraph
  obtain rfl := pure_eq_ok_iff.mp hpair
  let graph : Graph := ⟨nodes, edges⟩
  obtain ⟨framing, hstart⟩ : ∃ framing, Framing.start .standard graph options = .ok framing :=
    hknown.exists_start .standard hnodes hedges
  let session : Session τ := ⟨options, .live opened framing channel⟩
  have hstarted : (Session.new options).start opened graph .standard channel = .ok session :=
    Session.start_new hstart opened channel
  refine ⟨session, hstarted, ?_⟩
  intro calls history
  have hstreams : session.Streams graph options 0 := Session.streams_of_start hstart opened channel
  -- The layout itself closes the session, whose summary is then the one that is returned.
  obtain ⟨last, hlast, hrun⟩ := hknown.run_reportAll hnodes hedges hstreams hbatches closed
  rw [hcount] at hlast
  rw [← hlayout] at hrun
  obtain ⟨hiterations, hskipped⟩ := hlast.teardown closed
  have hover := layout.over_calls session .standard graph opened closed channel
  have hafter : (Session.new options).after (.start opened graph .standard channel ::
      layout.calls closed session) = (last.teardown closed).2 := by
    rw [Session.after_of_start hstarted, ← layout.run_eq_after, hrun]
  refine ⟨Session.watches_watched options calls, ?_,
    ⟨_, Session.streamLayout_of_closing hrun, hiterations, hskipped⟩, ?_, ?_⟩
  · rw [Session.after_of_start hstarted, Session.after_append, ← layout.run_eq_after]
    rfl
  · intro hnodesFit hedgesFit
    have hnodeFrames := Session.length_nodes_of_teardown options
      (.start opened graph .standard channel :: layout.calls closed session) closed
    rw [hafter, Session.teardown_teardown] at hnodeFrames
    exact (hnodeFrames (hskipped hnodesFit hedgesFit)).trans hiterations
  · intro payload hpayload
    obtain ⟨message, hdecode, hshows⟩ := Session.shows_watched hover payload hpayload
    refine ⟨message, hdecode, fun frame hframe hkind => ?_⟩
    obtain ⟨hwell, hrows, hnames⟩ := hshows frame hframe hkind
    exact ⟨hwell, hrows, fun name hname => hnames ▸ hknown.nodes_placed name hname⟩

/-- Two iterations over a graph with a text id and a column of its own, into a queue that holds one
payload. -/
theorem always_streams_small :
    let config : Config := { standard with iterations := 2, nodeColumns := ["y", "id", "x"] }
    let nodes : NodeTable := ⟨[("id", .text ["née"]), ("color", .int [0]), ("size", .float32 [1]),
      ("note", .text ["first"])], 1⟩
    let edges : EdgeTable := ⟨[("edge", .int [4]), ("bundle", .int [0]), ("color", .int [2])], 1⟩
    let layout := (Jitter.ofSeed 7).layout ⟨nodes, edges⟩ 2
    let channel : Channel Queue := .onto (.ofCapacity 1)
    config.validate = .ok () ∧
    ∃ session, (Session.new config.sessionOptions).start .epoch ⟨nodes, edges⟩ .standard channel =
        .ok session ∧
      (∃ summary, (session.streamLayout .epoch layout).1 = .ok summary ∧
        summary.iterations = 2 ∧ summary.framesSkipped = 0) ∧
      ((Session.watched config.sessionOptions (.start .epoch ⟨nodes, edges⟩ .standard channel ::
        (layout.calls .epoch session ++ [.teardown .epoch]))).flatMap
          (Step.frames .nodes)).length = 2 := by
  intro config nodes edges layout channel
  have hvalid : config.validate = .ok () := by decide +kernel +zetaReduce
  have hunique : firstRepeat? ∅ [Label.text "née"] = none := by simp [firstRepeat?]
  have hnodes : nodes.Proper :=
    ⟨⟨by decide, by decide⟩,
      NodeTable.ofTable_ok rfl rfl rfl (by decide) (by decide) rfl hunique⟩
  have hedges : edges.Proper := ⟨⟨by decide, by decide⟩, by rfl⟩
  have hnodesFit : nodes.table.FitsWords := by decide +kernel +zetaReduce
  have hedgesFit : edges.table.FitsWords := by decide +kernel +zetaReduce
  obtain ⟨session, hstart, -, -, ⟨summary, hsummary, hiterations, hskipped⟩, hframes, -⟩ :=
    always_streams hvalid hnodes hedges rfl (Jitter.ofSeed 7) .epoch .epoch channel
  exact ⟨hvalid, session, hstart,
    ⟨summary, hsummary, hiterations, hskipped hnodesFit hedgesFit⟩, hframes hnodesFit hedgesFit⟩

end Config

end LiveLayout
