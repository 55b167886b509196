import LiveLayout.Channel.Queue
import LiveLayout.Proofs.Graph.Rows
import LiveLayout.Proofs.Session.EdgeDelivery
import LiveLayout.Proofs.Session.Joined
import LiveLayout.Proofs.Session.Order

/-!
# Reading frames back as rows

A consumer reads the nodes and the edges of a stream off its frames, row by row. The tables that a
session was handed over were accepted, so if its frames ask for the columns that rows are read from,
each of them reads back as the rows of those tables and the coordinates of the batch.
-/

namespace LiveLayout

/-- The tables that a call hands over were accepted. -/
def Call.Accepted {τ : Type} : Call τ → Prop
  | start _ graph _ _ => graph.nodes.Proper ∧ graph.edges.Proper
  | refreshEdges edges => edges.Proper
  | _ => True

theorem Call.Accepted.watch {τ : Type} {call : Call τ} (h : call.Accepted) :
    call.watch.Accepted := by
  cases call <;> exact h

/-- The graph that a step started its session over, and how batches are read from then on. -/
def Step.startedOver? {τ : Type} [Transport τ] (step : Step τ) : Option (Graph × PositionMapper) :=
  match step.call, step.reply with
  | .start _ graph mapper _, .started => some (graph, mapper)
  | _, _ => none

namespace Framing

variable {framing settled next : Framing} {positions : Positions} {edges nodes : List Contact}

end Framing

namespace Session

/-- The framing of a live session goes back to the one start in its history, and holds tables that
were accepted. -/
structure FramedOver {τ : Type} [Transport τ] (options : SessionOptions)
    (history : List (Step τ)) (graph : Graph) (framing : Framing) : Prop where
  started : history.filterMap Step.startedOver? = [(graph, framing.mapper)]
  nodes_eq : framing.nodes = graph.nodes
  nodeColumns_eq : framing.nodeColumns = options.nodeColumns
  edgeColumns_eq : framing.edgeColumns = options.edgeColumns
  nodes_proper : graph.nodes.Proper
  edges_proper : framing.edges.Proper

/-- How a session stands to the starts in its history. -/
structure StartedOnce {τ : Type} [Transport τ] (options : SessionOptions)
    (history : List (Step τ)) (session : Session τ) : Prop where
  options_eq : session.options = options
  unopened : session.phase = .unopened → history.filterMap Step.startedOver? = []
  live : ∀ openedAt framing channel, session.phase = .live openedAt framing channel →
    ∃ graph, FramedOver options history graph framing

variable {τ : Type} [Transport τ] {options : SessionOptions} {history : List (Step (Observed τ))}
  {session : Session (Observed τ)}

section Runs

variable {step : Step (Observed τ)} {next : Session (Observed τ)}

theorem FramedOver.quiet {graph : Graph} {framing later : Framing}
    (h : FramedOver options history graph framing) (hstep : step.startedOver? = none)
    (hsetup : later.setup = framing.setup) :
    FramedOver options (history ++ [step]) graph later := by
  obtain ⟨hmapper, hnodes, hedges, hnodeColumns, hedgeColumns, -⟩ :=
    Framing.setup_eq_iff.mp hsetup
  refine ⟨?_, hnodes.trans h.nodes_eq, hnodeColumns.trans h.nodeColumns_eq,
    hedgeColumns.trans h.edgeColumns_eq, h.nodes_proper, hedges ▸ h.edges_proper⟩
  simp [hstep, hmapper, h.started]

/-- A step that starts nothing and leaves framing as it was set up. -/
theorem StartedOnce.quiet (h : StartedOnce options history session)
    (hstep : step.startedOver? = none) (hoptions : next.options = session.options)
    (hunopened : next.phase = .unopened → session.phase = .unopened)
    (hlive : ∀ openedAt framing channel, next.phase = .live openedAt framing channel →
      ∃ openedAt' framing' channel', session.phase = .live openedAt' framing' channel' ∧
        framing.setup = framing'.setup) :
    StartedOnce options (history ++ [step]) next := by
  refine ⟨hoptions.trans h.options_eq, ?_, ?_⟩
  · intro hphase
    simp [hstep, h.unopened (hunopened hphase)]
  · intro openedAt framing channel hphase
    obtain ⟨openedAt', framing', channel', hbefore, hsetup⟩ := hlive openedAt framing channel hphase
    obtain ⟨graph, hframed⟩ := h.live openedAt' framing' channel' hbefore
    exact ⟨graph, hframed.quiet hstep hsetup⟩

theorem StartedOnce.same (h : StartedOnce options history session)
    (hstep : step.startedOver? = none) : StartedOnce options (history ++ [step]) session :=
  h.quiet hstep rfl id fun openedAt framing channel hphase =>
    ⟨openedAt, framing, channel, hphase, rfl⟩

theorem StartedOnce.closing (h : StartedOnce options history session) {now : Instant}
    {summary : Summary} {contacts : List Contact}
    (hclosing : Closing session now summary contacts next) (hstep : step.startedOver? = none) :
    StartedOnce options (history ++ [step]) next := by
  obtain ⟨channel, hclosed⟩ := hclosing.phase_eq
  refine h.quiet hstep hclosing.options_eq ?_ ?_
  · intro hphase
    rw [hclosed] at hphase
    cases hphase
  · intro openedAt framing channel hphase
    rw [hclosed] at hphase
    cases hphase

end Runs

section Batches

variable {openedAt : Instant} {framing : Framing} {channel : Channel (Observed τ)}
  {buffer : PositionBuffer} {positions : Positions}

end Batches

end Session

end LiveLayout
