import LiveLayout.Channel.Scripted
import LiveLayout.Proofs.Session.Frames

/-!
# Backpressure

What the channel answers decides how often an edge frame is tried and nothing else. So a session
looks to the layout as it would over a channel without a transport, and two runs with the same calls
look alike to it, whatever their transports answer and whatever updates go out in between.
-/

namespace LiveLayout

/-- There is no transport at all. -/
instance : Transport Empty where
  name := nofun
  trySend := nofun
  sendTimeout := nofun
  close := nofun

/-- The summary without what the channel and the clock have a part in. -/
def Summary.bare (summary : Summary) : Summary :=
  ⟨summary.iterations, 0, summary.framesSkipped, .zero, false, none, .epoch⟩

/-- The framing as it would be over a channel that takes nothing: an edge frame is still owed if it
has a wire form. -/
def Framing.bare (framing : Framing) : Framing :=
  { framing with
    edgesPending := framing.edgesPending || framing.edgeFrame.isOk, edgeFrames := 0 }

/-- An update is out of band: it is no call of the layout. -/
def Call.inBand {τ : Type} : Call τ → Bool
  | update _ => false
  | _ => true

/-- The call without its channel and its time. -/
def Call.bare {τ : Type} : Call τ → Call Empty
  | start _ graph mapper _ => .start .epoch graph mapper .unopened
  | iterate buffer => .iterate buffer
  | update payload => .update payload
  | refreshEdges edges => .refreshEdges edges
  | teardown _ => .teardown .epoch
  | close _ => .close .epoch

/-- The reply without what the channel and the clock have a part in. -/
def Reply.bare {τ : Type} : Reply τ → Reply Empty
  | started => .started
  | notStarted error _ => .notStarted error .unopened
  | iterated result => .iterated result
  | updated result => .updated result
  | refreshed result => .refreshed result
  | tornDown summary => .tornDown summary.bare
  | closed result => .closed result

/-- The session as it would be over a channel without a transport. -/
def Session.bare {τ : Type} (session : Session τ) : Session Empty :=
  match session.phase with
  | .unopened => ⟨session.options, .unopened⟩
  | .live _ framing _ => ⟨session.options, .live .epoch framing.bare .unopened⟩
  | .closed summary _ => ⟨session.options, .closed summary.bare .unopened⟩

/-- The step as it would be over a channel without a transport. -/
def Step.bare {τ : Type} (step : Step τ) : Step Empty := ⟨step.before.bare, step.call.bare⟩

theorem Call.bare_bare {τ : Type} (call : Call τ) : call.bare.bare = call.bare := by
  cases call <;> rfl

theorem Call.inBand_bare {τ : Type} (call : Call τ) : call.bare.inBand = call.inBand := by
  cases call <;> rfl

theorem Call.bare_watch {τ : Type} (call : Call τ) : call.watch.bare = call.bare := by
  cases call <;> rfl

namespace Framing

theorem isOk_edgeFrame_congr {framing other : Framing} (hsetup : other.setup = framing.setup) :
    other.edgeFrame.isOk = framing.edgeFrame.isOk := by
  obtain ⟨-, -, hedges, -, hcolumns, -⟩ := setup_eq_iff.mp hsetup
  simp only [edgeFrame, edgeFrameColumns, hedges, hcolumns]
  exact isOk_encodeColumns _ _ _ _ _

theorem bare_of_ok {framing : Framing} (h : framing.edgeFrame.isOk = true) :
    framing.bare = { framing with edgesPending := true, edgeFrames := 0 } := by
  rw [bare, h, Bool.or_true]

theorem bare_of_error {framing : Framing} (h : framing.edgeFrame.isOk = false) :
    framing.bare = { framing with edgeFrames := 0 } := by
  rw [bare, h, Bool.or_false]

theorem bare_bare (framing : Framing) : framing.bare.bare = framing.bare := by
  have hframe : framing.bare.edgeFrame = framing.edgeFrame := rfl
  rw [bare, hframe]
  simp [bare]

/-- A refresh comes out the same, and the new edge table is then owed either way. -/
theorem refreshEdges_bare (framing : Framing) (edges : EdgeTable) :
    framing.bare.refreshEdges edges = (framing.refreshEdges edges).map Framing.bare := by
  have hcolumns : framing.bare.edgeColumns = framing.edgeColumns := rfl
  have hnodes : framing.bare.nodes = framing.nodes := rfl
  rw [refreshEdges_eq, refreshEdges_eq, hcolumns, hnodes]
  cases checkEdgeColumns edges [] framing.edgeColumns with
  | error error => rfl
  | ok value =>
      cases edges.validate framing.nodes with
      | error error => rfl
      | ok value => rfl

variable {τ : Type} [Transport τ]

/-- An edge frame that has a wire form leaves nothing that shows. -/
theorem bare_settleEdges_of_ok {framing : Framing} {wire : Bytes} (h : framing.edgeFrame = .ok wire)
    (channel : Channel τ) : (framing.settleEdges channel).1.bare = framing.bare := by
  have hok : framing.edgeFrame.isOk = true := isOk_iff.mpr ⟨wire, h⟩
  have hafter := isOk_edgeFrame_congr (setup_settleEdges framing channel)
  rw [bare_of_ok hok, bare_of_ok (hafter.trans hok)]
  unfold settleEdges sendEdges
  simp only [h]
  split_ifs <;> rfl

/-- What the channel does with an edge frame shows only in whether one is owed and in how many were
taken. -/
theorem settleEdges_bare (framing : Framing) (channel : Channel τ) :
    (framing.bare.settleEdges (.unopened : Channel Empty)).1 =
      (framing.settleEdges channel).1.bare := by
  cases h : framing.edgeFrame with
  | ok wire =>
      have hok : framing.edgeFrame.isOk = true := isOk_iff.mpr ⟨wire, h⟩
      have hframe : framing.bare.edgeFrame = .ok wire := h
      rw [bare_settleEdges_of_ok h]
      unfold settleEdges sendEdges
      rw [hframe]
      split_ifs <;> rfl
  | error error =>
      have hnone : framing.edgeFrame.isOk = false := by rw [h]; rfl
      have hafter := isOk_edgeFrame_congr (setup_settleEdges framing channel)
      rw [bare_of_error hnone, bare_of_error (hafter.trans hnone)]
      have hframe : Framing.edgeFrame { framing with edgeFrames := 0 } = .error error := h
      unfold settleEdges sendEdges
      rw [hframe, h]
      by_cases howed : framing.owesEdges = true
      · have howed' : Framing.owesEdges { framing with edgeFrames := 0 } = true := howed
        rw [if_pos howed, if_pos howed']
      · have howed' : ¬ Framing.owesEdges { framing with edgeFrames := 0 } = true := howed
        rw [if_neg howed, if_neg howed']

/-- Of the node frame only the channel knows whether it was taken. -/
theorem sendNodes_bare (framing : Framing) (rows : Nat) (columns : List (String × Column))
    (bare : Channel Empty) (channel : Channel τ) :
    (framing.bare.sendNodes rows columns bare).1 =
      (framing.sendNodes rows columns channel).1.bare := by
  have hafter := isOk_edgeFrame_congr (setup_sendNodes framing rows columns channel)
  have hiteration : framing.bare.iteration = framing.iteration := rfl
  conv_rhs => rw [Framing.bare, hafter]
  unfold sendNodes
  rw [hiteration]
  split <;> rfl

/-- A batch comes out the same whatever the channel answers. -/
theorem Named.invoke_bare {framing : Framing} (hnamed : framing.Named) (buffer : PositionBuffer)
    (channel : Channel τ) :
    (framing.bare.invoke buffer (.unopened : Channel Empty)).1 =
        (framing.invoke buffer channel).1 ∧
      (framing.bare.invoke buffer (.unopened : Channel Empty)).2.1 =
        (framing.invoke buffer channel).2.1.bare := by
  have hbatch : framing.bare.batch buffer = framing.batch buffer := rfl
  have hbare : framing.bare.Named := hnamed.of_setup_eq rfl
  rw [hnamed.invoke_eq, hbare.invoke_eq, hbatch]
  cases framing.batch buffer with
  | error error => exact ⟨rfl, rfl⟩
  | ok positions =>
      refine ⟨rfl, ?_⟩
      have hcolumns : framing.bare.nodeFrameColumns positions =
          framing.nodeFrameColumns positions := rfl
      dsimp only
      rw [hcolumns, settleEdges_bare framing channel]
      exact sendNodes_bare _ _ _ _ _

end Framing

namespace Session

variable {τ : Type}

@[simp] theorem state_bare (session : Session τ) : session.bare.state = session.state := by
  rcases session with ⟨options, _ | _ | _⟩ <;> rfl

@[simp] theorem iteration_bare (session : Session τ) :
    session.bare.iteration = session.iteration := by
  rcases session with ⟨options, _ | _ | _⟩ <;> rfl

@[simp] theorem framesSkipped_bare (session : Session τ) :
    session.bare.framesSkipped = session.framesSkipped := by
  rcases session with ⟨options, _ | _ | _⟩ <;> rfl

theorem bare_live (options : SessionOptions) (openedAt : Instant) (framing : Framing)
    (channel : Channel τ) :
    (⟨options, .live openedAt framing channel⟩ : Session τ).bare =
      ⟨options, .live .epoch framing.bare .unopened⟩ := rfl

theorem bare_bare (session : Session τ) : session.bare.bare = session.bare := by
  rcases session with ⟨options, _ | ⟨openedAt, framing, channel⟩ | _⟩
  · rfl
  · rw [bare_live, bare_live, framing.bare_bare]
  · rfl

variable [Transport τ]

theorem perform_start_unopened (options : SessionOptions) (now : Instant) (graph : Graph)
    (mapper : PositionMapper) (channel : Channel τ) :
    (⟨options, .unopened⟩ : Session τ).perform (.start now graph mapper channel) =
      match Framing.start mapper graph options with
      | .ok framing => (.started, ⟨options, .live now framing channel⟩)
      | .error error => (.notStarted error channel.close, ⟨options, .unopened⟩) := by
  cases h : Framing.start mapper graph options <;> simp only [perform_start, start_eq, h]

theorem perform_refreshEdges_live (options : SessionOptions) (openedAt : Instant) (framing : Framing)
    (channel : Channel τ) (edges : EdgeTable) :
    (⟨options, .live openedAt framing channel⟩ : Session τ).perform (.refreshEdges edges) =
      match framing.refreshEdges edges with
      | .ok next => (.refreshed (.ok ()), ⟨options, .live openedAt next channel⟩)
      | .error error => (.refreshed (.error error), ⟨options, .live openedAt framing channel⟩) := by
  cases h : framing.refreshEdges edges <;> simp only [perform, refreshEdges_live, h]

/-- A call comes out the same over a channel without a transport. -/
theorem Named.perform_bare {session : Session τ} (hnamed : session.Named) (call : Call τ)
    (hcall : call.inBand = true) :
    (session.bare.perform call.bare).1.bare = (session.perform call).1.bare ∧
      (session.bare.perform call.bare).2.bare = (session.perform call).2.bare := by
  rcases session with ⟨options, _ | ⟨openedAt, framing, channel⟩ | ⟨summary, channel⟩⟩
  · cases call with
    | start now graph mapper channel =>
        rw [perform_start_unopened, Session.bare, Call.bare, perform_start_unopened]
        cases hstart : Framing.start mapper graph options with
        | error error => exact ⟨rfl, rfl⟩
        | ok framing => exact ⟨rfl, rfl⟩
    | _ => exact ⟨rfl, rfl⟩
  · have hframing := hnamed _ _ _ rfl
    cases call with
    | start now graph mapper own => exact ⟨rfl, bare_bare ⟨options, .live openedAt framing channel⟩⟩
    | iterate buffer =>
        obtain ⟨hresult, hnext⟩ := hframing.invoke_bare buffer channel
        refine ⟨congrArg Reply.iterated hresult, ?_⟩
        have hsame := (congrArg Framing.bare hnext).trans (Framing.bare_bare _)
        exact congrArg (fun framing : Framing =>
          (⟨options, .live .epoch framing .unopened⟩ : Session Empty)) hsame
    | update payload => cases hcall
    | refreshEdges edges =>
        rw [perform_refreshEdges_live, bare_live, Call.bare, perform_refreshEdges_live,
          framing.refreshEdges_bare]
        cases framing.refreshEdges edges with
        | error error => exact ⟨rfl, bare_bare ⟨options, .live openedAt framing channel⟩⟩
        | ok next => exact ⟨rfl, bare_bare ⟨options, .live openedAt next channel⟩⟩
    | _ => exact ⟨rfl, rfl⟩
  · cases call with
    | update payload => cases hcall
    | _ => exact ⟨rfl, rfl⟩

/-- An update shows in nothing that the layout sees. -/
theorem perform_update_bare (session : Session τ) (payload : Bytes) :
    (session.perform (.update payload)).2.bare = session.bare := by
  rcases session with ⟨options, _ | _ | _⟩ <;> rfl

end Session

namespace Step

variable {τ : Type} [Transport τ]

/-- The step is no update. -/
def inBand (step : Step τ) : Bool := step.call.inBand

/-- What the layout gets to see of a step: the reply, the state, the number of iterations and the
number of skipped frames. -/
def outcome (step : Step τ) : Reply Empty × SessionState × Nat × Nat :=
  (step.reply.bare, step.after.state, step.after.iteration, step.after.framesSkipped)

/-- The step changes nothing of the session that the layout gets to see. -/
def Unnoticed (step : Step τ) : Prop :=
  step.after.state = step.before.state ∧ step.after.iteration = step.before.iteration ∧
    step.after.framesSkipped = step.before.framesSkipped

/-- The node frames that a step puts to the channel: one if it is a batch that is not refused and
has a wire form. -/
def nodeFrames (step : Step τ) : List Bytes :=
  match step.call, step.before.phase with
  | .iterate buffer, .live _ framing _ =>
    ((framing.batch buffer).toOption.bind fun positions =>
      (framing.nodeFrame positions).toOption).toList
  | _, _ => []

/-- What is seen of a step, beside the node frames that it puts to the channel. -/
def shown (step : Step τ) : (Reply Empty × SessionState × Nat × Nat) × List Bytes :=
  (step.outcome, step.nodeFrames)

/-- An update goes unnoticed. -/
theorem unnoticed_of_update (step : Step τ) (h : step.inBand = false) : step.Unnoticed := by
  rcases step with ⟨session, call⟩
  cases call with
  | update payload =>
      have hbare : (Step.mk session (.update payload)).after.bare = session.bare :=
        session.perform_update_bare payload
      refine ⟨?_, ?_, ?_⟩
      · simpa using congrArg Session.state hbare
      · simpa using congrArg Session.iteration hbare
      · simpa using congrArg Session.framesSkipped hbare
  | _ => cases h

omit [Transport τ] in
theorem nodeFrames_bare (step : Step τ) : step.bare.nodeFrames = step.nodeFrames := by
  rcases step with ⟨⟨options, _ | _ | _⟩, call⟩ <;> cases call <;> rfl

omit [Transport τ] in
/-- An update puts no node frame to the channel. -/
theorem nodeFrames_of_update {step : Step τ} (h : step.inBand = false) : step.nodeFrames = [] := by
  rcases step with ⟨session, call⟩
  cases call with
  | update payload => rfl
  | _ => cases h

omit [Transport τ] in
theorem flatMap_nodeFrames_filter (steps : List (Step τ)) :
    (steps.filter inBand).flatMap nodeFrames = steps.flatMap nodeFrames := by
  induction steps with
  | nil => rfl
  | cons step rest ih =>
      by_cases hband : step.inBand = true
      · rw [List.filter_cons_of_pos hband, List.flatMap_cons, List.flatMap_cons, ih]
      · have hnone := nodeFrames_of_update (Bool.eq_false_iff.mpr hband)
        rw [List.filter_cons_of_neg hband, List.flatMap_cons, hnone, List.nil_append, ih]

theorem outcome_eq (step : Step τ) :
    step.outcome = (step.reply.bare, step.after.bare.state, step.after.bare.iteration,
      step.after.bare.framesSkipped) := by
  simp [outcome]

/-- A step shows the same over a channel without a transport. -/
theorem shown_bare (step : Step τ) (hnamed : step.before.Named) (hcall : step.inBand = true) :
    step.bare.shown = step.shown := by
  obtain ⟨hreply, hafter⟩ := hnamed.perform_bare step.call hcall
  have hreply' : step.bare.reply.bare = step.reply.bare := hreply
  have hafter' : step.bare.after.bare = step.after.bare := hafter
  rw [shown, shown, nodeFrames_bare, outcome_eq, outcome_eq, hreply', hafter']

end Step

namespace Session

variable {τ : Type} [Transport τ]

/-- The steps of any session show what those of a session over a channel without a transport do,
which is given the same calls but for updates. -/
theorem Named.map_shown_steps {session : Session τ} {other : Session Empty}
    (hnamed : session.Named) (hother : other.Named) (hsame : other.bare = session.bare)
    (calls : List (Call τ)) :
    ((session.steps calls).filter Step.inBand).map Step.shown =
      (other.steps ((calls.filter Call.inBand).map Call.bare)).map Step.shown := by
  -- The sessions look alike from call to call; an update is a step of the first of them only.
  induction calls generalizing session other with
  | nil => rfl
  | cons call rest ih =>
      by_cases hcall : call.inBand = true
      · have hstep : (Step.mk session call).inBand = true := hcall
        have hbare : call.bare.inBand = true := call.inBand_bare.trans hcall
        rw [Session.steps, List.filter_cons_of_pos hstep, List.filter_cons_of_pos hcall,
          List.map_cons, List.map_cons, Session.steps, List.map_cons]
        congr 1
        · have hsteps : (Step.mk other call.bare).bare = (Step.mk session call).bare := by
            rw [Step.bare, Step.bare, hsame, call.bare_bare]
          calc
            (Step.mk session call).shown = (Step.mk session call).bare.shown :=
              (Step.shown_bare ⟨session, call⟩ hnamed hcall).symm
            _ = (Step.mk other call.bare).bare.shown := by rw [hsteps]
            _ = (Step.mk other call.bare).shown :=
              Step.shown_bare ⟨other, call.bare⟩ hother hbare
        · refine ih (hnamed.perform call) (hother.perform call.bare) ?_
          calc
            (other.perform call.bare).2.bare = (other.bare.perform call.bare.bare).2.bare :=
              (hother.perform_bare call.bare hbare).2.symm
            _ = (session.bare.perform call.bare).2.bare := by rw [hsame, call.bare_bare]
            _ = (session.perform call).2.bare := (hnamed.perform_bare call hcall).2
      · have hstep : ¬ (Step.mk session call).inBand = true := hcall
        rw [Session.steps, List.filter_cons_of_neg hstep, List.filter_cons_of_neg hcall]
        refine ih (hnamed.perform call) hother ?_
        cases call with
        | update payload => rw [perform_update_bare, hsame]
        | _ => exact absurd rfl hcall

/-- The node frames of a step are those that it puts to the channel. -/
theorem Sound.offered_nodes {session : Session (Observed τ)} (h : session.Sound)
    (call : Call (Observed τ)) :
    ((Step.mk session call).frames .nodes).filterMap Contact.offered? =
      (Step.mk session call).nodeFrames := by
  cases call with
  | iterate buffer =>
      cases hstreamed : (Step.mk session (.iterate buffer)).streamed with
      | true =>
          obtain ⟨openedAt, framing, channel, positions, edges, nodes, settled, next, hphase, -,
            hbatch, hsettles, hadvances, -, hnodes, -⟩ := h.batch hstreamed
          have hframe := Framing.nodeFrame_congr hsettles.setup_eq hsettles.iteration_eq positions
          rw [hnodes]
          simp only [Step.nodeFrames, hphase, hbatch]
          cases hadvances with
          | offered hwire =>
              rw [hframe] at hwire
              simp [Except.toOption, hwire, Contact.offered?]
          | skipped hwire =>
              rw [hframe] at hwire
              simp [Except.toOption, hwire]
      | false =>
          rw [Step.frames_of_contacts_eq_nil (h.contacts_of_refused hstreamed), List.filterMap_nil]
          rcases hphase : session.phase with _ | ⟨openedAt, framing, channel⟩ | _
          · simp only [Step.nodeFrames, hphase]
          · rw [h.named.streamed_eq hphase] at hstreamed
            simp only [Step.nodeFrames, hphase]
            cases hbatch : framing.batch buffer with
            | error error => rfl
            | ok positions =>
                rw [hbatch] at hstreamed
                cases hstreamed
          · simp only [Step.nodeFrames, hphase]
  | _ => rfl

theorem map_shown_steps_new (options : SessionOptions) (calls : List (Call τ)) :
    (((new options).steps calls).filter Step.inBand).map Step.shown =
      ((new options : Session Empty).steps ((calls.filter Call.inBand).map Call.bare)).map
        Step.shown := by
  have hnamed : (new options : Session τ).Named := named_new options
  exact hnamed.map_shown_steps (named_new options) rfl calls

omit [Transport τ] in
theorem bare_calls_watch (calls : List (Call τ)) :
    ((calls.map Call.watch).filter Call.inBand).map Call.bare =
      (calls.filter Call.inBand).map Call.bare := by
  have hband : Call.inBand ∘ Call.watch = (Call.inBand : Call τ → Bool) := by
    funext call
    cases call <;> rfl
  rw [List.filter_map, hband, List.map_map]
  exact List.map_congr_left fun call _ => call.bare_watch

/-- The node frames that a run puts to its channels show in its steps that are no updates. -/
theorem offered_nodes_watched (options : SessionOptions) (calls : List (Call τ)) :
    ((watched options calls).flatMap (Step.frames .nodes)).filterMap Contact.offered? =
      (((watched options calls).filter Step.inBand).map Step.shown).flatMap Prod.snd := by
  have hoffered : ∀ step ∈ watched options calls,
      (step.frames .nodes).filterMap Contact.offered? = step.nodeFrames := fun step hstep =>
    (sound_of_mem_watched hstep).2.offered_nodes step.call
  rw [List.filterMap_flatMap, List.flatMap_map]
  exact (List.flatMap_congr hoffered).trans (Step.flatMap_nodeFrames_filter _).symm

/-- Two runs with the same calls but for updates, times and channels, whatever their transports
answer: every call comes out the same in both, with the summaries compared without what the channel
and the clock have a part in, and leaves the same state, the same number of iterations and the same
number of skipped frames. Updates change none of these, and the node frames that the two runs put to
their channels are the same, byte for byte and in the same order. -/
theorem layout_undisturbed {σ τ : Type} [Transport σ] [Transport τ] (options : SessionOptions)
    (calls : List (Call σ)) (others : List (Call τ))
    (hsame : (calls.filter Call.inBand).map Call.bare =
      (others.filter Call.inBand).map Call.bare) :
    let steps := (new options).steps calls
    let steps' := (new options).steps others
    let history := watched options calls
    let history' := watched options others
    (steps.filter Step.inBand).map Step.outcome = (steps'.filter Step.inBand).map Step.outcome ∧
    (∀ step ∈ steps, step.inBand = false → step.Unnoticed) ∧
    (∀ step ∈ steps', step.inBand = false → step.Unnoticed) ∧
    Watches history steps ∧ Watches history' steps' ∧
    (history.flatMap (Step.frames .nodes)).filterMap Contact.offered? =
      (history'.flatMap (Step.frames .nodes)).filterMap Contact.offered? := by
  intro steps steps' history history'
  refine ⟨?_, fun step _ => step.unnoticed_of_update, fun step _ => step.unnoticed_of_update,
    watches_watched options calls, watches_watched options others, ?_⟩
  · have hshown : (steps.filter Step.inBand).map Step.shown =
        (steps'.filter Step.inBand).map Step.shown := by
      rw [map_shown_steps_new, hsame, ← map_shown_steps_new]
    have houtcomes := congrArg (List.map Prod.fst) hshown
    rw [List.map_map, List.map_map] at houtcomes
    exact houtcomes
  · have hwatched := (bare_calls_watch calls).trans (hsame.trans (bare_calls_watch others).symm)
    rw [offered_nodes_watched, offered_nodes_watched, watched, watched, map_shown_steps_new,
      hwatched, ← map_shown_steps_new]

/-- A run that loses its first edge frame and sends an update, beside one that loses nothing. -/
theorem layout_undisturbed_lossy :
    let nodes : NodeTable := ⟨[("id", .int [7]), ("color", .int [0]), ("size", .int [1])], 1⟩
    let edges : EdgeTable := ⟨[("edge", .int [4]), ("bundle", .int [0]), ("color", .int [2])], 1⟩
    let options : SessionOptions := ⟨["id", "x"], ["edge"], false, 500⟩
    let start (answers : List SendResult) : Call Scripted :=
      .start .epoch ⟨nodes, edges⟩ .standard (.onto (.ofAnswers answers []))
    let calls : List (Call Scripted) :=
      [start [], .iterate (.columnar [5] [6]), .iterate (.columnar [8] [9]), .teardown .epoch]
    let others : List (Call Scripted) :=
      [start [.dropped .wouldBlock], .iterate (.columnar [5] [6]), .update [1, 2],
        .iterate (.columnar [8] [9]), .teardown .epoch]
    let history := watched options calls
    let history' := watched options others
    (calls.filter Call.inBand).map Call.bare = (others.filter Call.inBand).map Call.bare ∧
    (((new options).steps calls).filter Step.inBand).map Step.outcome =
      (((new options).steps others).filter Step.inBand).map Step.outcome ∧
    (history.flatMap (Step.frames .nodes)).filterMap Contact.offered? =
      (history'.flatMap (Step.frames .nodes)).filterMap Contact.offered? ∧
    (history.flatMap (Step.frames .nodes)).length = 2 ∧
    (history.flatMap (Step.frames .edges)).length = 1 ∧
    (history'.flatMap (Step.frames .edges)).length = 2 := by
  intro nodes edges options start calls others history history'
  have hsame : (calls.filter Call.inBand).map Call.bare =
      (others.filter Call.inBand).map Call.bare := rfl
  obtain ⟨houtcomes, -, -, -, -, hnodes⟩ := layout_undisturbed options calls others hsame
  refine ⟨hsame, houtcomes, hnodes, ?_, ?_, ?_⟩
  · decide +kernel +zetaReduce
  · decide +kernel +zetaReduce
  · decide +kernel +zetaReduce

end Session

end LiveLayout
