import LiveLayout.Proofs.Channel.Watched
import LiveLayout.Proofs.Session.Framing
import LiveLayout.Session.Basic

/-!
# Sequences of calls

A session is driven by calls, in any order and whether they succeed or not. What a call does to
the transport is what it adds to the journal of the session, and the journal of a whole sequence is
what its calls add one after another.
-/

namespace LiveLayout

/-- A call of a session with its arguments. -/
inductive Call (τ : Type) where
  | start (now : Instant) (graph : Graph) (mapper : PositionMapper) (channel : Channel τ)
  | iterate (buffer : PositionBuffer)
  | update (payload : Bytes)
  | refreshEdges (edges : EdgeTable)
  | teardown (now : Instant)
  | close (now : Instant)

/-- What a call returned. A start that fails hands its channel back. -/
inductive Reply (τ : Type) where
  | started
  | notStarted (error : StreamError) (channel : Channel τ)
  | iterated (result : Except StreamError Unit)
  | updated (result : Except StreamError SendResult)
  | refreshed (result : Except StreamError Unit)
  | tornDown (summary : Summary)
  | closed (result : Except StreamError Unit)

/-- A batch was streamed. -/
def Reply.streamed {τ : Type} : Reply τ → Bool
  | iterated (.ok ()) => true
  | _ => false

/-- A batch was refused. -/
def Reply.refusedBatch {τ : Type} : Reply τ → Bool
  | iterated (.error _) => true
  | _ => false

/-- A session and the call that is made of it. -/
structure Step (τ : Type) where
  before : Session τ
  call : Call τ

namespace Session

variable {τ : Type} [Transport τ]

/-- Makes a call. -/
def perform (session : Session τ) : Call τ → Reply τ × Session τ
  | .start now graph mapper channel =>
    match (startHeld now graph mapper channel).run session with
    | .ok _ started => (.started, started)
    | .error (error, channel) left => (.notStarted error channel, left)
  | .iterate buffer =>
    let (result, session) := session.iterate buffer
    (.iterated result, session)
  | .update payload =>
    let (result, session) := session.update payload
    (.updated result, session)
  | .refreshEdges edges =>
    let (result, session) := session.refreshEdges edges
    (.refreshed result, session)
  | .teardown now =>
    let (summary, session) := session.teardown now
    (.tornDown summary, session)
  | .close now =>
    let (result, session) := (callback now).onClose session
    (.closed result, session)

section Held

variable (session : Session τ) (now : Instant) (graph : Graph) (mapper : PositionMapper)
  (channel : Channel τ)

theorem start_eq :
    session.start now graph mapper channel =
      match session.phase with
      | .unopened =>
        match Framing.start mapper graph session.options with
        | .ok framing => .ok ⟨session.options, .live now framing channel⟩
        | .error error => .error (error, channel.close)
      | _ => .error (session.refusal .start, channel.close) := by
  rcases session with ⟨options, _ | _ | _⟩
  · cases hstart : Framing.start mapper graph options <;> simp [start, startHeld, hstart]
  · rfl
  · rfl

/-- A start writes to the session that is held only behind its checks, so that it is as it was if
one of them fails. -/
theorem run_startHeld :
    (startHeld now graph mapper channel).run session =
      heldBehind session (session.start now graph mapper channel) := by
  rw [start_eq]
  rcases session with ⟨options, _ | _ | _⟩
  · cases hstart : Framing.start mapper graph options <;> simp [startHeld, heldBehind, hstart]
  · rfl
  · rfl

theorem perform_start :
    session.perform (.start now graph mapper channel) =
      match session.start now graph mapper channel with
      | .ok started => (.started, started)
      | .error (error, closed) => (.notStarted error closed, session) := by
  rw [perform, run_startHeld]
  cases session.start now graph mapper channel <;> rfl

omit [Transport τ] in
theorem refreshEdges_live (options : SessionOptions) (openedAt : Instant) (framing : Framing)
    (edges : EdgeTable) :
    refreshEdges ⟨options, .live openedAt framing channel⟩ edges =
      match framing.refreshEdges edges with
      | .ok next => (.ok (), ⟨options, .live openedAt next channel⟩)
      | .error error => (.error error, ⟨options, .live openedAt framing channel⟩) := by
  simp only [refreshEdges, Framing.run_refreshHeld]
  cases framing.refreshEdges edges <;> rfl

end Held

theorem start_new {options : SessionOptions} {graph : Graph} {mapper : PositionMapper}
    {framing : Framing} (h : Framing.start mapper graph options = .ok framing) (now : Instant)
    (channel : Channel τ) :
    (new options).start now graph mapper channel = .ok ⟨options, .live now framing channel⟩ := by
  simp only [start_eq, new, h]

theorem perform_of_start {session started : Session τ} {now : Instant} {graph : Graph}
    {mapper : PositionMapper} {channel : Channel τ}
    (h : session.start now graph mapper channel = .ok started) :
    session.perform (.start now graph mapper channel) = (.started, started) := by
  simp only [perform_start, h]

/-- The steps of a sequence of calls. -/
def steps (session : Session τ) : List (Call τ) → List (Step τ)
  | [] => []
  | call :: rest => ⟨session, call⟩ :: (session.perform call).2.steps rest

/-- The session after a sequence of calls. -/
def after (session : Session τ) (calls : List (Call τ)) : Session τ :=
  calls.foldl (fun session call => (session.perform call).2) session

theorem after_of_start {session started : Session τ} {now : Instant} {graph : Graph}
    {mapper : PositionMapper} {channel : Channel τ}
    (h : session.start now graph mapper channel = .ok started) (rest : List (Call τ)) :
    session.after (.start now graph mapper channel :: rest) = started.after rest := by
  rw [after, List.foldl_cons, perform_of_start h]
  rfl

end Session

namespace Step

variable {τ : Type} [Transport τ]

/-- What the call of a step returned. -/
def reply (step : Step τ) : Reply τ := (step.before.perform step.call).1

/-- The session after a step. -/
def after (step : Step τ) : Session τ := (step.before.perform step.call).2

/-- The step streamed a batch. -/
def streamed (step : Step τ) : Bool := step.reply.streamed

end Step

section Faithful

variable {σ τ : Type}

/-- The session with its channel exchanged. -/
def Session.mapChannel (g : Channel σ → Channel τ) (session : Session σ) : Session τ :=
  match session.phase with
  | .unopened => ⟨session.options, .unopened⟩
  | .live openedAt framing channel => ⟨session.options, .live openedAt framing (g channel)⟩
  | .closed summary channel => ⟨session.options, .closed summary (g channel)⟩

/-- The call with the channel that it brings exchanged. -/
def Call.mapChannel (g : Channel σ → Channel τ) : Call σ → Call τ
  | start now graph mapper channel => .start now graph mapper (g channel)
  | iterate buffer => .iterate buffer
  | update payload => .update payload
  | refreshEdges edges => .refreshEdges edges
  | teardown now => .teardown now
  | close now => .close now

/-- The reply with the channel that it hands back exchanged. -/
def Reply.mapChannel (g : Channel σ → Channel τ) : Reply σ → Reply τ
  | started => .started
  | notStarted error channel => .notStarted error (g channel)
  | iterated result => .iterated result
  | updated result => .updated result
  | refreshed result => .refreshed result
  | tornDown summary => .tornDown summary
  | closed result => .closed result

/-- The step with all its channels exchanged. -/
def Step.mapChannel (g : Channel σ → Channel τ) (step : Step σ) : Step τ :=
  ⟨step.before.mapChannel g, step.call.mapChannel g⟩

variable [Transport σ] [Transport τ] {g : Channel σ → Channel τ}

theorem Framing.sendEdges_mapChannel (hg : Channel.Faithful g) (framing : Framing)
    (channel : Channel σ) :
    framing.sendEdges (g channel) =
      ((framing.sendEdges channel).1, g (framing.sendEdges channel).2) := by
  unfold sendEdges
  cases framing.edgeFrame with
  | error error => rfl
  | ok wire =>
      simp only [hg.send]
      split_ifs <;> rfl

theorem Framing.sendNodes_mapChannel (hg : Channel.Faithful g) (framing : Framing) (rows : Nat)
    (columns : List (String × Column)) (channel : Channel σ) :
    framing.sendNodes rows columns (g channel) =
      ((framing.sendNodes rows columns channel).1,
        g (framing.sendNodes rows columns channel).2) := by
  unfold sendNodes
  split
  · rw [hg.send]
  · rfl

theorem Framing.invoke_mapChannel (hg : Channel.Faithful g) (framing : Framing)
    (buffer : PositionBuffer) (channel : Channel σ) :
    framing.invoke buffer (g channel) =
      ((framing.invoke buffer channel).1, (framing.invoke buffer channel).2.1,
        g (framing.invoke buffer channel).2.2) := by
  unfold invoke
  cases framing.batch buffer with
  | error error => rfl
  | ok positions =>
      have hsettled : (if framing.owesEdges then framing.sendEdges (g channel)
          else (framing, g channel)) =
          ((framing.settleEdges channel).1, g (framing.settleEdges channel).2) := by
        unfold settleEdges
        split_ifs
        · exact sendEdges_mapChannel hg framing channel
        · rfl
      rw [hsettled, ← settleEdges]
      simp only []
      split
      · rfl
      · simp only [sendNodes_mapChannel hg]

omit [Transport σ] [Transport τ] in
@[simp] theorem Session.state_mapChannel (g : Channel σ → Channel τ) (session : Session σ) :
    (session.mapChannel g).state = session.state := by
  rcases session with ⟨options, _ | _ | _⟩ <;> rfl

theorem Session.channel_mapChannel (hg : Channel.Faithful g) (session : Session σ) :
    (session.mapChannel g).channel = g session.channel := by
  rcases session with ⟨options, _ | _ | _⟩
  · exact hg.unopened.symm
  · rfl
  · rfl

/-- A session over a channel with the same answers and counters gives the same replies. -/
theorem Session.perform_mapChannel (hg : Channel.Faithful g) (session : Session σ)
    (call : Call σ) :
    (session.mapChannel g).perform (call.mapChannel g) =
      ((session.perform call).1.mapChannel g, (session.perform call).2.mapChannel g) := by
  rcases session with ⟨options, phase⟩
  cases phase with
  | unopened =>
      cases call with
      | start now graph mapper channel =>
          simp only [Session.mapChannel, Call.mapChannel, perform_start, start_eq]
          cases Framing.start mapper graph options with
          | error error => simp [Reply.mapChannel, hg.close]
          | ok framing => rfl
      | teardown now => simp [Session.mapChannel, Call.mapChannel, Reply.mapChannel, perform,
          teardown, hg.unopened]
      | close now => simp [Session.mapChannel, Call.mapChannel, Reply.mapChannel, perform,
          callback, teardown, hg.unopened]
      | _ => rfl
  | live openedAt framing channel =>
      cases call with
      | start now graph mapper channel =>
          simp [Session.mapChannel, Call.mapChannel, perform_start, start_eq, Reply.mapChannel,
            hg.close, refusal, state]
      | iterate buffer =>
          simp only [Session.mapChannel, Call.mapChannel, perform, iterate,
            Framing.invoke_mapChannel hg, Reply.mapChannel]
      | update payload =>
          simp only [Session.mapChannel, Call.mapChannel, perform, update, hg.send,
            Reply.mapChannel]
      | refreshEdges edges =>
          simp only [Session.mapChannel, Call.mapChannel, perform, refreshEdges_live]
          cases framing.refreshEdges edges with
          | error error => rfl
          | ok next => rfl
      | teardown now =>
          simp only [Session.mapChannel, Call.mapChannel, perform, teardown, hg.sendFinal,
            hg.close, hg.stats, Reply.mapChannel]
      | close now =>
          simp only [Session.mapChannel, Call.mapChannel, perform, callback, teardown,
            hg.sendFinal, hg.close, hg.stats, Reply.mapChannel]
  | closed summary channel =>
      cases call with
      | start now graph mapper channel =>
          simp [Session.mapChannel, Call.mapChannel, perform_start, start_eq, Reply.mapChannel,
            hg.close, refusal, state]
      | _ => rfl

theorem Session.steps_mapChannel (hg : Channel.Faithful g) (session : Session σ)
    (calls : List (Call σ)) :
    (session.mapChannel g).steps (calls.map (Call.mapChannel g)) =
      (session.steps calls).map (Step.mapChannel g) := by
  induction calls generalizing session with
  | nil => rfl
  | cons call rest ih =>
      simp only [List.map_cons, steps, perform_mapChannel hg, ih]
      rfl

theorem Step.reply_mapChannel (hg : Channel.Faithful g) (step : Step σ) :
    (step.mapChannel g).reply = step.reply.mapChannel g :=
  congrArg Prod.fst (Session.perform_mapChannel hg step.before step.call)

theorem Session.after_mapChannel (hg : Channel.Faithful g) (session : Session σ)
    (calls : List (Call σ)) :
    (session.mapChannel g).after (calls.map (Call.mapChannel g)) =
      (session.after calls).mapChannel g := by
  induction calls generalizing session with
  | nil => rfl
  | cons call rest ih =>
      have hnext : ((session.mapChannel g).perform (call.mapChannel g)).2 =
          (session.perform call).2.mapChannel g :=
        congrArg Prod.snd (perform_mapChannel hg session call)
      have hrest := ih (session.perform call).2
      rw [← hnext] at hrest
      exact hrest

theorem Session.teardown_mapChannel (hg : Channel.Faithful g) (session : Session σ)
    (now : Instant) : ((session.mapChannel g).teardown now).1 = (session.teardown now).1 := by
  have hreply := congrArg Prod.fst (perform_mapChannel hg session (.teardown now))
  injection hreply

/-- The steps of a session from its beginning, when the calls bring other channels with the same
answers and counters. -/
theorem Session.steps_new_mapChannel (hg : Channel.Faithful g) {change : Call τ → Call σ}
    (hchange : ∀ call, (change call).mapChannel g = call) (options : SessionOptions)
    (calls : List (Call τ)) :
    ((Session.new options).steps (calls.map change)).map (Step.mapChannel g) =
      (Session.new options).steps calls := by
  rw [← steps_mapChannel hg, List.map_map]
  have hcalls : calls.map (Call.mapChannel g ∘ change) = calls := by
    simp [Function.comp_def, hchange]
  rw [hcalls]
  rfl

end Faithful

section Observed

variable {σ τ : Type}

/-- The session over another transport. -/
def Session.map (f : σ → τ) (session : Session σ) : Session τ :=
  match session.phase with
  | .unopened => ⟨session.options, .unopened⟩
  | .live openedAt framing channel => ⟨session.options, .live openedAt framing (channel.map f)⟩
  | .closed summary channel => ⟨session.options, .closed summary (channel.map f)⟩

/-- The call over another transport. -/
def Call.map (f : σ → τ) : Call σ → Call τ
  | start now graph mapper channel => .start now graph mapper (channel.map f)
  | iterate buffer => .iterate buffer
  | update payload => .update payload
  | refreshEdges edges => .refreshEdges edges
  | teardown now => .teardown now
  | close now => .close now

/-- The step over another transport. -/
def Step.map (f : σ → τ) (step : Step σ) : Step τ := ⟨step.before.map f, step.call.map f⟩

theorem Step.map_eq_mapChannel (f : σ → τ) : Step.map f = Step.mapChannel (Channel.map f) := by
  funext ⟨⟨options, phase⟩, call⟩
  cases phase <;> cases call <;> rfl

/-- The call with a journal beside the transport it brings. -/
def Call.observe : Call τ → Call (Observed τ)
  | start now graph mapper channel => .start now graph mapper channel.observe
  | iterate buffer => .iterate buffer
  | update payload => .update payload
  | refreshEdges edges => .refreshEdges edges
  | teardown now => .teardown now
  | close now => .close now

theorem Call.map_transport_observe (call : Call τ) :
    call.observe.mapChannel (Channel.map Observed.transport) = call := by
  cases call with
  | start now graph mapper channel =>
      simp only [observe, mapChannel, Channel.map_transport_observe]
  | _ => rfl

variable [Transport τ]

/-- The steps over observed transports are those over the transports themselves. -/
theorem Session.steps_observe (options : SessionOptions) (calls : List (Call τ)) :
    ((Session.new options).steps (calls.map Call.observe)).map (Step.map Observed.transport) =
      (Session.new options).steps calls := by
  rw [Step.map_eq_mapChannel]
  exact steps_new_mapChannel (Channel.map_faithful (Observed.faithful τ))
    Call.map_transport_observe options calls

end Observed

section Watched

variable {τ : Type}

/-- The call with the channel that it brings watched. -/
def Call.watch : Call τ → Call (Observed (Endpoint τ)) := Call.mapChannel Channel.watch

theorem Call.unwatch_watch (call : Call τ) : call.watch.mapChannel Channel.unwatch = call := by
  cases call <;> rfl

theorem mem_of_update_mem_watch {calls : List (Call τ)} {payload : Bytes}
    (h : .update payload ∈ calls.map Call.watch) : .update payload ∈ calls := by
  obtain ⟨call, hcall, hwatch⟩ := List.mem_map.mp h
  cases call <;> cases hwatch
  exact hcall

variable [Transport τ]

/-- The steps of calls from the beginning of a session, over watched channels. -/
def Session.watched (options : SessionOptions) (calls : List (Call τ)) :
    List (Step (Observed (Endpoint τ))) :=
  (Session.new options).steps (calls.map Call.watch)

/-- The steps of a history are these, over the channels that it watches, and so are the replies. -/
def Session.Watches (history : List (Step (Observed (Endpoint τ)))) (steps : List (Step τ)) :
    Prop :=
  history.map (Step.mapChannel Channel.unwatch) = steps ∧
    history.map (fun step => step.reply.mapChannel Channel.unwatch) = steps.map Step.reply

/-- Watching the channels of calls changes nothing of the session behind them. -/
theorem Session.after_watched (options : SessionOptions) (calls : List (Call τ)) :
    ((new options).after (calls.map Call.watch)).mapChannel Channel.unwatch =
      (new options).after calls := by
  rw [← after_mapChannel Channel.unwatch_faithful, List.map_map]
  have hcalls : calls.map (Call.mapChannel Channel.unwatch ∘ Call.watch) = calls := by
    simp [Function.comp_def, Call.unwatch_watch]
  rw [hcalls]
  rfl

/-- Watching the channels changes neither steps nor replies, whatever was called before. -/
theorem Session.watches_steps (options : SessionOptions) (calls later : List (Call τ)) :
    Watches (((new options).after (calls.map Call.watch)).steps (later.map Call.watch))
      (((new options).after calls).steps later) := by
  have hlater : (later.map Call.watch).map (Call.mapChannel Channel.unwatch) = later := by
    simp [Function.comp_def, Call.unwatch_watch]
  have hsteps : (((new options).after (calls.map Call.watch)).steps (later.map Call.watch)).map
      (Step.mapChannel Channel.unwatch) = ((new options).after calls).steps later := by
    rw [← steps_mapChannel Channel.unwatch_faithful, after_watched, hlater]
  refine ⟨hsteps, ?_⟩
  rw [← hsteps, List.map_map]
  apply List.map_congr_left
  intro step _
  exact (step.reply_mapChannel Channel.unwatch_faithful).symm

/-- Watching the channels changes neither steps nor replies. -/
theorem Session.watches_watched (options : SessionOptions) (calls : List (Call τ)) :
    Watches (watched options calls) ((new options).steps calls) :=
  watches_steps options [] calls

/-- Watching the channels changes no summary. -/
theorem Session.teardown_watched (options : SessionOptions) (calls : List (Call τ))
    (now : Instant) :
    (((new options).after (calls.map Call.watch)).teardown now).1 =
      (((new options).after calls).teardown now).1 := by
  rw [← after_watched options calls, teardown_mapChannel Channel.unwatch_faithful]

end Watched

variable {τ : Type} [Transport τ]

/-- The contacts of a session with its transport so far. -/
def Session.journal (session : Session (Observed τ)) : List Contact := session.channel.journal

/-- The contacts that a step adds. -/
def Step.contacts (step : Step (Observed τ)) : List Contact :=
  step.after.journal.drop step.before.journal.length

end LiveLayout
