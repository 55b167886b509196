import LiveLayout.Proofs.Channel.Tally
import LiveLayout.Proofs.Session.Transition

/-!
# Effects of calls

A call of a live session leaves the framing, the counters of the channel and the journal changed in
one of a few ways, and a call that fails leaves everything as it was. A run is a sequence of such
effects with the steps that had them, so what each effect keeps holds of every run.
-/

namespace LiveLayout

namespace Framing

section Settling

variable {framing settled next : Framing} {positions : Positions} {edges nodes : List Contact}

/-- What can become of the edge frame in front of a batch: the contacts, and the framing behind
them. -/
inductive Settles (framing : Framing) : List Contact → Framing → Prop where
  | notOwed (h : framing.owesEdges = false) : Settles framing [] framing
  | taken {wire : Bytes} (owed : framing.owesEdges = true) (h : framing.edgeFrame = .ok wire) :
      Settles framing [.offer wire .delivered]
        { framing with edgesPending := false, edgeFrames := framing.edgeFrames + 1 }
  | lost {wire : Bytes} {reason : DropReason} (owed : framing.owesEdges = true)
      (h : framing.edgeFrame = .ok wire) :
      Settles framing [.offer wire (.dropped reason)] framing
  | skipped {error : CodecError} (owed : framing.owesEdges = true)
      (h : framing.edgeFrame = .error error) :
      Settles framing []
        { framing with edgesPending := false, framesSkipped := framing.framesSkipped + 1 }

/-- What can become of the node frame of a batch, which counts as an iteration either way. -/
inductive Advances (framing : Framing) (positions : Positions) : List Contact → Framing → Prop where
  | offered {wire : Bytes} {answer : SendResult} (h : framing.nodeFrame positions = .ok wire) :
      Advances framing positions [.offer wire answer]
        { framing with iteration := framing.iteration + 1 }
  | skipped {error : CodecError} (h : framing.nodeFrame positions = .error error) :
      Advances framing positions []
        { framing with
            iteration := framing.iteration + 1, framesSkipped := framing.framesSkipped + 1 }

theorem Settles.setup_eq (h : framing.Settles edges settled) : settled.setup = framing.setup := by
  cases h <;> rfl

theorem Settles.iteration_eq (h : framing.Settles edges settled) :
    settled.iteration = framing.iteration := by
  cases h <;> rfl

theorem Advances.setup_eq (h : framing.Advances positions nodes next) :
    next.setup = framing.setup := by
  cases h <;> rfl

theorem Advances.iteration_eq (h : framing.Advances positions nodes next) :
    next.iteration = framing.iteration + 1 := by
  cases h <;> rfl

theorem nodeFrame_congr {other : Framing} (hsetup : other.setup = framing.setup)
    (hiteration : other.iteration = framing.iteration) (positions : Positions) :
    other.nodeFrame positions = framing.nodeFrame positions := by
  obtain ⟨-, hnodes, -, hnodeColumns, -, -⟩ := setup_eq_iff.mp hsetup
  simp only [nodeFrame, nodeFrameColumns, nodeColumn, hnodes, hnodeColumns, hiteration]

end Settling

section Sending

variable {τ : Type} [Transport τ]

theorem settles {channel : Channel (Observed τ)} (framing : Framing)
    (hopen : channel.isClosed = false) :
    framing.Settles (framing.edgeContacts channel) (framing.settleEdges channel).1 := by
  unfold edgeContacts settleEdges
  by_cases howed : framing.owesEdges = true
  · rw [if_pos howed, if_pos howed]
    unfold sendEdges
    cases hframe : framing.edgeFrame with
    | error error => exact .skipped howed hframe
    | ok wire =>
        simp only [Channel.sending_of_open hopen]
        cases (channel.send wire).1 with
        | delivered => exact .taken howed hframe
        | dropped reason => exact .lost howed hframe
  · rw [if_neg howed, if_neg howed]
    exact .notOwed (Bool.eq_false_iff.mpr howed)

theorem stats_settleEdges {channel : Channel (Observed τ)} (framing : Framing)
    (hopen : channel.isClosed = false) :
    (framing.settleEdges channel).2.stats =
      channel.stats.tally (framing.edgeContacts channel) := by
  unfold edgeContacts settleEdges
  split_ifs
  · unfold sendEdges
    cases framing.edgeFrame with
    | error error => rfl
    | ok wire =>
        simp only [Channel.sending_of_open hopen]
        split_ifs
        · exact channel.stats_send wire
        · exact channel.stats_send wire
  · rfl

theorem advances {framing settled : Framing} {channel : Channel (Observed τ)}
    (hsetup : settled.setup = framing.setup) (hiteration : settled.iteration = framing.iteration)
    (hopen : channel.isClosed = false) (positions : Positions) :
    settled.Advances positions (framing.nodeContacts positions channel)
      (settled.sendNodes positions.length (framing.nodeFrameColumns positions) channel).1 := by
  have hwire : encodeColumns .nodes (UInt64.ofNat settled.iteration) positions.length
      (framing.nodeFrameColumns positions) = framing.nodeFrame positions := by
    rw [hiteration, nodeFrame]
  have hsame := nodeFrame_congr hsetup hiteration positions
  unfold sendNodes nodeContacts
  rw [hwire]
  cases hframe : framing.nodeFrame positions with
  | error error => exact .skipped (hsame.trans hframe)
  | ok wire =>
      simp only [Channel.sending_of_open hopen]
      exact .offered (hsame.trans hframe)

theorem stats_sendNodes {framing settled : Framing} {channel : Channel (Observed τ)}
    (hiteration : settled.iteration = framing.iteration) (hopen : channel.isClosed = false)
    (positions : Positions) :
    (settled.sendNodes positions.length (framing.nodeFrameColumns positions) channel).2.stats =
      channel.stats.tally (framing.nodeContacts positions channel) := by
  unfold sendNodes nodeContacts
  rw [hiteration, ← nodeFrame]
  cases framing.nodeFrame positions with
  | error error => rfl
  | ok wire =>
      simp only [Channel.sending_of_open hopen]
      exact channel.stats_send wire

end Sending

end Framing

/-- The channel that a call brings has a transport, and was not used since it is observed. -/
def Call.Fresh {τ : Type} : Call (Observed τ) → Prop
  | start _ _ _ channel => channel.isClosed = false ∧ channel.journal = []
  | _ => True

theorem Call.fresh_watch {τ : Type} (call : Call τ) : call.watch.Fresh := by
  cases call with
  | start now graph mapper channel => exact ⟨channel.isClosed_watch, channel.journal_watch⟩
  | _ => trivial

theorem fresh_of_mem_watch {τ : Type} {calls : List (Call τ)} :
    ∀ call ∈ calls.map Call.watch, call.Fresh :=
  List.forall_mem_map.mpr fun call _ => call.fresh_watch

/-- A call failed. -/
def Reply.Failed {τ : Type} : Reply τ → Prop
  | notStarted _ _ => True
  | iterated (.error _) => True
  | updated (.error _) => True
  | refreshed (.error _) => True
  | _ => False

theorem Reply.Failed.not_streamed {τ : Type} {reply : Reply τ} (h : reply.Failed) :
    reply.streamed = false := by
  cases reply with
  | iterated result =>
      cases result with
      | ok value => exact h.elim
      | error error => rfl
  | _ => rfl

/-- A call other than a start failed. -/
inductive Call.Refused {τ : Type} : Call τ → Reply τ → Prop where
  | iterate {buffer : PositionBuffer} {error : StreamError} :
      Refused (.iterate buffer) (.iterated (.error error))
  | update {payload : Bytes} {error : StreamError} :
      Refused (.update payload) (.updated (.error error))
  | refreshEdges {edges : EdgeTable} {error : StreamError} :
      Refused (.refreshEdges edges) (.refreshed (.error error))

theorem Call.Refused.failed {τ : Type} {call : Call τ} {reply : Reply τ} (h : call.Refused reply) :
    reply.Failed := by
  cases h <;> trivial

namespace Session

variable {τ : Type}

/-- What closing a session can do: the sentinel goes out only from a live session. -/
inductive Closing : Session (Observed τ) → Instant → Summary → List Contact → Session (Observed τ) →
    Prop where
  | unopened {options : SessionOptions} {now : Instant} :
      Closing ⟨options, .unopened⟩ now ⟨0, 0, 0, .zero, false, none, now⟩ []
        ⟨options, .closed ⟨0, 0, 0, .zero, false, none, now⟩ .unopened⟩
  | live {options : SessionOptions} {openedAt now : Instant} {framing : Framing}
      {channel last : Channel (Observed τ)} {answer : SendResult}
      (counted : last.stats = channel.stats.record answer closeSentinel.length) :
      Closing ⟨options, .live openedAt framing channel⟩ now
        ⟨framing.iteration, framing.edgeFrames, framing.framesSkipped, last.stats,
          answer.isDelivered, some openedAt, now⟩
        [.offer closeSentinel answer, .close]
        ⟨options, .closed ⟨framing.iteration, framing.edgeFrames, framing.framesSkipped,
          last.stats, answer.isDelivered, some openedAt, now⟩ last⟩
  | again {options : SessionOptions} {now : Instant} {summary : Summary}
      {channel : Channel (Observed τ)} :
      Closing ⟨options, .closed summary channel⟩ now summary [] ⟨options, .closed summary channel⟩

variable [Transport τ]

/-- What a call replies, puts to the transport and leaves behind. -/
inductive Effect : Session (Observed τ) → Call (Observed τ) → Reply (Observed τ) → List Contact →
    Session (Observed τ) → Prop where
  | started {options : SessionOptions} {now : Instant} {graph : Graph} {mapper : PositionMapper}
      {channel : Channel (Observed τ)} {framing : Framing}
      (h : Framing.start mapper graph options = .ok framing) :
      Effect ⟨options, .unopened⟩ (.start now graph mapper channel) .started []
        ⟨options, .live now framing channel⟩
  | notStarted {session : Session (Observed τ)} {now : Instant} {graph : Graph}
      {mapper : PositionMapper} {channel : Channel (Observed τ)} {error : StreamError}
      (released : channel.close.journal = [.close]) :
      Effect session (.start now graph mapper channel) (.notStarted error channel.close) [] session
  | streamed {options : SessionOptions} {openedAt : Instant} {framing settled next : Framing}
      {channel later : Channel (Observed τ)} {buffer : PositionBuffer} {positions : Positions}
      {edges nodes : List Contact} (named : framing.Named)
      (h : framing.batch buffer = .ok positions) (settles : framing.Settles edges settled)
      (advances : settled.Advances positions nodes next)
      (counted : later.stats = channel.stats.tally (edges ++ nodes)) :
      Effect ⟨options, .live openedAt framing channel⟩ (.iterate buffer) (.iterated (.ok ()))
        (edges ++ nodes) ⟨options, .live openedAt next later⟩
  | updated {options : SessionOptions} {openedAt : Instant} {framing : Framing}
      {channel later : Channel (Observed τ)} {payload : Bytes} {answer : SendResult}
      (counted : later.stats = channel.stats.record answer payload.length) :
      Effect ⟨options, .live openedAt framing channel⟩ (.update payload) (.updated (.ok answer))
        [.offer payload answer] ⟨options, .live openedAt framing later⟩
  | refreshed {options : SessionOptions} {openedAt : Instant} {framing next : Framing}
      {channel : Channel (Observed τ)} {edges : EdgeTable}
      (h : framing.refreshEdges edges = .ok next) :
      Effect ⟨options, .live openedAt framing channel⟩ (.refreshEdges edges) (.refreshed (.ok ()))
        [] ⟨options, .live openedAt next channel⟩
  | failed {session : Session (Observed τ)} {call : Call (Observed τ)}
      {reply : Reply (Observed τ)} (h : call.Refused reply) :
      Effect session call reply [] session
  | tornDown {session next : Session (Observed τ)} {now : Instant} {summary : Summary}
      {contacts : List Contact} (closing : Closing session now summary contacts next) :
      Effect session (.teardown now) (.tornDown summary) contacts next
  | closed {session next : Session (Observed τ)} {now : Instant} {summary : Summary}
      {contacts : List Contact} (closing : Closing session now summary contacts next) :
      Effect session (.close now) (.closed (.ok ())) contacts next

theorem Attached.closing {session : Session (Observed τ)} (hattached : session.Attached)
    (now : Instant) :
    ∃ contacts, Closing session now (session.teardown now).1 contacts (session.teardown now).2 ∧
      (session.teardown now).2.journal = session.journal ++ contacts := by
  rcases session with ⟨options, phase⟩
  cases phase with
  | unopened => exact ⟨[], .unopened, rfl⟩
  | live openedAt framing channel =>
      exact ⟨_, .live (channel.stats_sendFinal_close _ _),
        Channel.journal_sendFinal_close (hattached rfl) _ _⟩
  | closed summary channel => exact ⟨[], .again, (List.append_nil _).symm⟩

/-- Every effect of a call on a session with a transport is one of these. -/
theorem Transition.effect {session next : Session (Observed τ)} {call : Call (Observed τ)}
    {reply : Reply (Observed τ)} (h : Transition session call reply next)
    (hattached : session.Attached) (hfresh : call.Fresh) :
    ∃ contacts, Effect session call reply contacts next ∧
      next.journal = session.journal ++ contacts := by
  cases h with
  | started h => exact ⟨[], .started h, hfresh.2⟩
  | @notStarted _ now graph mapper channel error h =>
      have hreleased : channel.close.journal = [.close] := by
        rw [channel.journal_close hfresh.1, hfresh.2, List.nil_append]
      exact ⟨[], .notStarted hreleased, (List.append_nil _).symm⟩
  | @iterated options openedAt framing channel buffer positions named h =>
      have hopen : channel.isClosed = false := hattached rfl
      have hstill := (framing.isClosed_settleEdges channel).trans hopen
      refine ⟨_, ?_, named.journal_invoke h channel⟩
      rw [named.invoke_eq, h]
      refine .streamed named h (framing.settles hopen) ?_ ?_
      · exact Framing.advances (Framing.setup_settleEdges framing channel)
          (Framing.iteration_settleEdges framing channel) hstill positions
      · rw [ChannelStats.tally_append, ← framing.stats_settleEdges hopen]
        exact Framing.stats_sendNodes (Framing.iteration_settleEdges framing channel) hstill
          positions
  | notIterated h => exact ⟨[], .failed .iterate, (List.append_nil _).symm⟩
  | @updated options openedAt framing channel payload =>
      have hopen : channel.isClosed = false := hattached rfl
      refine ⟨_, .updated (channel.stats_send payload), ?_⟩
      rw [← Channel.sending_of_open hopen]
      exact channel.journal_send payload
  | notUpdated h => exact ⟨[], .failed .update, (List.append_nil _).symm⟩
  | refreshed h => exact ⟨[], .refreshed h, (List.append_nil _).symm⟩
  | notRefreshed h => exact ⟨[], .failed .refreshEdges, (List.append_nil _).symm⟩
  | tornDown =>
      obtain ⟨contacts, hclosing, hjournal⟩ := hattached.closing _
      exact ⟨contacts, .tornDown hclosing, hjournal⟩
  | closed =>
      obtain ⟨contacts, hclosing, hjournal⟩ := hattached.closing _
      exact ⟨contacts, .closed hclosing, hjournal⟩

/-- The sessions that fresh calls lead to from the beginning, with the steps that led there. -/
inductive Run (options : SessionOptions) : List (Step (Observed τ)) → Session (Observed τ) →
    Prop where
  | first : Run options [] (.new options)
  | step {history : List (Step (Observed τ))} {session next : Session (Observed τ)}
      {call : Call (Observed τ)} {reply : Reply (Observed τ)} {contacts : List Contact}
      (run : Run options history session) (effect : Effect session call reply contacts next)
      (reply_eq : (Step.mk session call).reply = reply)
      (contacts_eq : (Step.mk session call).contacts = contacts)
      (after_eq : (Step.mk session call).after = next) :
      Run options (history ++ [⟨session, call⟩]) next

theorem steps_append (session : Session τ) (calls later : List (Call τ)) :
    session.steps (calls ++ later) = session.steps calls ++ (session.after calls).steps later := by
  induction calls generalizing session with
  | nil => rfl
  | cons call rest ih =>
      rw [List.cons_append, steps, ih]
      rfl

theorem after_append (session : Session τ) (calls later : List (Call τ)) :
    session.after (calls ++ later) = (session.after calls).after later :=
  List.foldl_append

omit [Transport τ] in
theorem not_bringsClosed_of_fresh {call : Call (Observed τ)} (h : call.Fresh) :
    ¬ call.BringsClosed := by
  intro hclosed
  cases call with
  | start now graph mapper channel => exact Bool.eq_false_iff.mp h.1 hclosed
  | _ => exact hclosed

/-- What is known of a session after fresh calls. -/
structure Sound (session : Session (Observed τ)) : Prop where
  named : session.Named
  attached : session.Attached

omit [Transport τ] in
theorem sound_new (options : SessionOptions) : (new options : Session (Observed τ)).Sound :=
  ⟨named_new options, fun h => nomatch h⟩

theorem Sound.perform {session : Session (Observed τ)} (h : session.Sound)
    {call : Call (Observed τ)} (hfresh : call.Fresh) : (session.perform call).2.Sound :=
  ⟨h.named.perform call,
    (h.named.transition call).attached (not_bringsClosed_of_fresh hfresh) h.attached⟩

theorem Sound.effect {session : Session (Observed τ)} (h : session.Sound)
    (call : Call (Observed τ)) (hfresh : call.Fresh) :
    Effect session call (Step.mk session call).reply (Step.mk session call).contacts
      (Step.mk session call).after := by
  obtain ⟨contacts, heffect, hjournal⟩ := (h.named.transition call).effect h.attached hfresh
  have hcontacts : (Step.mk session call).contacts = contacts := by
    rw [Step.contacts, Step.after, hjournal, List.drop_left]
  rw [hcontacts]
  exact heffect

theorem Sound.exists_effect {session : Session (Observed τ)} (h : session.Sound)
    (call : Call (Observed τ)) (hfresh : call.Fresh) :
    ∃ reply contacts next, (Step.mk session call).reply = reply ∧
      (Step.mk session call).contacts = contacts ∧ (Step.mk session call).after = next ∧
        Effect session call reply contacts next :=
  ⟨_, _, _, rfl, rfl, rfl, h.effect call hfresh⟩

/-- Fresh calls make a run. -/
theorem run_of_fresh (options : SessionOptions) (calls : List (Call (Observed τ)))
    (hfresh : ∀ call ∈ calls, call.Fresh) :
    ((new options).after calls).Sound ∧
      Run options ((new options).steps calls) ((new options).after calls) := by
  induction calls using List.reverseRecOn with
  | nil => exact ⟨sound_new options, .first⟩
  | append_singleton calls call ih =>
      obtain ⟨hsound, hrun⟩ := ih fun call hcall => hfresh call (List.mem_append_left _ hcall)
      have hcall : call.Fresh := hfresh call (List.mem_append_right _ List.mem_cons_self)
      rw [steps_append, after_append]
      exact ⟨hsound.perform hcall, .step hrun (hsound.effect call hcall) rfl rfl rfl⟩

/-- Calls over watched channels make a run. -/
theorem run_watched {τ : Type} [Transport τ] (options : SessionOptions) (calls : List (Call τ)) :
    ((new options).after (calls.map Call.watch)).Sound ∧
      Run options (watched options calls) ((new options).after (calls.map Call.watch)) :=
  run_of_fresh options _ fresh_of_mem_watch

theorem sound_of_mem_watched {τ : Type} [Transport τ] {options : SessionOptions}
    {calls : List (Call τ)} {step : Step (Observed (Endpoint τ))}
    (h : step ∈ watched options calls) :
    step.call ∈ calls.map Call.watch ∧ step.before.Sound :=
  steps_invariant (sound_new options)
    (fun _ call hcall hsound => hsound.perform (fresh_of_mem_watch call hcall)) step h

/-- Every step of a run over watched channels has one of the effects. -/
theorem effect_of_mem_watched {τ : Type} [Transport τ] {options : SessionOptions}
    {calls : List (Call τ)} {step : Step (Observed (Endpoint τ))}
    (h : step ∈ watched options calls) :
    Effect step.before step.call step.reply step.contacts step.after := by
  obtain ⟨hcall, hsound⟩ := sound_of_mem_watched h
  exact hsound.effect step.call (fresh_of_mem_watch step.call hcall)

/-- The steps of calls around one of them. -/
theorem steps_eq_append {session : Session τ} {calls : List (Call τ)}
    {earlier later : List (Step τ)} {step : Step τ} (h : session.steps calls = earlier ++ step :: later) :
    ∃ before behind, calls = before ++ step.call :: behind ∧ earlier = session.steps before ∧
      step.before = session.after before ∧ later = step.after.steps behind := by
  induction earlier generalizing session calls with
  | nil =>
      cases calls with
      | nil => cases h
      | cons call rest =>
          obtain ⟨rfl, rfl⟩ := List.cons.inj h
          exact ⟨[], rest, rfl, rfl, rfl, rfl⟩
  | cons first earlier ih =>
      cases calls with
      | nil => cases h
      | cons call rest =>
          obtain ⟨rfl, hrest⟩ := List.cons.inj h
          obtain ⟨before, behind, rfl, rfl, hbefore, hlater⟩ := ih hrest
          exact ⟨call :: before, behind, rfl, rfl, hbefore, hlater⟩

end Session

end LiveLayout
