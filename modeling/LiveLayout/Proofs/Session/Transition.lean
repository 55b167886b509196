import LiveLayout.Proofs.Session.Calls
import LiveLayout.Proofs.Session.Contacts

/-!
# What a call can do

Every call of a session whose framing was checked has one of a few effects, and a call that fails
has none. What holds of all reachable sessions is shown by going through them once.
-/

namespace LiveLayout

/-- The channel that a call brings has no transport any more. -/
def Call.BringsClosed {τ : Type} : Call τ → Prop
  | start _ _ _ channel => channel.isClosed = true
  | _ => False

namespace Session

section Transition

variable {τ : Type} [Transport τ]

/-- The framing of a live session was checked. -/
def Named (session : Session τ) : Prop :=
  ∀ openedAt framing channel, session.phase = .live openedAt framing channel → framing.Named

/-- What a call replies and leaves behind. -/
inductive Transition : Session τ → Call τ → Reply τ → Session τ → Prop where
  | started {options : SessionOptions} {now : Instant} {graph : Graph} {mapper : PositionMapper}
      {channel : Channel τ} {framing : Framing}
      (h : Framing.start mapper graph options = .ok framing) :
      Transition ⟨options, .unopened⟩ (.start now graph mapper channel) .started
        ⟨options, .live now framing channel⟩
  | notStarted {session : Session τ} {now : Instant} {graph : Graph} {mapper : PositionMapper}
      {channel : Channel τ} {error : StreamError}
      (h : session.start now graph mapper channel = .error (error, channel.close)) :
      Transition session (.start now graph mapper channel) (.notStarted error channel.close)
        session
  | iterated {options : SessionOptions} {openedAt : Instant} {framing : Framing}
      {channel : Channel τ} {buffer : PositionBuffer} {positions : Positions}
      (named : framing.Named) (h : framing.batch buffer = .ok positions) :
      Transition ⟨options, .live openedAt framing channel⟩ (.iterate buffer) (.iterated (.ok ()))
        ⟨options, .live openedAt (framing.invoke buffer channel).2.1
          (framing.invoke buffer channel).2.2⟩
  | notIterated {session : Session τ} {buffer : PositionBuffer} {error : StreamError}
      (h : session.iterate buffer = (.error error, session)) :
      Transition session (.iterate buffer) (.iterated (.error error)) session
  | updated {options : SessionOptions} {openedAt : Instant} {framing : Framing}
      {channel : Channel τ} {payload : Bytes} :
      Transition ⟨options, .live openedAt framing channel⟩ (.update payload)
        (.updated (.ok (channel.send payload).1))
        ⟨options, .live openedAt framing (channel.send payload).2⟩
  | notUpdated {session : Session τ} {payload : Bytes} {error : StreamError}
      (h : session.update payload = (.error error, session)) :
      Transition session (.update payload) (.updated (.error error)) session
  | refreshed {options : SessionOptions} {openedAt : Instant} {framing next : Framing}
      {channel : Channel τ} {edges : EdgeTable} (h : framing.refreshEdges edges = .ok next) :
      Transition ⟨options, .live openedAt framing channel⟩ (.refreshEdges edges)
        (.refreshed (.ok ())) ⟨options, .live openedAt next channel⟩
  | notRefreshed {session : Session τ} {edges : EdgeTable} {error : StreamError}
      (h : session.refreshEdges edges = (.error error, session)) :
      Transition session (.refreshEdges edges) (.refreshed (.error error)) session
  | tornDown {session : Session τ} {now : Instant} :
      Transition session (.teardown now) (.tornDown (session.teardown now).1)
        (session.teardown now).2
  | closed {session : Session τ} {now : Instant} :
      Transition session (.close now) (.closed (.ok ())) (session.teardown now).2

theorem transition_start (session : Session τ) (now : Instant) (graph : Graph)
    (mapper : PositionMapper) (channel : Channel τ) :
    Transition session (.start now graph mapper channel)
      (session.perform (.start now graph mapper channel)).1
      (session.perform (.start now graph mapper channel)).2 := by
  have hfailed : ∀ error, session.start now graph mapper channel = .error (error, channel.close) →
      Transition session (.start now graph mapper channel)
        (session.perform (.start now graph mapper channel)).1
        (session.perform (.start now graph mapper channel)).2 := by
    intro error h
    simp only [perform_start, h]
    exact .notStarted h
  rcases session with ⟨options, phase⟩
  cases phase with
  | unopened =>
      cases hstart : Framing.start mapper graph options with
      | error error => exact hfailed error (by simp only [start_eq, hstart])
      | ok framing =>
          simp only [perform_start, start_eq, hstart]
          exact .started hstart
  | live openedAt framing own => exact hfailed _ rfl
  | closed summary own => exact hfailed _ rfl

theorem Named.transition_iterate {session : Session τ} (hnamed : session.Named)
    (buffer : PositionBuffer) :
    Transition session (.iterate buffer) (session.perform (.iterate buffer)).1
      (session.perform (.iterate buffer)).2 := by
  rcases session with ⟨options, phase⟩
  cases phase with
  | unopened => exact .notIterated rfl
  | live openedAt framing channel =>
      have hframing := hnamed openedAt framing channel rfl
      cases hbatch : framing.batch buffer with
      | error error =>
          have hrefused : iterate ⟨options, .live openedAt framing channel⟩ buffer =
              (.error error, ⟨options, .live openedAt framing channel⟩) := by
            simp only [iterate, hframing.invoke_eq, hbatch]
          simp only [perform, hrefused]
          exact .notIterated hrefused
      | ok positions =>
          have hok := hframing.invoke_ok hbatch channel
          simp only [perform, iterate, hok]
          exact .iterated hframing hbatch
  | closed summary channel => exact .notIterated rfl

theorem transition_update (session : Session τ) (payload : Bytes) :
    Transition session (.update payload) (session.perform (.update payload)).1
      (session.perform (.update payload)).2 := by
  rcases session with ⟨options, phase⟩
  cases phase with
  | unopened => exact .notUpdated rfl
  | live openedAt framing channel => exact .updated
  | closed summary channel => exact .notUpdated rfl

theorem transition_refreshEdges (session : Session τ) (edges : EdgeTable) :
    Transition session (.refreshEdges edges) (session.perform (.refreshEdges edges)).1
      (session.perform (.refreshEdges edges)).2 := by
  rcases session with ⟨options, phase⟩
  cases phase with
  | unopened => exact .notRefreshed rfl
  | live openedAt framing channel =>
      cases hrefresh : framing.refreshEdges edges with
      | error error =>
          have hrefused : refreshEdges ⟨options, .live openedAt framing channel⟩ edges =
              (.error error, ⟨options, .live openedAt framing channel⟩) := by
            simp only [refreshEdges_live, hrefresh]
          simp only [perform, hrefused]
          exact .notRefreshed hrefused
      | ok next =>
          simp only [perform, refreshEdges_live, hrefresh]
          exact .refreshed hrefresh
  | closed summary channel => exact .notRefreshed rfl

/-- These are all the effects that a call can have. -/
theorem Named.transition {session : Session τ} (hnamed : session.Named) (call : Call τ) :
    Transition session call (session.perform call).1 (session.perform call).2 := by
  cases call with
  | start now graph mapper channel => exact transition_start session now graph mapper channel
  | iterate buffer => exact hnamed.transition_iterate buffer
  | update payload => exact transition_update session payload
  | refreshEdges edges => exact transition_refreshEdges session edges
  | teardown now => exact .tornDown
  | close now => exact .closed

theorem teardown_phase (session : Session τ) (now : Instant) :
    ∃ summary channel, (session.teardown now).2.phase = .closed summary channel := by
  rcases session with ⟨options, phase⟩
  cases phase <;> exact ⟨_, _, rfl⟩

@[simp] theorem iteration_teardown (session : Session τ) (now : Instant) :
    (session.teardown now).2.iteration = session.iteration := by
  rcases session with ⟨options, phase⟩
  cases phase <;> rfl

omit [Transport τ] in
theorem named_new (options : SessionOptions) : (new options : Session τ).Named :=
  fun _ _ _ h => nomatch h

omit [Transport τ] in
theorem named_of_live {options : SessionOptions} {openedAt : Instant} {framing : Framing}
    {channel : Channel τ} (h : framing.Named) :
    Named ⟨options, .live openedAt framing channel⟩ := by
  intro openedAt' framing' channel' hphase
  injection hphase with _ hframing _
  exact hframing ▸ h

theorem named_teardown (session : Session τ) (now : Instant) :
    (session.teardown now).2.Named := by
  obtain ⟨summary, channel, hclosed⟩ := session.teardown_phase now
  intro openedAt framing channel' hphase
  rw [hclosed] at hphase
  cases hphase

theorem Transition.named {session next : Session τ} {call : Call τ} {reply : Reply τ}
    (h : Transition session call reply next) (hnamed : session.Named) : next.Named := by
  cases h with
  | started h => exact named_of_live (Framing.start_eq_ok_iff.mp h).2
  | notStarted h => exact hnamed
  | iterated named h => exact named_of_live (named.of_setup_eq (named.invoke_spec _ _).1)
  | notIterated h => exact hnamed
  | updated => exact named_of_live (hnamed _ _ _ rfl)
  | notUpdated h => exact hnamed
  | refreshed h => exact named_of_live ((hnamed _ _ _ rfl).refreshEdges h)
  | notRefreshed h => exact hnamed
  | tornDown => exact named_teardown _ _
  | closed => exact named_teardown _ _

theorem Named.perform {session : Session τ} (hnamed : session.Named) (call : Call τ) :
    (session.perform call).2.Named :=
  (hnamed.transition call).named hnamed

/-- A call counts one iteration exactly when it streams a batch. -/
theorem Transition.iteration_eq {session next : Session τ} {call : Call τ} {reply : Reply τ}
    (h : Transition session call reply next) :
    next.iteration = session.iteration + if reply.streamed then 1 else 0 := by
  cases h with
  | started h =>
      obtain ⟨rfl, -⟩ := Framing.start_eq_ok_iff.mp h
      rfl
  | @iterated options openedAt framing channel buffer positions named h =>
      rcases (named.invoke_spec buffer channel).2 with ⟨error, hrefused⟩ | ⟨-, hnext⟩
      · rw [named.invoke_eq, h] at hrefused
        simp at hrefused
      · exact hnext
  | refreshed h =>
      obtain ⟨rfl, -⟩ := Framing.refreshEdges_eq_ok h
      rfl
  | tornDown => exact iteration_teardown _ _
  | closed => exact iteration_teardown _ _
  | _ => rfl

/-- A live session has a transport. -/
def Attached (session : Session τ) : Prop :=
  session.state = .live → session.channel.isClosed = false

theorem attached_teardown (session : Session τ) (now : Instant) :
    (session.teardown now).2.Attached := by
  obtain ⟨summary, channel, hclosed⟩ := session.teardown_phase now
  intro hlive
  simp [state, hclosed] at hlive

/-- A live session keeps the transport that it was started over. -/
theorem Transition.attached {session next : Session τ} {call : Call τ} {reply : Reply τ}
    (h : Transition session call reply next) (hcall : ¬ call.BringsClosed)
    (hattached : session.Attached) : next.Attached := by
  cases h with
  | started h =>
      intro _
      exact Bool.eq_false_iff.mpr hcall
  | @iterated options openedAt framing channel buffer positions named h =>
      intro _
      exact (named.isClosed_invoke buffer channel).trans (hattached rfl)
  | @updated options openedAt framing channel payload =>
      intro _
      exact (channel.isClosed_send payload).trans (hattached rfl)
  | refreshed h =>
      intro _
      exact hattached rfl
  | tornDown => exact attached_teardown _ _
  | closed => exact attached_teardown _ _
  | _ => exact hattached

/-- What holds at first and is kept by each of the calls holds before each of their steps. -/
theorem steps_invariant {P : Session τ → Prop} {session : Session τ} {calls : List (Call τ)}
    (hfirst : P session)
    (hkept : ∀ session call, call ∈ calls → P session → P (session.perform call).2) :
    ∀ step ∈ session.steps calls, step.call ∈ calls ∧ P step.before := by
  induction calls generalizing session with
  | nil => simp [steps]
  | cons call rest ih =>
      intro step hstep
      rcases List.mem_cons.mp hstep with rfl | hrest
      · exact ⟨List.mem_cons_self, hfirst⟩
      · have hnext := hkept session call List.mem_cons_self hfirst
        obtain ⟨hcall, hbefore⟩ := ih hnext
          (fun session call hcall => hkept session call (List.mem_cons_of_mem _ hcall)) step hrest
        exact ⟨List.mem_cons_of_mem _ hcall, hbefore⟩

theorem Named.steps {session : Session τ} (hnamed : session.Named) (calls : List (Call τ)) :
    ∀ step ∈ session.steps calls, step.before.Named := fun step hstep =>
  (steps_invariant hnamed (fun _ call _ h => h.perform call) step hstep).2

/-- The batches streamed by a sequence of calls are numbered one after another. -/
theorem Named.iteration_steps {session : Session τ} (hnamed : session.Named)
    (calls : List (Call τ)) (k : Nat) (step : Step τ)
    (h : ((session.steps calls).filter Step.streamed)[k]? = some step) :
    step.before.iteration = session.iteration + k := by
  induction calls generalizing session k with
  | nil => simp [Session.steps] at h
  | cons call rest ih =>
      have hcount := (hnamed.transition call).iteration_eq
      rw [Session.steps] at h
      by_cases hstreamed : (session.perform call).1.streamed = true
      · have hhead : (Step.mk session call).streamed = true := hstreamed
        rw [List.filter_cons_of_pos hhead] at h
        rw [if_pos hstreamed] at hcount
        cases k with
        | zero =>
            obtain rfl := Option.some.inj h
            rfl
        | succ k =>
            have hlater := ih (hnamed.perform call) k h
            omega
      · have hhead : ¬ (Step.mk session call).streamed = true := hstreamed
        rw [List.filter_cons_of_neg hhead] at h
        rw [if_neg hstreamed] at hcount
        have hlater := ih (hnamed.perform call) k h
        omega

end Transition

section Journal

variable {τ : Type} [Transport τ]

theorem journal_teardown_extends (session : Session (Observed τ)) (now : Instant) :
    session.journal <+: (session.teardown now).2.journal := by
  rcases session with ⟨options, phase⟩
  cases phase with
  | unopened => exact List.prefix_rfl
  | live openedAt framing channel =>
      exact (channel.journal_sendFinal_extends _ _).trans (Channel.journal_close_extends _)
  | closed summary channel => exact List.prefix_rfl

/-- What was put to the transport stays in the journal. -/
theorem Transition.journal_extends {session next : Session (Observed τ)}
    {call : Call (Observed τ)} {reply : Reply (Observed τ)}
    (h : Transition session call reply next) : session.journal <+: next.journal := by
  cases h with
  | started _ => exact List.nil_prefix
  | @iterated options openedAt framing channel buffer positions named h =>
      have hjournal := named.journal_invoke h channel
      exact ⟨_, hjournal.symm⟩
  | @updated options openedAt framing channel payload =>
      exact ⟨_, (channel.journal_send payload).symm⟩
  | tornDown => exact journal_teardown_extends _ _
  | closed => exact journal_teardown_extends _ _
  | _ => exact List.prefix_rfl

theorem Named.journal_perform {session : Session (Observed τ)} (hnamed : session.Named)
    (call : Call (Observed τ)) :
    (session.perform call).2.journal = session.journal ++ (Step.mk session call).contacts := by
  obtain ⟨added, hadded⟩ := (hnamed.transition call).journal_extends
  simp only [Step.contacts, Step.after, ← hadded, List.drop_left]

/-- The journal of a sequence of calls is what each of them added, in order. -/
theorem Named.journal_after {session : Session (Observed τ)} (hnamed : session.Named)
    (calls : List (Call (Observed τ))) :
    (session.after calls).journal =
      session.journal ++ (session.steps calls).flatMap Step.contacts := by
  induction calls generalizing session with
  | nil => exact (List.append_nil _).symm
  | cons call rest ih =>
      have hnext := ih (hnamed.perform call)
      rw [hnamed.journal_perform, List.append_assoc, ← List.flatMap_cons] at hnext
      exact hnext

end Journal

end Session

end LiveLayout
