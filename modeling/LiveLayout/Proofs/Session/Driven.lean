import LiveLayout.Channel.Scripted
import LiveLayout.Proofs.Session.Accounting
import LiveLayout.Proofs.Session.Ownership

/-!
# Sessions driven by layouts

What a layout does to a session is a sequence of calls that depends on what the session answers: it
streams batches and closes, and may go on after that. Running it ends with a teardown, so the
session is always closed in the end, whatever the layout made of its answers.
-/

namespace LiveLayout

section Layouts

variable {τ : Type} [Transport τ]

/-- The calls that a layout makes of a session. -/
def Layout.calls (now : Instant) : Layout → Session τ → List (Call τ)
  | finish _, _ => []
  | report batch next, session =>
    .iterate batch :: (next (session.iterate batch).1).calls now (session.iterate batch).2
  | close next, session =>
    .close now :: (next (.ok ())).calls now (session.teardown now).2

/-- Running a layout makes these calls and no others. -/
theorem Layout.run_eq_after (layout : Layout) (session : Session τ) (now : Instant) :
    (layout.run (Session.callback now) session).2 = session.after (layout.calls now session) := by
  induction layout generalizing session with
  | finish outcome => rfl
  | report batch next ih => exact ih (session.iterate batch).1 (session.iterate batch).2
  | close next ih => exact ih (.ok ()) (session.teardown now).2

/-- The call streams a batch or closes its session, as those of a layout do. -/
def Call.FromLayout : Call τ → Prop
  | iterate _ => True
  | close _ => True
  | _ => False

theorem Layout.fromLayout_calls (layout : Layout) (session : Session τ) (now : Instant) :
    ∀ call ∈ layout.calls now session, call.FromLayout := by
  induction layout generalizing session with
  | finish outcome => exact List.forall_mem_nil _
  | report batch next ih => exact List.forall_mem_cons.mpr ⟨trivial, ih _ _⟩
  | close next ih => exact List.forall_mem_cons.mpr ⟨trivial, ih _ _⟩

theorem Call.FromLayout.fresh {τ : Type} {call : Call (Observed τ)} (h : call.FromLayout) :
    call.Fresh := by
  cases call with
  | start now graph mapper channel => exact h.elim
  | _ => trivial

theorem fresh_of_fromLayout {τ : Type} {calls : List (Call (Observed τ))}
    (h : ∀ call ∈ calls, call.FromLayout) (now : Instant) :
    ∀ call ∈ calls ++ [.teardown now], call.Fresh := by
  intro call hcall
  rcases List.mem_append.mp hcall with hmade | hlast
  · exact (h call hmade).fresh
  · rw [List.mem_singleton.mp hlast]
    trivial

omit [Transport τ] in
theorem Call.FromLayout.watch {call : Call τ} (h : call.FromLayout) : call.watch.FromLayout := by
  cases call <;> exact h

end Layouts

namespace Session

section Sentinels

variable {τ : Type} [Transport τ] {session next : Session (Observed τ)} {call : Call (Observed τ)}
  {reply : Reply (Observed τ)} {contacts : List Contact}

/-- A call that closes its session puts the sentinel to the transport if the session is live. -/
theorem Effect.count_sentinel (h : Effect session call reply contacts next)
    (hcloses : call.closes = true) :
    ((contacts ++ reply.journal).filterMap Contact.offered?).count closeSentinel =
      if session.state = .live then 1 else 0 := by
  obtain ⟨now, summary, closing, hjournal, -⟩ := h.of_closes hcloses
  rw [hjournal, List.append_nil]
  split_ifs with hlive
  · obtain ⟨answer, rfl, -⟩ := closing.of_live hlive
    rfl
  · rw [(closing.of_not_live hlive).1]
    rfl

/-- Calls of a layout and the teardown behind them put the sentinel to the transport once, if the
session is live at first, and never else. -/
theorem Sound.count_sentinel {calls : List (Call (Observed τ))} (hsound : session.Sound)
    (hkinds : ∀ call ∈ calls, call.FromLayout) (now : Instant) :
    ((session.steps (calls ++ [.teardown now])).flatMap Step.offers).count closeSentinel =
      if session.state = .live then 1 else 0 := by
  -- The first call that closes the session decides: nothing is put to the transport behind it, and
  -- the batches in front of it leave the session as live as it was.
  induction calls generalizing session with
  | nil =>
      have heffect := hsound.effect (.teardown now) trivial
      simpa [steps, Step.offers] using heffect.count_sentinel rfl
  | cons call rest ih =>
      obtain ⟨hkind, hrest⟩ := List.forall_mem_cons.mp hkinds
      have heffect := hsound.effect call hkind.fresh
      have hnext := hsound.perform hkind.fresh
      rw [List.cons_append, steps, List.flatMap_cons, List.count_append]
      cases call with
      | iterate buffer =>
          have hnone : (Step.mk session (.iterate buffer)).offers.count closeSentinel = 0 :=
            List.count_eq_zero.mpr (heffect.of_not_closes rfl (by rintro _ ⟨⟩)).2
          have hstate : (session.perform (.iterate buffer)).2.state = session.state := by
            rcases session with ⟨options, _ | _ | _⟩ <;> rfl
          rw [hnone, ih hnext hrest, hstate, Nat.zero_add]
      | close now' =>
          obtain ⟨now, summary, closing, -⟩ := heffect.of_closes rfl
          have hfresh := fresh_of_fromLayout hrest
          obtain ⟨-, hlater⟩ := hnext.steps_of_closed (hfresh _) closing.summary?_eq
          have hquiet := List.flatMap_eq_nil_iff.mpr fun step hstep => (hlater step hstep).1
          rw [Step.offers, heffect.count_sentinel rfl, hquiet]
          rfl
      | _ => exact hkind.elim

end Sentinels

variable {τ : Type} [Transport τ]

/-- The batches that calls stream are counted by the session. -/
theorem Named.iteration_after {session : Session τ} (hnamed : session.Named)
    (calls : List (Call τ)) :
    (session.after calls).iteration =
      session.iteration + ((session.steps calls).filter Step.streamed).length := by
  induction calls generalizing session with
  | nil => rfl
  | cons call rest ih =>
      have hcount := (hnamed.transition call).iteration_eq
      have hrest := ih (hnamed.perform call)
      rw [after, List.foldl_cons, ← after, hrest, hcount, Session.steps]
      by_cases hstreamed : (session.perform call).1.streamed = true
      · have hhead : (Step.mk session call).streamed = true := hstreamed
        rw [if_pos hstreamed, List.filter_cons_of_pos hhead, List.length_cons]
        omega
      · have hhead : ¬ (Step.mk session call).streamed = true := hstreamed
        rw [if_neg hstreamed, List.filter_cons_of_neg hhead, Nat.add_zero]

/-- A batch that comes after the session was closed is refused for that, and puts nothing to any
transport. -/
theorem Sound.refused_after_closing {session : Session (Observed τ)} (hsound : session.Sound)
    {calls : List (Call (Observed τ))} (hfresh : ∀ call ∈ calls, call.Fresh)
    {earlier later : List (Step (Observed τ))} {step : Step (Observed τ)}
    (hsplit : session.steps calls = earlier ++ step :: later) (hcloses : step.call.closes = true) :
    ∀ other ∈ later, ∀ buffer, other.call = .iterate buffer →
      other.reply = .iterated (.error ⟨.invalidState .iterate .closed, []⟩) ∧
        other.offers = [] := by
  intro other hother buffer hcall
  have hstep : step ∈ session.steps calls := hsplit ▸ List.mem_append_right _ List.mem_cons_self
  obtain ⟨hmem, hbefore⟩ :=
    steps_invariant hsound (fun _ call hcall h => h.perform (hfresh call hcall)) step hstep
  obtain ⟨before, behind, rfl, -, -, rfl⟩ := steps_eq_append hsplit
  obtain ⟨_, summary, closing, -⟩ := (hbefore.effect step.call (hfresh _ hmem)).of_closes hcloses
  have hsummary : step.after.summary? = some summary := closing.summary?_eq
  have hbehind : ∀ call ∈ behind, call.Fresh := fun call hcall =>
    hfresh call (List.mem_append_right _ (List.mem_cons_of_mem _ hcall))
  obtain ⟨-, hlater⟩ := (hbefore.perform (hfresh _ hmem)).steps_of_closed hbehind hsummary
  have hclosed : step.after.state = .closed :=
    step.after.summary?_isSome_iff.mp (by rw [hsummary]; rfl)
  have hstate : other.before.state = .closed := by
    rw [before_of_closed hclosed behind other hother, hclosed]
  have hrefused := refusedByState_of_not_live other (by rw [hstate]; decide)
  rw [Step.RefusedByState, hcall, refusal, hstate] at hrefused
  exact ⟨hrefused, (hlater other hother).1⟩

omit [Transport τ] in
theorem iterations_of_summary? {session : Session τ} {summary : Summary}
    (h : session.summary? = some summary) : session.iteration = summary.iterations := by
  rcases session with ⟨options, _ | _ | _⟩ <;> cases h
  rfl

/-- Running a layout over a session, whatever was done to that before, whatever the layout makes of
its answers and whatever the transports answer. The session is closed behind it, with a summary that
is returned exactly if the layout ended well; else the error of the layout is. If the session was
live, the sentinel is put to a transport once meanwhile, even if the layout closed it; else it is
not. Batches that come after a closing call are refused for the state of the session and put nothing
to any transport. The summary counts all batches that were ever streamed. -/
theorem layouts_torn_down (options : SessionOptions) (calls : List (Call τ)) (layout : Layout)
    (now : Instant) :
    let session := (new options : Session τ).after calls
    let watched : Session (Observed (Endpoint τ)) := (new options).after (calls.map Call.watch)
    let driven := layout.calls now session ++ [.teardown now]
    let history := watched.steps (driven.map Call.watch)
    let outcome := (layout.run (callback now) session).1
    let streamed := session.streamLayout now layout
    Watches history (session.steps driven) ∧
    streamed.2 = session.after driven ∧
    streamed.2.state = .closed ∧
    (∃ summary, streamed.2.summary? = some summary ∧ streamed.1 = outcome.map (fun _ => summary) ∧
      summary.iterations = (((new options).steps (calls ++ driven)).filter Step.streamed).length) ∧
    (∀ error, streamed.1 = .error error ↔ outcome = .error error) ∧
    (history.flatMap Step.offers).count closeSentinel = (if session.state = .live then 1 else 0) ∧
    (∀ earlier (step : Step (Observed (Endpoint τ))) later, history = earlier ++ step :: later →
      step.call.closes = true → ∀ other ∈ later, ∀ buffer, other.call = .iterate buffer →
        other.reply = .iterated (.error ⟨.invalidState .iterate .closed, []⟩) ∧
          other.offers = []) := by
  intro session watched driven history outcome streamed
  have hkinds : ∀ call ∈ (layout.calls now session).map Call.watch, call.FromLayout :=
    List.forall_mem_map.mpr fun call hcall => (layout.fromLayout_calls session now call hcall).watch
  have hdriven : driven.map Call.watch =
      (layout.calls now session).map Call.watch ++ [.teardown now] := List.map_append
  have hsound : watched.Sound := (run_watched options calls).1
  have hlast : streamed.2 = session.after driven := by
    rw [after_append, ← layout.run_eq_after]
    rfl
  have hsummary := summary?_teardown (layout.run (callback now) session).2 now
  refine ⟨watches_steps options calls driven, hlast, state_teardown _ now,
    ⟨_, hsummary, rfl, ?_⟩, ?_, ?_, ?_⟩
  · have hcount := Named.iteration_after (named_new (τ := τ) options) (calls ++ driven)
    rw [after_append, ← hlast] at hcount
    exact (iterations_of_summary? hsummary).symm.trans (hcount.trans (Nat.zero_add _))
  · intro error
    change outcome.map _ = _ ↔ _
    cases outcome <;> simp [Except.map]
  · have hcount := hsound.count_sentinel hkinds now
    have hstate : watched.state = session.state := by
      rw [← state_mapChannel Channel.unwatch, after_watched]
    rw [← hdriven, hstate] at hcount
    exact hcount
  · intro earlier step later hsplit
    exact hsound.refused_after_closing (hdriven ▸ fresh_of_fromLayout hkinds now) hsplit

/-- A layout that closes the session after its first batch and ends with the answer to a second
one. -/
theorem layouts_torn_down_early :
    let nodes : NodeTable := ⟨[("id", .int [7]), ("color", .int [0]), ("size", .int [1])], 1⟩
    let edges : EdgeTable := ⟨[("edge", .int [4]), ("bundle", .int [0]), ("color", .int [2])], 1⟩
    let options : SessionOptions := ⟨["id", "x"], ["edge"], false, 500⟩
    let calls : List (Call Scripted) :=
      [.start .epoch ⟨nodes, edges⟩ .standard (.onto (.ofAnswers [] [])),
        .iterate (.columnar [5] [6])]
    let layout : Layout := .report (.columnar [8] [9]) fun _ => .close fun _ =>
      .report (.columnar [8] [9]) fun answer => .finish answer
    let session := (new options).after calls
    let driven := layout.calls .epoch session ++ [.teardown .epoch]
    let history := ((new options).after (calls.map Call.watch)).steps (driven.map Call.watch)
    session.state = .live ∧
    (history.flatMap Step.offers).count closeSentinel = 1 ∧
    (session.streamLayout .epoch layout).1 = .error ⟨.invalidState .iterate .closed, []⟩ ∧
    (∀ other ∈ history.drop 2, ∀ buffer, other.call = .iterate buffer →
      other.reply = .iterated (.error ⟨.invalidState .iterate .closed, []⟩)) ∧
    ∃ summary, (session.streamLayout .epoch layout).2.summary? = some summary ∧
      summary.iterations = 2 := by
  intro nodes edges options calls layout session driven history
  obtain ⟨-, -, -, ⟨summary, hsummary, -, hiterations⟩, herror, hcount, hrefused⟩ :=
    layouts_torn_down options calls layout .epoch
  have hstreamed : (((new options).steps (calls ++ driven)).filter Step.streamed).length = 2 := by
    decide +kernel +zetaReduce
  have hsplit : history = history.take 1 ++ _ :: history.drop 2 := rfl
  refine ⟨rfl, hcount, (herror _).mpr rfl, ?_, summary, hsummary, hiterations.trans hstreamed⟩
  intro other hother buffer hcall
  exact (hrefused _ _ _ hsplit rfl other hother buffer hcall).1

end Session

end LiveLayout
