import LiveLayout.Channel.Scripted
import LiveLayout.Proofs.Session.Joined
import LiveLayout.Proofs.Session.Sentinel

/-!
# Calls that fail

A call that fails leaves the session and its transport as they were, so what is called behind it
comes out as if it had not been made. Starting and refreshing check everything before they take
anything over. A batch is refused before its edge frame goes out: behind that only a name without a
column could still fail, and the names were checked when the framing was started.
-/

namespace LiveLayout

theorem Reply.failed_mapChannel {σ τ : Type} {g : Channel σ → Channel τ} {reply : Reply σ} :
    (reply.mapChannel g).Failed ↔ reply.Failed := by
  rcases reply with _ | _ | (_ | _) | (_ | _) | (_ | _) | _ | _ <;> rfl

theorem Reply.failed_of_refusedBatch {τ : Type} {reply : Reply τ}
    (h : reply.refusedBatch = true) : reply.Failed := by
  rcases reply with _ | _ | (_ | _) | _ | _ | _ | _
  case iterated.error => trivial
  all_goals cases h

namespace Framing

variable {mapper : PositionMapper} {graph : Graph} {options : SessionOptions} {edges : EdgeTable}
  {k : Nat} {framing next : Framing} {τ : Type} [Transport τ]

/-- Every name of a node frame is found, also once the edge frame is out. -/
theorem Named.mapM_settled (hnamed : framing.Named) (positions : Positions) (channel : Channel τ) :
    let settled := (framing.settleEdges channel).1
    settled.nodeColumns.mapM (settled.nodeColumn positions) =
      .ok (settled.nodeFrameColumns positions) :=
  (hnamed.of_setup_eq (setup_settleEdges framing channel)).mapM_nodeColumn positions

/-- A batch fails only where its coordinates do, and then nothing was sent. -/
theorem Named.eq_of_invoke_error (hnamed : framing.Named) {buffer : PositionBuffer}
    {channel later : Channel τ} {error : StreamError}
    (h : framing.invoke buffer channel = (.error error, next, later)) :
    framing.batch buffer = .error error ∧ next = framing ∧ later = channel := by
  rw [hnamed.invoke_eq] at h
  cases hbatch : framing.batch buffer with
  | error other =>
      rw [hbatch] at h
      simp only [Prod.mk.injEq, Except.error.injEq] at h
      obtain ⟨rfl, rfl, rfl⟩ := h
      exact ⟨rfl, rfl, rfl⟩
  | ok positions =>
      rw [hbatch] at h
      simp at h

omit [Transport τ] in
/-- A refresh that fails leaves the framing that it was made of as it was. -/
theorem eq_of_refreshHeld_error {fresh : EdgeTable} {error : StreamError}
    (h : (refreshHeld fresh).run framing = .error error next) : next = framing := by
  rw [run_refreshHeld, heldBehind_eq_error_iff] at h
  exact h.2

end Framing

namespace Session

section Failure

variable {τ : Type} [Transport τ] {session next : Session τ} {call : Call τ} {reply : Reply τ}

/-- A start that fails leaves the session that it was made of as it was. -/
theorem eq_of_startHeld_error {now : Instant} {graph : Graph} {mapper : PositionMapper}
    {channel : Channel τ} {refused : StreamError × Channel τ}
    (h : (startHeld now graph mapper channel).run session = .error refused next) :
    next = session := by
  rw [run_startHeld, heldBehind_eq_error_iff] at h
  exact h.2

/-- A call that fails leaves the session as it was. -/
theorem Transition.eq_of_failed (h : Transition session call reply next) (hfailed : reply.Failed) :
    next = session := by
  cases h with
  | notStarted h => rfl
  | notIterated h => rfl
  | notUpdated h => rfl
  | notRefreshed h => rfl
  | _ => exact hfailed.elim

/-- A call that fails puts nothing to any transport. -/
theorem Effect.offers_of_failed {session next : Session (Observed τ)} {call : Call (Observed τ)}
    {reply : Reply (Observed τ)} {contacts : List Contact}
    (h : Effect session call reply contacts next) (hfailed : reply.Failed) :
    (contacts ++ reply.journal).filterMap Contact.offered? = [] := by
  cases h with
  | notStarted released => simp [Reply.journal, released, Contact.offered?]
  | failed refused => cases refused <;> rfl
  | _ => exact hfailed.elim

/-- A call fails if it does over watched channels. -/
theorem failed_watched (options : SessionOptions) (calls : List (Call τ)) (call : Call τ) :
    (Step.mk ((new options).after (calls.map Call.watch)) call.watch).reply.Failed ↔
      (Step.mk ((new options).after calls) call).reply.Failed := by
  have hreply := Step.reply_mapChannel Channel.unwatch_faithful
    ⟨(new options).after (calls.map Call.watch), call.watch⟩
  rw [Step.mapChannel, after_watched, Call.unwatch_watch] at hreply
  rw [hreply, Reply.failed_mapChannel]

theorem named_after (options : SessionOptions) (calls : List (Call τ)) :
    ((new options : Session τ).after calls).Named := by
  induction calls using List.reverseRecOn with
  | nil => exact named_new options
  | append_singleton calls call ih =>
      rw [after_append]
      exact ih.perform call

end Failure

/-- After any calls, one that fails leaves the whole session as it was: its state and options, the
tables and counters of its framing, its channel and what was put to the transport of that. Nothing
is put to a channel that a start hands back either, and whatever is called next comes out as if the
failed call had not been made. The session that a failed start was made of and the framing that a
failed refresh was made of are left unwritten. A batch, whatever batches and refreshes went before,
finds all columns of its node frame once the edge frame is out, so that it fails only before
anything is sent. -/
theorem failed_calls_undone {τ : Type} [Transport τ] (options : SessionOptions)
    (calls : List (Call τ)) :
    let session : Session τ := (new options).after calls
    let watching : Session (Observed (Endpoint τ)) := (new options).after (calls.map Call.watch)
    (∀ call, (Step.mk session call).reply.Failed →
      (Step.mk session call).after = session ∧
      (Step.mk watching call.watch).after = watching ∧
      (Step.mk watching call.watch).offers = [] ∧
      ∀ later, (new options).after (calls ++ call :: later) = (new options).after (calls ++ later) ∧
        (Step.mk session call).after.steps later = session.steps later) ∧
    watching.mapChannel Channel.unwatch = session ∧
    (∀ now graph mapper (channel : Channel τ) refused left,
      (startHeld now graph mapper channel).run session = .error refused left → left = session) ∧
    ∀ mapper graph edges k framing, Framing.Reached mapper graph options edges k framing →
      (∀ fresh error left,
        (Framing.refreshHeld fresh).run framing = .error error left → left = framing) ∧
      (∀ positions (channel : Channel τ), ∃ columns,
        (framing.settleEdges channel).1.nodeColumns.mapM
          ((framing.settleEdges channel).1.nodeColumn positions) = .ok columns) ∧
      ∀ buffer (channel later : Channel τ) error next,
        framing.invoke buffer channel = (.error error, next, later) →
          framing.batch buffer = .error error ∧ next = framing ∧ later = channel := by
  intro session watching
  refine ⟨?_, after_watched options calls, fun _ _ _ _ _ _ h => eq_of_startHeld_error h, ?_⟩
  · intro call hfailed
    have hsession : (Step.mk session call).after = session :=
      ((named_after options calls).transition call).eq_of_failed hfailed
    have hwatched : (Step.mk watching call.watch).reply.Failed :=
      (failed_watched options calls call).mpr hfailed
    obtain ⟨hsound, -⟩ := run_watched options calls
    refine ⟨hsession, (hsound.named.transition call.watch).eq_of_failed hwatched,
      (hsound.effect call.watch call.fresh_watch).offers_of_failed hwatched, fun later => ⟨?_, ?_⟩⟩
    · rw [after_append, after_append]
      exact congrArg (fun before : Session τ => before.after later) hsession
    · rw [hsession]
  · intro mapper graph edges k framing hreached
    obtain ⟨hnamed, -⟩ := hreached.setup_eq
    exact ⟨fun _ _ _ h => Framing.eq_of_refreshHeld_error h,
      fun positions channel => ⟨_, hnamed.mapM_settled positions channel⟩,
      fun buffer channel later error next h => hnamed.eq_of_invoke_error h⟩

/-- A batch without rows, while the edge frame is still owed, a batch behind it, and an edge table
without columns. -/
theorem failed_calls_undone_rows :
    let nodes : NodeTable := ⟨[("id", .int [7]), ("color", .int [0]), ("size", .int [1])], 1⟩
    let edges : EdgeTable := ⟨[("edge", .int [4]), ("bundle", .int [0]), ("color", .int [2])], 1⟩
    let options : SessionOptions := ⟨["id", "x"], ["edge"], false, 500⟩
    let calls : List (Call Scripted) :=
      [.start .epoch ⟨nodes, edges⟩ .standard (.onto (.ofAnswers [.dropped .wouldBlock] [])),
        .iterate (.columnar [5] [6])]
    let empty : Call Scripted := .iterate (.columnar [] [])
    let batch : Call Scripted := .iterate (.columnar [8] [9])
    let session : Session Scripted := (new options).after calls
    (Step.mk session empty).reply.Failed ∧
    (Step.mk session empty).after = session ∧
    (new options).after (calls ++ [empty, batch]) = (new options).after (calls ++ [batch]) ∧
    ∃ framing, Framing.Reached .standard ⟨nodes, edges⟩ options edges 0 framing ∧
      (∃ error, framing.batch (.columnar [] []) = .error error) ∧
      ∃ error left, (Framing.refreshHeld ⟨[], 0⟩).run framing = .error error left ∧
        left = framing := by
  intro nodes edges options calls empty batch session
  obtain ⟨hcalls, -, -, hbatches⟩ := failed_calls_undone options calls
  have hrefused : (Step.mk session empty).reply.refusedBatch = true := by
    decide +kernel +zetaReduce
  have hfailed := Reply.failed_of_refusedBatch hrefused
  obtain ⟨hsame, -, -, hlater⟩ := hcalls empty hfailed
  have hreached : Framing.Reached .standard ⟨nodes, edges⟩ options edges 0 _ := .started rfl
  obtain ⟨hrefreshes, -, herrors⟩ := hbatches _ _ _ _ _ hreached
  obtain ⟨hbatch, -, -⟩ := herrors (.columnar [] []) (.onto (.ofAnswers [] [])) _ _ _ rfl
  have hrefresh := hrefreshes ⟨[], 0⟩ _ _ rfl
  exact ⟨hfailed, hsame, (hlater [batch]).1, _, hreached, ⟨_, hbatch⟩, _, _, rfl, hrefresh⟩

end Session

end LiveLayout
