import LiveLayout.Channel.Scripted
import LiveLayout.Proofs.Channel.Passage
import LiveLayout.Proofs.Session.Refusal

/-!
# Lifecycle and ownership of channels

A session is started at most once and closed once and for all. The channel of the start that
succeeds is its own until it is let go of; one that comes with a start that fails goes back closed
at once. Either way the transport behind it is closed exactly once, and last.
-/

namespace LiveLayout

/-- How the state of a session may change with a call. -/
inductive SessionState.Moves : SessionState → SessionState → Prop where
  | stays (state : SessionState) : Moves state state
  | opens : Moves .unopened .live
  | closes (state : SessionState) : Moves state .closed

/-- A session was started. -/
def Reply.isStarted {τ : Type} : Reply τ → Bool
  | started => true
  | _ => false

theorem Reply.isStarted_iff {τ : Type} {reply : Reply τ} :
    reply.isStarted = true ↔ reply = .started := by
  cases reply <;> simp [isStarted]

/-- The call started the session. -/
def Step.isStarted {τ : Type} [Transport τ] (step : Step τ) : Bool := step.reply.isStarted

/-- The call was a batch, an update or a refresh and came to nothing but the error that tells in
what state it found the session; or it was another call. -/
def Step.RefusedByState {τ : Type} [Transport τ] (step : Step τ) : Prop :=
  match step.call with
  | .iterate _ => step.reply = .iterated (.error (step.before.refusal .iterate))
  | .update _ => step.reply = .updated (.error (step.before.refusal .update))
  | .refreshEdges _ => step.reply = .refreshed (.error (step.before.refusal .refreshEdges))
  | _ => True

/-- The channel that a start brought, as it is left once the session has been let go of: that of
the session if the start succeeded, else the one handed back. -/
def Step.leaves {τ : Type} [Transport τ] (last : Session τ) (step : Step τ) : Option (Channel τ) :=
  match step.reply with
  | .started => some last.release
  | .notStarted _ channel => some channel
  | _ => none

namespace Framing

variable {framing : Framing} {τ : Type} [Transport τ]

theorem passes_sendEdges (framing : Framing) (channel : Channel τ) :
    ∃ offers, channel.endpoint.Passes offers (framing.sendEdges channel).2.endpoint := by
  unfold sendEdges
  cases framing.edgeFrame with
  | error error => exact ⟨[], .refl _⟩
  | ok wire =>
      dsimp only
      split_ifs
      · exact channel.passes_send wire
      · exact channel.passes_send wire

theorem passes_sendNodes (framing : Framing) (rows : Nat) (columns : List (String × Column))
    (channel : Channel τ) :
    ∃ offers, channel.endpoint.Passes offers
      (framing.sendNodes rows columns channel).2.endpoint := by
  unfold sendNodes
  split
  · exact channel.passes_send _
  · exact ⟨[], .refl _⟩

theorem passes_settleEdges (framing : Framing) (channel : Channel τ) :
    ∃ offers, channel.endpoint.Passes offers (framing.settleEdges channel).2.endpoint := by
  unfold settleEdges
  split_ifs
  · exact framing.passes_sendEdges channel
  · exact ⟨[], .refl _⟩

/-- A batch only puts payloads to the transport. -/
theorem Named.passes_invoke (hnamed : framing.Named) (buffer : PositionBuffer)
    (channel : Channel τ) :
    ∃ offers, channel.endpoint.Passes offers (framing.invoke buffer channel).2.2.endpoint := by
  rw [hnamed.invoke_eq]
  cases framing.batch buffer with
  | error error => exact ⟨[], .refl _⟩
  | ok positions =>
      obtain ⟨edges, hedges⟩ := framing.passes_settleEdges channel
      obtain ⟨nodes, hnodes⟩ := (framing.settleEdges channel).1.passes_sendNodes positions.length
        (framing.nodeFrameColumns positions) (framing.settleEdges channel).2
      exact ⟨edges ++ nodes, hedges.trans hnodes⟩

end Framing

namespace Session

section Lifecycle

variable {τ : Type} [Transport τ] {session next : Session τ} {call : Call τ} {reply : Reply τ}

theorem state_teardown (session : Session τ) (now : Instant) :
    (session.teardown now).2.state = .closed := by
  obtain ⟨summary, channel, hclosed⟩ := session.teardown_phase now
  rw [state, hclosed]

theorem Transition.moves (h : Transition session call reply next) :
    session.state.Moves next.state := by
  cases h with
  | started h => exact .opens
  | tornDown => exact state_teardown session _ ▸ .closes _
  | closed => exact state_teardown session _ ▸ .closes _
  | _ => exact .stays _

/-- Only a session that was never opened is started. -/
theorem Transition.of_started (h : Transition session call reply next)
    (hstarted : reply = .started) : session.state = .unopened ∧ next.state = .live := by
  cases h with
  | started h => exact ⟨rfl, rfl⟩
  | _ => cases hstarted

theorem Transition.not_unopened (h : Transition session call reply next)
    (hopened : session.state ≠ .unopened) : next.state ≠ .unopened := by
  have hmoves := h.moves
  generalize session.state = before at hmoves hopened
  generalize next.state = state at hmoves
  cases hmoves with
  | stays => exact hopened
  | opens => nofun
  | closes => nofun

/-- A session that was opened or closed is not started any more. -/
theorem Named.not_started (hnamed : session.Named) (hopened : session.state ≠ .unopened)
    (calls : List (Call τ)) : (session.steps calls).filter Step.isStarted = [] := by
  induction calls generalizing session with
  | nil => rfl
  | cons call rest ih =>
      have h := hnamed.transition call
      have hnot : ¬ (Step.mk session call).isStarted = true := fun hstarted =>
        hopened (h.of_started (Reply.isStarted_iff.mp hstarted)).1
      rw [Session.steps, List.filter_cons_of_neg hnot]
      exact ih (hnamed.perform call) (h.not_unopened hopened)

/-- At most one start of a session succeeds. -/
theorem Named.started_once (hnamed : session.Named) (calls : List (Call τ)) :
    ((session.steps calls).filter Step.isStarted).length ≤ 1 := by
  induction calls generalizing session with
  | nil => exact Nat.zero_le 1
  | cons call rest ih =>
      rw [Session.steps]
      by_cases hstarted : (Step.mk session call).isStarted = true
      · have hlive := ((hnamed.transition call).of_started (Reply.isStarted_iff.mp hstarted)).2
        have hnone := (hnamed.perform call).not_started (by rw [hlive]; decide) rest
        rw [List.filter_cons_of_pos hstarted, hnone]
        exact Nat.le_refl 1
      · rw [List.filter_cons_of_neg hstarted]
        exact ih (hnamed.perform call)

/-- A call that only a live session allows is refused, with their state, by all others. -/
theorem refusedByState_of_not_live (step : Step τ) (h : step.before.state ≠ .live) :
    step.RefusedByState := by
  rcases step with ⟨⟨options, _ | _ | _⟩, call⟩
  case live => exact absurd rfl h
  all_goals cases call <;> trivial

omit [Transport τ] in
theorem summary?_isSome_iff (session : Session τ) :
    session.summary?.isSome = true ↔ session.state = .closed := by
  rcases session with ⟨options, _ | _ | _⟩ <;> simp [summary?, state]

end Lifecycle

section Ownership

variable {τ : Type} [Transport τ]

/-- No call changes a session once it is closed. -/
theorem perform_of_closed {session : Session τ} (h : session.state = .closed) (call : Call τ) :
    (session.perform call).2 = session := by
  rcases session with ⟨options, _ | _ | _⟩
  case closed => cases call <;> rfl
  all_goals cases h

/-- Every step of a closed session starts from that session. -/
theorem before_of_closed {session : Session τ} (h : session.state = .closed)
    (calls : List (Call τ)) : ∀ step ∈ session.steps calls, step.before = session := by
  intro step hstep
  refine (steps_invariant (P := (· = session)) rfl ?_ step hstep).2
  rintro _ call - rfl
  exact perform_of_closed h call

/-- A session keeps nothing but its summary and its channel once it is closed. -/
theorem after_of_closed {session : Session τ} (h : session.state = .closed)
    (calls : List (Call τ)) : session.after calls = session := by
  induction calls with
  | nil => rfl
  | cons call rest ih =>
      rw [after, List.foldl_cons, perform_of_closed h call]
      exact ih

/-- Closing a live session closes its channel behind the sentinel, and letting go of it then does
nothing more. -/
theorem release_teardown {options : SessionOptions} {openedAt : Instant} {framing : Framing}
    (channel : Channel τ) (now : Instant) (calls : List (Call τ)) :
    ∃ offers last, channel.endpoint.Passes offers last ∧
      ((teardown ⟨options, .live openedAt framing channel⟩ now).2.after calls).release.endpoint =
        Transport.close last := by
  obtain ⟨offers, hoffers⟩ := channel.passes_sendFinal closeSentinel options.closeTimeout
  refine ⟨offers, _, hoffers, ?_⟩
  rw [after_of_closed (state_teardown _ now)]
  simp only [teardown, release, Session.channel, Channel.endpoint_close, Endpoint.close_close]

/-- What becomes of the channel of a live session: whatever is called, it only puts payloads to its
transport, until that is closed for good when the session is closed or let go of. -/
theorem Named.release_after {options : SessionOptions} {openedAt : Instant} {framing : Framing}
    {channel : Channel τ} (hnamed : framing.Named) (calls : List (Call τ)) :
    ∃ offers last, channel.endpoint.Passes offers last ∧
      ((⟨options, .live openedAt framing channel⟩ : Session τ).after calls).release.endpoint =
        Transport.close last := by
  -- A call either leaves the session live and lengthens what passed, or closes it; after that no
  -- call reaches the channel, and letting go of it finds it closed.
  induction calls generalizing framing channel with
  | nil => exact ⟨[], channel.endpoint, .refl _, channel.endpoint_close⟩
  | cons call rest ih =>
      have hsession : Named ⟨options, .live openedAt framing channel⟩ := named_of_live hnamed
      have h := hsession.transition call
      have hnext := h.named hsession
      rw [after, List.foldl_cons]
      generalize ((⟨options, .live openedAt framing channel⟩ : Session τ).perform call).1 = reply
        at h
      generalize ((⟨options, .live openedAt framing channel⟩ : Session τ).perform call).2 = next
        at h hnext ⊢
      cases h with
      | @iterated _ _ _ _ buffer positions named hbatch =>
          obtain ⟨offers, hoffers⟩ := hnamed.passes_invoke buffer channel
          obtain ⟨later, last, hlater, hlast⟩ := ih (hnext _ _ _ rfl)
          exact ⟨offers ++ later, last, hoffers.trans hlater, hlast⟩
      | @updated _ _ _ _ payload =>
          obtain ⟨offers, hoffers⟩ := channel.passes_send payload
          obtain ⟨later, last, hlater, hlast⟩ := ih (hnext _ _ _ rfl)
          exact ⟨offers ++ later, last, hoffers.trans hlater, hlast⟩
      | refreshed hrefresh => exact ih (hnext _ _ _ rfl)
      | tornDown => exact release_teardown channel _ rest
      | closed => exact release_teardown channel _ rest
      | _ => exact ih hnamed

/-- What becomes of the channel that a start brings: its transport is closed behind the payloads put
to it, of which there are none if the start failed. -/
theorem Named.leaves_start {session : Session τ} (hnamed : session.Named) (now : Instant)
    (graph : Graph) (mapper : PositionMapper) (channel : Channel τ) (later : List (Call τ)) :
    let step : Step τ := ⟨session, .start now graph mapper channel⟩
    ∃ offers used left, step.leaves (step.after.after later) = some left ∧
      channel.endpoint.Passes offers used ∧ left.endpoint = Transport.close used ∧
        (step.isStarted = false → offers = []) := by
  intro step
  have h := hnamed.transition (.start now graph mapper channel)
  have hnext := h.named hnamed
  unfold Step.leaves Step.isStarted
  change Transition session _ step.reply step.after at h
  change step.after.Named at hnext
  generalize step.reply = reply at h ⊢
  generalize step.after = next at h hnext ⊢
  cases h with
  | started h =>
      obtain ⟨offers, used, hoffers, hused⟩ := Named.release_after (hnext _ _ _ rfl) later
      exact ⟨offers, used, _, rfl, hoffers, hused, nofun⟩
  | notStarted h => exact ⟨[], _, _, rfl, .refl _, channel.endpoint_close, fun _ => rfl⟩

end Ownership

/-- Over any calls, starts among them that bring a channel each, and up to letting go of the
session, its state only moves forward, and at most one start succeeds, on a session that was never
opened. Batches, updates and refreshes are refused with the state of a session that is not live, and
there is a summary exactly once the session is closed. Whatever became of a start, the transport
that it brought ends up closed once, behind the payloads put to it, of which there are none if the
start failed; a channel that was closed before is left alone. -/
theorem channels_closed_once {τ : Type} [Transport τ] (options : SessionOptions)
    (calls : List (Call τ)) :
    let steps := (new options : Session τ).steps calls
    let last := (new options : Session τ).after calls
    (steps.filter Step.isStarted).length ≤ 1 ∧
    (last.summary?.isSome = true ↔ last.state = .closed) ∧
    ∀ step ∈ steps,
      step.before.state.Moves step.after.state ∧
      (step.isStarted = true → step.before.state = .unopened ∧ step.after.state = .live) ∧
      (step.before.summary?.isSome = true ↔ step.before.state = .closed) ∧
      (step.before.state ≠ .live → step.RefusedByState) ∧
      ∀ now graph mapper channel, step.call = .start now graph mapper channel →
        ∃ left, step.leaves last = some left ∧ left.close = left ∧
          (∀ transport, channel.endpoint = .attached transport →
            ∃ offers used, Transport.Passes transport offers used ∧
              left.endpoint = .released (Transport.close used) ∧
              (step.isStarted = false → offers = [])) ∧
          (channel.isClosed = true → left.endpoint = channel.endpoint) := by
  intro steps last
  have hnamed : (new options : Session τ).Named := named_new options
  refine ⟨hnamed.started_once calls, last.summary?_isSome_iff, fun step hstep => ?_⟩
  have hbefore : step.before.Named := hnamed.steps calls step hstep
  have h := hbefore.transition step.call
  refine ⟨h.moves, fun hstarted => h.of_started (Reply.isStarted_iff.mp hstarted),
    step.before.summary?_isSome_iff, refusedByState_of_not_live step, ?_⟩
  intro now graph mapper channel hcall
  obtain ⟨earlier, later, hsplit⟩ := List.append_of_mem hstep
  obtain ⟨before, behind, rfl, -, hsession, -⟩ := steps_eq_append hsplit
  have hlast : last = step.after.after behind := by
    simp only [last, after_append, ← hsession]
    rfl
  rcases step with ⟨session, call⟩
  obtain rfl : call = _ := hcall
  obtain ⟨offers, used, left, hleft, hoffers, hused, hnone⟩ :=
    hbefore.leaves_start now graph mapper channel behind
  rw [← hlast] at hleft
  refine ⟨left, hleft, Channel.close_eq_of_endpoint hused, ?_, ?_⟩
  · intro transport hattached
    rw [hattached] at hoffers
    cases hoffers with
    | attached hoffers => exact ⟨offers, _, hoffers, hused, hnone⟩
  · intro hclosed
    exact hused.trans (hoffers.close_of_isClosed hclosed)

/-- A start without nodes, one that succeeds, a batch, and one that comes too late. -/
theorem channels_closed_once_retried :
    let nodes : NodeTable := ⟨[("id", .int [7]), ("color", .int [0]), ("size", .int [1])], 1⟩
    let edges : EdgeTable := ⟨[("edge", .int [4]), ("bundle", .int [0]), ("color", .int [2])], 1⟩
    let options : SessionOptions := ⟨["id", "x"], ["edge"], false, 500⟩
    let transport : Scripted := .ofAnswers [] []
    let start (nodes : NodeTable) : Call Scripted :=
      .start .epoch ⟨nodes, edges⟩ .standard (.onto transport)
    let calls : List (Call Scripted) :=
      [start ⟨[], 0⟩, start nodes, .iterate (.columnar [5] [6]), start nodes]
    let session : Session Scripted := new options
    let refused : Step Scripted := ⟨session, start ⟨[], 0⟩⟩
    let taken : Step Scripted := ⟨session.after [start ⟨[], 0⟩], start nodes⟩
    refused ∈ session.steps calls ∧ refused.isStarted = false ∧ refused.RefusedByState ∧
    taken ∈ session.steps calls ∧ taken.isStarted = true ∧ taken.after.state = .live ∧
    (∃ left, refused.leaves (session.after calls) = some left ∧
      left.endpoint = .released (Transport.close transport)) ∧
    ∃ left offers used, taken.leaves (session.after calls) = some left ∧
      Transport.Passes transport offers used ∧ left.endpoint = .released (Transport.close used) ∧
      (Transport.close used).taken.length = 2 ∧ (Transport.close used).closes = 1 := by
  intro nodes edges options transport start calls session refused taken
  obtain ⟨-, -, hsteps⟩ := channels_closed_once options calls
  have hrefused : refused ∈ session.steps calls := .head _
  have htaken : taken ∈ session.steps calls := .tail _ (.head _)
  have hnot : refused.isStarted = false := by decide +kernel +zetaReduce
  have hstarted : taken.isStarted = true := by decide +kernel +zetaReduce
  obtain ⟨-, -, -, hstate, hback⟩ := hsteps refused hrefused
  obtain ⟨-, hmoved, -, -, hkept⟩ := hsteps taken htaken
  obtain ⟨left, hleft, -, hattached, -⟩ := hback _ _ _ _ rfl
  obtain ⟨own, hown, -, hlive, -⟩ := hkept _ _ _ _ rfl
  obtain ⟨none, same, hpasses, hreleased, hnothing⟩ := hattached transport rfl
  obtain ⟨offers, used, hoffers, hused, -⟩ := hlive transport rfl
  have hcounts : ((taken.leaves (session.after calls)).bind Channel.transport?).map
      (fun transport => (transport.taken.length, transport.closes)) = some (2, 1) := by
    decide +kernel +zetaReduce
  rw [hown, Option.bind_some, Channel.transport?, hused] at hcounts
  obtain ⟨hlength, hcloses⟩ := Prod.mk.inj (Option.some.inj hcounts)
  obtain rfl := hnothing hnot
  obtain rfl : same = transport := hpasses.eq_of_nothing
  exact ⟨hrefused, hnot, hstate nofun, htaken, hstarted, (hmoved hstarted).2,
    ⟨left, hleft, hreleased⟩, own, offers, used, hown, hoffers, hused, hlength, hcloses⟩

end Session

end LiveLayout
