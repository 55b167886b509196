import LiveLayout.Channel.Scripted
import LiveLayout.Proofs.Session.Frames

/-!
# The sentinel

Closing a live session puts the sentinel to the transport, once and as the last payload. No frame
equals the sentinel, and a closed session puts nothing to any transport, so the sentinel tells the
consumer that the stream is over.
-/

namespace LiveLayout

/-- The contacts with the transport of a channel that a reply hands back. -/
def Reply.journal {τ : Type} : Reply (Observed τ) → List Contact
  | notStarted _ channel => channel.journal
  | _ => []

/-- The call closes a session. -/
def Call.closes {τ : Type} : Call τ → Bool
  | teardown _ => true
  | close _ => true
  | _ => false

namespace Step

variable {τ : Type} [Transport τ]

/-- The payloads that a step puts to any transport: to that of the session or to one that it hands
back. -/
def offers (step : Step (Observed τ)) : List Bytes :=
  (step.contacts ++ step.reply.journal).filterMap Contact.offered?

/-- The step closes a session that is live. -/
def endsStream (step : Step τ) : Bool := step.before.state = .live && step.call.closes

theorem mem_offers {step : Step (Observed τ)} {payload : Bytes} {answer : SendResult}
    (h : .offer payload answer ∈ step.contacts) : payload ∈ step.offers :=
  List.mem_filterMap.mpr ⟨_, List.mem_append_left _ h, rfl⟩

end Step

namespace Framing

variable {framing settled next : Framing} {positions : Positions} {edges nodes : List Contact}

theorem Settles.ne_sentinel (h : framing.Settles edges settled) :
    closeSentinel ∉ edges.filterMap Contact.offered? := by
  intro hmem
  obtain ⟨contact, hcontact, hoffered⟩ := List.mem_filterMap.mp hmem
  obtain ⟨wire, answer, rfl, hwire⟩ := h.offer_eq contact hcontact
  exact ne_closeSentinel_of_encode hwire (Option.some.inj hoffered)

theorem Advances.ne_sentinel (h : framing.Advances positions nodes next) :
    closeSentinel ∉ nodes.filterMap Contact.offered? := by
  intro hmem
  obtain ⟨contact, hcontact, hoffered⟩ := List.mem_filterMap.mp hmem
  obtain ⟨wire, answer, rfl, hwire⟩ := h.offer_eq contact hcontact
  exact ne_closeSentinel_of_encode hwire (Option.some.inj hoffered)

end Framing

namespace Session

variable {τ : Type}

section Effects

variable {session next : Session (Observed τ)} {call : Call (Observed τ)}
  {reply : Reply (Observed τ)} {contacts : List Contact}

theorem summary?_of_live (h : session.state = .live) : session.summary? = none := by
  rcases session with ⟨options, phase⟩
  cases phase with
  | closed summary channel => cases h
  | _ => rfl

theorem Closing.summary?_eq {now : Instant} {summary : Summary}
    (h : Closing session now summary contacts next) : next.summary? = some summary := by
  cases h <;> rfl

/-- Closing a live session puts the sentinel to its transport, and the summary has the answer. -/
theorem Closing.of_live {now : Instant} {summary : Summary}
    (h : Closing session now summary contacts next) (hlive : session.state = .live) :
    ∃ answer, contacts = [.offer closeSentinel answer, .close] ∧
      summary.sentinelDelivered = answer.isDelivered := by
  cases h with
  | live counted => exact ⟨_, rfl, rfl⟩
  | _ => cases hlive

/-- Closing any other session puts nothing to a transport. -/
theorem Closing.of_not_live {now : Instant} {summary : Summary}
    (h : Closing session now summary contacts next) (hlive : session.state ≠ .live) :
    contacts = [] ∧ (session.summary? = some summary ∨
      session.summary? = none ∧ summary.sentinelDelivered = false) := by
  cases h with
  | unopened => exact ⟨rfl, .inr ⟨rfl, rfl⟩⟩
  | live counted => exact absurd rfl hlive
  | again => exact ⟨rfl, .inl rfl⟩

variable [Transport τ]

theorem Effect.of_closes (h : Effect session call reply contacts next)
    (hcloses : call.closes = true) :
    ∃ now summary, Closing session now summary contacts next ∧ reply.journal = [] ∧
      ∀ now, call = .teardown now → reply = .tornDown summary := by
  cases h with
  | tornDown closing => exact ⟨_, _, closing, rfl, fun _ _ => rfl⟩
  | closed closing => exact ⟨_, _, closing, rfl, by rintro _ ⟨⟩⟩
  | failed hrefused => cases hrefused <;> cases hcloses
  | _ => cases hcloses

/-- A call that does not close its session leaves the summary as it is, and puts the sentinel to no
transport but as an update. -/
theorem Effect.of_not_closes (h : Effect session call reply contacts next)
    (hcloses : call.closes = false)
    (hupdate : ∀ payload, call = .update payload → payload ≠ closeSentinel) :
    next.summary? = session.summary? ∧
      closeSentinel ∉ (contacts ++ reply.journal).filterMap Contact.offered? := by
  cases h with
  | started h => exact ⟨rfl, List.not_mem_nil⟩
  | notStarted released => exact ⟨rfl, by simp [Reply.journal, released, Contact.offered?]⟩
  | streamed named h settles advances counted =>
      refine ⟨rfl, ?_⟩
      simp only [Reply.journal, List.append_nil, List.filterMap_append, List.mem_append, not_or]
      exact ⟨settles.ne_sentinel, advances.ne_sentinel⟩
  | @updated options openedAt framing channel later payload answer counted =>
      refine ⟨rfl, ?_⟩
      simpa [Reply.journal, Contact.offered?] using (hupdate payload rfl).symm
  | refreshed h => exact ⟨rfl, List.not_mem_nil⟩
  | failed hrefused => cases hrefused <;> exact ⟨rfl, List.not_mem_nil⟩
  | tornDown closing => cases hcloses
  | closed closing => cases hcloses

/-- The sentinel goes out alone, and leaves the session closed. -/
theorem Effect.of_sentinel (h : Effect session call reply contacts next)
    (hupdate : ∀ payload, call = .update payload → payload ≠ closeSentinel)
    (hmem : closeSentinel ∈ (contacts ++ reply.journal).filterMap Contact.offered?) :
    (contacts ++ reply.journal).filterMap Contact.offered? = [closeSentinel] ∧
      ∃ summary, next.summary? = some summary := by
  cases hcloses : call.closes with
  | false => exact absurd hmem (h.of_not_closes hcloses hupdate).2
  | true =>
      obtain ⟨now, summary, closing, hjournal, -⟩ := h.of_closes hcloses
      refine ⟨?_, summary, closing.summary?_eq⟩
      rw [hjournal, List.append_nil] at hmem ⊢
      by_cases hlive : session.state = .live
      · obtain ⟨answer, rfl, -⟩ := closing.of_live hlive
        rfl
      · rw [(closing.of_not_live hlive).1] at hmem
        cases hmem

/-- A call of a closed session puts nothing to any transport and leaves the summary, which every
teardown returns again. -/
theorem Effect.of_closed {summary : Summary} (h : Effect session call reply contacts next)
    (hclosed : session.summary? = some summary) :
    (contacts ++ reply.journal).filterMap Contact.offered? = [] ∧ next.summary? = some summary ∧
      ∀ now, call = .teardown now → reply = .tornDown summary := by
  cases h with
  | notStarted released =>
      exact ⟨by simp [Reply.journal, released, Contact.offered?], hclosed, by rintro _ ⟨⟩⟩
  | failed hrefused => cases hrefused <;> exact ⟨rfl, hclosed, by rintro _ ⟨⟩⟩
  | tornDown closing =>
      cases closing with
      | again =>
          cases hclosed
          exact ⟨rfl, rfl, fun _ _ => rfl⟩
      | _ => cases hclosed
  | closed closing =>
      cases closing with
      | again => exact ⟨rfl, hclosed, by rintro _ ⟨⟩⟩
      | _ => cases hclosed
  | _ => cases hclosed

end Effects

variable [Transport τ]

/-- How often and where the sentinel was put to a transport, and what the summary says of it. -/
structure Ending (history : List (Step (Observed τ))) (session : Session (Observed τ)) : Prop where
  count_eq : (history.flatMap Step.offers).count closeSentinel =
    if history.any Step.endsStream then 1 else 0
  closed : history.any Step.endsStream = true → session.summary?.isSome = true
  delivered : ∀ summary, session.summary? = some summary →
    (summary.sentinelDelivered = true ↔
      .offer closeSentinel .delivered ∈ history.flatMap Step.contacts)

section Runs

variable {options : SessionOptions} {history : List (Step (Observed τ))}
  {session next : Session (Observed τ)} {step : Step (Observed τ)}

theorem Ending.not_ended (h : Ending history session) (hnone : session.summary? = none) :
    history.any Step.endsStream = false := by
  refine Bool.eq_false_iff.mpr fun hany => ?_
  have hclosed := h.closed hany
  rw [hnone] at hclosed
  cases hclosed

theorem Ending.not_delivered (h : Ending history session) (hnone : session.summary? = none)
    (answer : SendResult) : .offer closeSentinel answer ∉ history.flatMap Step.contacts := by
  have hcount := h.count_eq
  rw [h.not_ended hnone, if_neg Bool.false_ne_true, List.count_eq_zero] at hcount
  intro hmem
  obtain ⟨step, hstep, hoffer⟩ := List.mem_flatMap.mp hmem
  exact hcount (List.mem_flatMap.mpr ⟨step, hstep, Step.mem_offers hoffer⟩)

theorem Ending.ends {answer : SendResult} {summary : Summary} (h : Ending history session)
    (hnone : session.summary? = none) (hends : step.endsStream = true)
    (hoffers : step.offers = [closeSentinel])
    (hcontacts : step.contacts = [.offer closeSentinel answer, .close])
    (hsummary : next.summary? = some summary)
    (hdelivered : summary.sentinelDelivered = answer.isDelivered) :
    Ending (history ++ [step]) next := by
  have hearlier := h.not_delivered hnone
  have hlive := h.not_ended hnone
  refine ⟨?_, fun _ => by rw [hsummary]; rfl, ?_⟩
  · rw [List.flatMap_append, List.count_append, h.count_eq, hlive]
    simp [hoffers, hends]
  · intro summary' hsummary'
    rw [hsummary] at hsummary'
    cases hsummary'
    rw [hdelivered, List.flatMap_append, List.mem_append, or_iff_right (hearlier _),
      List.flatMap_singleton, hcontacts]
    cases answer <;> simp [SendResult.isDelivered]

theorem Ending.quiet (h : Ending history session) (hends : step.endsStream = false)
    (hoffers : closeSentinel ∉ step.offers)
    (hsummary : next.summary? = session.summary? ∨ session.summary? = none ∧
      ∃ summary, next.summary? = some summary ∧ summary.sentinelDelivered = false) :
    Ending (history ++ [step]) next := by
  have hcontacts : .offer closeSentinel .delivered ∉ step.contacts := fun hmem =>
    hoffers (Step.mem_offers hmem)
  refine ⟨?_, ?_, ?_⟩
  · rw [List.flatMap_append, List.count_append, h.count_eq, List.flatMap_singleton,
      List.count_eq_zero_of_not_mem hoffers]
    simp [hends]
  · intro hany
    rw [List.any_append, List.any_cons, hends, List.any_nil, Bool.or_false, Bool.or_false] at hany
    rcases hsummary with hsame | ⟨-, summary, hsome, -⟩
    · rw [hsame]
      exact h.closed hany
    · rw [hsome]
      rfl
  · intro summary hsome
    rw [List.flatMap_append, List.mem_append, List.flatMap_singleton, or_iff_left hcontacts]
    rcases hsummary with hsame | ⟨hnone, first, hfirst, hlost⟩
    · exact h.delivered summary (hsame.symm.trans hsome)
    · rw [hfirst] at hsome
      cases hsome
      simpa [hlost] using h.not_delivered hnone .delivered

/-- In every run the sentinel is put to a transport once if a live session is closed, and never
else. -/
theorem Run.ending (h : Run options history session)
    (hupdates : ∀ step ∈ history, ∀ payload, step.call = .update payload →
      payload ≠ closeSentinel) : Ending history session := by
  induction h with
  | first => exact ⟨rfl, nofun, nofun⟩
  | @step history session next call reply contacts run effect hreply hcontacts hafter ih =>
      have hearlier := ih fun step hstep => hupdates step (List.mem_append_left _ hstep)
      have hupdate := hupdates _ (List.mem_append_right _ List.mem_cons_self)
      have hoffers : (Step.mk session call).offers =
          (contacts ++ reply.journal).filterMap Contact.offered? := by
        rw [Step.offers, hreply, hcontacts]
      cases hcloses : call.closes with
      | false =>
          obtain ⟨hsummary, hnot⟩ := effect.of_not_closes hcloses hupdate
          refine hearlier.quiet ?_ (hoffers ▸ hnot) (.inl hsummary)
          rw [Step.endsStream, hcloses, Bool.and_false]
      | true =>
          obtain ⟨now, summary, closing, hjournal, -⟩ := effect.of_closes hcloses
          by_cases hlive : session.state = .live
          · obtain ⟨answer, rfl, hdelivered⟩ := closing.of_live hlive
            refine hearlier.ends ?_ ?_ ?_ hcontacts closing.summary?_eq hdelivered
            · exact summary?_of_live hlive
            · rw [Step.endsStream, hcloses, Bool.and_true, decide_eq_true hlive]
            · rw [hoffers, hjournal]
              rfl
          · obtain ⟨rfl, hsummary⟩ := closing.of_not_live hlive
            refine hearlier.quiet ?_ ?_ ?_
            · rw [Step.endsStream, decide_eq_false hlive, Bool.false_and]
            · rw [hoffers, hjournal]
              exact List.not_mem_nil
            · rcases hsummary with hsame | ⟨hnone, hlost⟩
              · exact .inl (closing.summary?_eq.trans hsame.symm)
              · exact .inr ⟨hnone, summary, closing.summary?_eq, hlost⟩

/-- Once a session is closed nothing is put to any transport, and its summary is returned again. -/
theorem Sound.steps_of_closed {calls : List (Call (Observed τ))} {summary : Summary}
    (hsound : session.Sound) (hfresh : ∀ call ∈ calls, call.Fresh)
    (hclosed : session.summary? = some summary) :
    (session.after calls).summary? = some summary ∧
      ∀ step ∈ session.steps calls, step.offers = [] ∧
        ∀ now, step.call = .teardown now → step.reply = .tornDown summary := by
  induction calls generalizing session with
  | nil => exact ⟨hclosed, List.forall_mem_nil _⟩
  | cons call rest ih =>
      have hcall : call.Fresh := hfresh call List.mem_cons_self
      obtain ⟨hoffers, hnext, hreply⟩ := (hsound.effect call hcall).of_closed hclosed
      obtain ⟨hafter, hlater⟩ := ih (hsound.perform hcall)
        (fun call hcall => hfresh call (List.mem_cons_of_mem _ hcall)) hnext
      refine ⟨hafter, fun step hstep => ?_⟩
      rcases List.mem_cons.mp hstep with rfl | hrest
      · exact ⟨hoffers, hreply⟩
      · exact hlater step hrest

end Runs

section Watched

variable {τ : Type} [Transport τ] {options : SessionOptions} {calls : List (Call τ)}
  {earlier later : List (Step (Observed (Endpoint τ)))} {step : Step (Observed (Endpoint τ))}

/-- Nothing is put to any transport after a step that leaves its session closed. -/
theorem watched_of_closed {summary : Summary}
    (hsplit : watched options calls = earlier ++ step :: later)
    (hclosed : step.after.summary? = some summary) :
    ((new options : Session (Observed (Endpoint τ))).after (calls.map Call.watch)).summary? =
        some summary ∧
      ∀ other ∈ later, other.offers = [] ∧
        ∀ now, other.call = .teardown now → other.reply = .tornDown summary := by
  obtain ⟨before, behind, hcalls, -, hbefore, rfl⟩ := steps_eq_append hsplit
  have hfresh : ∀ call ∈ before ++ step.call :: behind, call.Fresh :=
    hcalls ▸ fresh_of_mem_watch
  obtain ⟨hsound, -⟩ := run_of_fresh options before fun call hcall =>
    hfresh call (List.mem_append_left _ hcall)
  rw [← hbefore] at hsound
  have hafter : (new options).after (calls.map Call.watch) = step.after.after behind := by
    rw [hcalls, after_append, ← hbefore]
    rfl
  rw [hafter]
  refine (hsound.perform (hfresh step.call ?_)).steps_of_closed (fun call hcall => hfresh call ?_)
    hclosed
  · exact List.mem_append_right _ List.mem_cons_self
  · exact List.mem_append_right _ (List.mem_cons_of_mem _ hcall)

end Watched

/-- Whatever is called and whatever the transports answer, with a channel that has no transport
counted as one that takes nothing: if no update is the sentinel, the sentinel is put to a transport
once if a live session is closed, and never else. Nothing is put to any transport after it, no batch
puts it, and only the sentinel is read as the end of the stream. Every teardown after the first
closing returns the same summary and puts nothing to a transport, and the summary says that the
sentinel was delivered exactly if the transport took it. -/
theorem sentinel_last {τ : Type} [Transport τ] (options : SessionOptions) (calls : List (Call τ))
    (hupdates : ∀ payload, Call.update payload ∈ calls → payload ≠ closeSentinel) :
    let history := watched options calls
    let session : Session (Observed (Endpoint τ)) := (new options).after (calls.map Call.watch)
    Watches history ((new options).steps calls) ∧
    (history.flatMap Step.offers).count closeSentinel =
      (if history.any Step.endsStream then 1 else 0) ∧
    (∀ earlier (step : Step (Observed (Endpoint τ))) later, history = earlier ++ step :: later →
      closeSentinel ∈ step.offers →
      step.offers = [closeSentinel] ∧ later.flatMap Step.offers = []) ∧
    (∀ step ∈ history, ∀ buffer, step.call = .iterate buffer → closeSentinel ∉ step.offers) ∧
    (∀ bytes, Message.decode bytes = .ok .close ↔ bytes = closeSentinel) ∧
    (∀ earlier (step : Step (Observed (Endpoint τ))) later, history = earlier ++ step :: later →
      step.call.closes = true →
      ∃ summary, session.summary? = some summary ∧
        (∀ now, step.call = .teardown now → step.reply = .tornDown summary) ∧
        ∀ other ∈ later, other.offers = [] ∧
          ∀ now, other.call = .teardown now → other.reply = .tornDown summary) ∧
    (∀ summary, session.summary? = some summary →
      (summary.sentinelDelivered = true ↔
        .offer closeSentinel .delivered ∈ history.flatMap Step.contacts)) := by
  intro history session
  have hpayloads : ∀ step ∈ history, ∀ payload, step.call = .update payload →
      payload ≠ closeSentinel := by
    intro step hstep payload hcall
    have hmem := (sound_of_mem_watched hstep).1
    rw [hcall] at hmem
    exact hupdates payload (mem_of_update_mem_watch hmem)
  have hending := (run_watched options calls).2.ending hpayloads
  refine ⟨watches_watched options calls, hending.count_eq, ?_, ?_, fun _ => decode_eq_close_iff,
    ?_, hending.delivered⟩
  · intro earlier step later hsplit hmem
    have hstep : step ∈ history := hsplit ▸ List.mem_append_right _ List.mem_cons_self
    obtain ⟨hoffers, summary, hclosed⟩ :=
      (effect_of_mem_watched hstep).of_sentinel (hpayloads step hstep) hmem
    obtain ⟨-, hlater⟩ := watched_of_closed hsplit hclosed
    exact ⟨hoffers, List.flatMap_eq_nil_iff.mpr fun other hother => (hlater other hother).1⟩
  · intro step hstep buffer hcall
    have hcloses : step.call.closes = false := by rw [hcall]; rfl
    exact ((effect_of_mem_watched hstep).of_not_closes hcloses (hpayloads step hstep)).2
  · intro earlier step later hsplit hcloses
    have hstep : step ∈ history := hsplit ▸ List.mem_append_right _ List.mem_cons_self
    obtain ⟨now, summary, closing, -, hreply⟩ :=
      (effect_of_mem_watched hstep).of_closes hcloses
    obtain ⟨hsession, hlater⟩ := watched_of_closed hsplit closing.summary?_eq
    exact ⟨summary, hsession, hreply, hlater⟩

/-- The sentinel is lost, and a second closing does not try again. -/
theorem sentinel_last_lost :
    let nodes : NodeTable := ⟨[("id", .int [7]), ("color", .int [0]), ("size", .int [1])], 1⟩
    let edges : EdgeTable := ⟨[("edge", .int [4]), ("bundle", .int [0]), ("color", .int [2])], 1⟩
    let options : SessionOptions := ⟨["id", "x"], ["edge"], false, 500⟩
    let calls : List (Call Scripted) :=
      [.start .epoch ⟨nodes, edges⟩ .standard (.onto (.ofAnswers [] [.dropped .wouldBlock])),
        .iterate (.columnar [5] [6]), .update [1, 2], .close .epoch, .update [3],
        .teardown .epoch]
    let history := watched options calls
    let session : Session (Observed (Endpoint Scripted)) :=
      (new options).after (calls.map Call.watch)
    (∀ payload, Call.update payload ∈ calls → payload ≠ closeSentinel) ∧
    (history.flatMap Step.offers).count closeSentinel = 1 ∧
    ∃ summary, session.summary? = some summary ∧
      .offer closeSentinel .delivered ∉ history.flatMap Step.contacts ∧
      ∀ other ∈ history.drop 4, other.offers = [] := by
  intro nodes edges options calls history session
  have hupdates : ∀ payload, Call.update payload ∈ calls → payload ≠ closeSentinel := by
    intro payload hmem
    simp only [calls, List.mem_cons, reduceCtorEq, Call.update.injEq, List.not_mem_nil, or_false,
      false_or] at hmem
    rcases hmem with rfl | rfl <;> decide
  obtain ⟨-, hcount, -, -, -, hclosing, hdelivered⟩ := sentinel_last options calls hupdates
  have hends : history.any Step.endsStream = true := by
    decide +kernel +zetaReduce
  have hlost : session.summary?.map Summary.sentinelDelivered = some false := by
    decide +kernel +zetaReduce
  have hsplit : history = history.take 3 ++ _ :: history.drop 4 := rfl
  obtain ⟨summary, hsummary, -, hlater⟩ := hclosing _ _ _ hsplit rfl
  obtain ⟨_, hfound, hsent⟩ := Option.map_eq_some_iff.mp hlost
  obtain rfl := Option.some.inj (hsummary.symm.trans hfound)
  refine ⟨hupdates, hcount.trans (if_pos hends), summary, hsummary, ?_,
    fun other hother => (hlater other hother).1⟩
  intro hmem
  rw [(hdelivered summary hsummary).mpr hmem] at hsent
  cases hsent

end Session

end LiveLayout
