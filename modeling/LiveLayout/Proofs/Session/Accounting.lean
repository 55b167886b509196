import LiveLayout.Channel.Scripted
import LiveLayout.Proofs.Session.EdgeDelivery

/-!
# Accounting

A summary has counters from two places, the framing and the channel. Each contact with the transport
belongs to an edge frame, a node frame, an update or the closing of the session, so the counters of
the one can be balanced against those of the other.
-/

namespace LiveLayout

/-- The channel that a call brings has counted nothing yet. -/
def Call.BringsUnused {τ : Type} : Call τ → Prop
  | start _ _ _ channel => channel.stats = .zero
  | _ => False

/-- The update was put to the channel. -/
def Reply.updatedOk {τ : Type} : Reply τ → Bool
  | updated (.ok _) => true
  | _ => false

namespace Step

variable {τ : Type} [Transport τ]

/-- The step put an update to the channel. -/
def updated (step : Step τ) : Bool := step.reply.updatedOk

/-- The updates that a step puts to the transport, each with its answer. -/
def updates (step : Step (Observed τ)) : List Contact :=
  match step.call with
  | .update _ => step.contacts
  | _ => []

/-- The contacts by which a step closes its session. -/
def closings (step : Step (Observed τ)) : List Contact :=
  match step.call with
  | .teardown _ => step.contacts
  | .close _ => step.contacts
  | _ => []

/-- Each contact of a step belongs to one of these. -/
def Sorted (step : Step (Observed τ)) : Prop :=
  step.contacts = step.frames .edges ++ step.frames .nodes ++ step.updates ++ step.closings

theorem closings_of_contacts_eq_nil {step : Step (Observed τ)} (h : step.contacts = []) :
    step.closings = [] := by
  unfold closings
  split
  · exact h
  · exact h
  · rfl

theorem updates_of_contacts_eq_nil {step : Step (Observed τ)} (h : step.contacts = []) :
    step.updates = [] := by
  unfold updates
  split
  · exact h
  · rfl

theorem sorted_of_contacts_eq_nil {step : Step (Observed τ)} (h : step.contacts = []) :
    step.Sorted := by
  rw [Sorted, h, frames_of_contacts_eq_nil h, frames_of_contacts_eq_nil h,
    updates_of_contacts_eq_nil h, closings_of_contacts_eq_nil h]
  rfl

/-- The contacts of sorted steps are those of their frames, updates and closings. -/
theorem length_filterMap_contacts {history : List (Step (Observed τ))}
    (h : ∀ step ∈ history, step.Sorted) (f : Contact → Option Bytes) :
    ((history.flatMap contacts).filterMap f).length =
      ((history.flatMap (frames .edges)).filterMap f).length +
        ((history.flatMap (frames .nodes)).filterMap f).length +
          ((history.flatMap updates).filterMap f).length +
            ((history.flatMap closings).filterMap f).length := by
  induction history with
  | nil => rfl
  | cons step rest ih =>
      have hrest := ih fun step hstep => h step (List.mem_cons_of_mem _ hstep)
      have hstep : step.Sorted := h step List.mem_cons_self
      rw [Sorted] at hstep
      simp only [List.flatMap_cons, List.filterMap_append, List.length_append, hrest, hstep]
      omega

/-- The updates put to the transport are counted where each step counts its own. -/
theorem length_offered_updates {history : List (Step (Observed τ))}
    (h : ∀ step ∈ history, (step.updates.filterMap Contact.offered?).length =
      if step.updated then 1 else 0) :
    ((history.flatMap updates).filterMap Contact.offered?).length =
      (history.filter updated).length := by
  induction history with
  | nil => rfl
  | cons step rest ih =>
      have hrest := ih fun step hstep => h step (List.mem_cons_of_mem _ hstep)
      have hstep := h step List.mem_cons_self
      rw [List.flatMap_cons, List.filterMap_append, List.length_append, hrest, hstep]
      by_cases hupdated : step.updated = true
      · rw [if_pos hupdated, List.filter_cons_of_pos hupdated, List.length_cons, Nat.add_comm]
      · rw [if_neg hupdated, List.filter_cons_of_neg hupdated, Nat.zero_add]

/-- Frames are all put to the transport. -/
theorem length_offered_frames (history : List (Step (Observed τ))) (kind : FrameKind) :
    ((history.flatMap (frames kind)).filterMap Contact.offered?).length =
      (history.flatMap (frames kind)).length := by
  refine List.filterMap_length_eq_length.mpr fun contact hcontact => ?_
  obtain ⟨⟨session, call⟩, -, hmem⟩ := List.mem_flatMap.mp hcontact
  cases call with
  | iterate buffer =>
      have hkind := of_decide_eq_true (List.mem_filter.mp hmem).2
      rw [Contact.kind?, Option.bind_eq_some_iff] at hkind
      obtain ⟨payload, hoffered, -⟩ := hkind
      rw [hoffered]
      rfl
  | _ => cases hmem

end Step

namespace Session

variable {τ : Type} [Transport τ]

section Effects

variable {session : Session (Observed τ)} {call : Call (Observed τ)}

theorem Sound.sorted (h : session.Sound) (hfresh : call.Fresh) :
    (Step.mk session call).Sorted := by
  obtain ⟨reply, contacts, next, -, hcontacts, -, heffect⟩ := h.exists_effect call hfresh
  cases heffect with
  | streamed named hbatch settles advances counted =>
      obtain ⟨hedges, hnodes⟩ := Step.frames_streamed named settles advances hcontacts
      rw [Step.Sorted, hedges, hnodes, hcontacts]
      simp [Step.updates, Step.closings]
  | updated counted => simp [Step.Sorted, Step.frames, Step.updates, Step.closings]
  | tornDown closing => simp [Step.Sorted, Step.frames, Step.updates, Step.closings]
  | closed closing => simp [Step.Sorted, Step.frames, Step.updates, Step.closings]
  | _ => exact Step.sorted_of_contacts_eq_nil hcontacts

/-- An update that is not refused is put to the transport. -/
theorem Sound.length_updates (h : session.Sound) (hfresh : call.Fresh) :
    ((Step.mk session call).updates.filterMap Contact.offered?).length =
      if (Step.mk session call).updated then 1 else 0 := by
  obtain ⟨reply, contacts, next, hreply, hcontacts, -, heffect⟩ := h.exists_effect call hfresh
  rw [Step.updated, hreply]
  cases heffect with
  | updated counted =>
      simp [Step.updates, hcontacts, Contact.offered?, Reply.updatedOk]
  | failed hrefused =>
      cases hrefused <;> simp [Step.updates, hcontacts, Reply.updatedOk]
  | _ => rfl

end Effects

/-- The session was opened over a channel that had counted nothing. -/
def OpenedUnused (history : List (Step τ)) : Prop :=
  ∃ step ∈ history, step.reply = .started ∧ step.call.BringsUnused

theorem openedUnused_append {history : List (Step τ)} {step : Step τ}
    (h : step.reply ≠ .started) : OpenedUnused (history ++ [step]) ↔ OpenedUnused history := by
  constructor
  · rintro ⟨other, hmem, hstarted, hunused⟩
    rcases List.mem_append.mp hmem with hearlier | hlast
    · exact ⟨other, hearlier, hstarted, hunused⟩
    · rw [List.mem_singleton.mp hlast] at hstarted
      exact absurd hstarted h
  · rintro ⟨other, hmem, hopened⟩
    exact ⟨other, List.mem_append_left _ hmem, hopened⟩

/-- What the counters of the channel have to do with the contacts so far. -/
structure Ledger (history : List (Step (Observed τ))) (session : Session (Observed τ)) : Prop where
  unopened : session.phase = .unopened →
    history.flatMap Step.contacts = [] ∧ history.flatMap Step.closings = [] ∧
      ¬ OpenedUnused history
  live : ∀ openedAt framing channel, session.phase = .live openedAt framing channel →
    history.flatMap Step.closings = [] ∧
      (OpenedUnused history →
        channel.stats = ChannelStats.zero.tally (history.flatMap Step.contacts))
  closed : ∀ summary, session.summary? = some summary → OpenedUnused history →
    summary.channel = ChannelStats.zero.tally (history.flatMap Step.contacts) ∧
      ∃ answer, history.flatMap Step.closings = [.offer closeSentinel answer, .close] ∧
        summary.sentinelDelivered = answer.isDelivered

section Ledgers

variable {options : SessionOptions} {history : List (Step (Observed τ))}
  {session next : Session (Observed τ)} {step : Step (Observed τ)}

theorem Ledger.same (h : Ledger history session) (hreply : step.reply ≠ .started)
    (hcontacts : step.contacts = []) : Ledger (history ++ [step]) session := by
  have hclosings := Step.closings_of_contacts_eq_nil hcontacts
  obtain ⟨hunopened, hlive, hclosed⟩ := h
  constructor <;>
    simpa only [openedUnused_append hreply, List.flatMap_append, List.flatMap_singleton, hcontacts,
      hclosings, List.append_nil]

/-- A call of a live session that does not close it. -/
theorem Ledger.stays {openedAt : Instant} {framing settled : Framing}
    {channel later : Channel (Observed τ)}
    (h : Ledger history ⟨options, .live openedAt framing channel⟩)
    (hreply : step.reply ≠ .started) (hclosings : step.closings = [])
    (hstats : later.stats = channel.stats.tally step.contacts) :
    Ledger (history ++ [step]) ⟨options, .live openedAt settled later⟩ := by
  obtain ⟨hnone, hearlier⟩ := h.live _ _ _ rfl
  refine ⟨nofun, ?_, nofun⟩
  intro openedAt' framing' channel' hphase
  cases hphase
  refine ⟨by simp [hnone, hclosings], fun hopened => ?_⟩
  rw [hstats, hearlier ((openedUnused_append hreply).mp hopened), ← ChannelStats.tally_append]
  simp

theorem Ledger.closing {now : Instant} {summary : Summary}
    (h : Ledger history session) (hreply : step.reply ≠ .started)
    (hclosings : step.closings = step.contacts)
    (hclosing : Closing session now summary step.contacts next) :
    Ledger (history ++ [step]) next := by
  generalize hcontacts : step.contacts = contacts at hclosings hclosing
  cases hclosing with
  | unopened =>
      obtain ⟨hnone, hnoclosings, hnever⟩ := h.unopened rfl
      refine ⟨nofun, nofun, fun _ _ hopened => ?_⟩
      exact absurd ((openedUnused_append hreply).mp hopened) hnever
  | @live options openedAt now framing channel last answer counted =>
      obtain ⟨hnone, hearlier⟩ := h.live _ _ _ rfl
      refine ⟨nofun, nofun, fun summary hsummary hopened => ?_⟩
      cases hsummary
      refine ⟨?_, answer, by simp [hnone, hclosings], rfl⟩
      rw [counted, hearlier ((openedUnused_append hreply).mp hopened)]
      simp [hcontacts, ChannelStats.recordContact]
  | again => exact h.same hreply hcontacts

/-- In every run the counters of the channel tally with the contacts, if it had counted nothing when
the session was opened. -/
theorem Run.ledger (h : Run options history session) : Ledger history session := by
  induction h with
  | first => exact ⟨fun _ => ⟨rfl, rfl, by simp [OpenedUnused]⟩, nofun, nofun⟩
  | @step history session next call reply contacts run effect hreply hcontacts hafter ih =>
      cases effect with
      | @started options now graph mapper channel framing hstart =>
          obtain ⟨hnone, hnoclosings, hnever⟩ := ih.unopened rfl
          refine ⟨nofun, ?_, nofun⟩
          intro openedAt framing' channel' hphase
          cases hphase
          refine ⟨by simp [hnoclosings, Step.closings], ?_⟩
          rintro ⟨other, hmem, hstarted, hunused⟩
          rcases List.mem_append.mp hmem with hearlier | hlast
          · exact absurd ⟨other, hearlier, hstarted, hunused⟩ hnever
          · rw [List.mem_singleton.mp hlast] at hunused
            have hzero : channel.stats = .zero := hunused
            simpa [hnone, hcontacts] using hzero
      | notStarted => exact ih.same (by rw [hreply]; nofun) hcontacts
      | streamed named hbatch settles advances counted =>
          refine ih.stays (by rw [hreply]; nofun) rfl ?_
          rw [hcontacts, counted]
      | updated counted =>
          refine ih.stays (by rw [hreply]; nofun) rfl ?_
          rw [hcontacts, counted]
          rfl
      | refreshed hrefresh =>
          refine ih.stays (by rw [hreply]; nofun) rfl ?_
          rw [hcontacts, ChannelStats.tally_nil]
      | failed hrefused =>
          refine ih.same ?_ hcontacts
          rw [hreply]
          cases hrefused <;> nofun
      | tornDown closing => exact ih.closing (by rw [hreply]; nofun) rfl (hcontacts ▸ closing)
      | closed closing => exact ih.closing (by rw [hreply]; nofun) rfl (hcontacts ▸ closing)

/-- What the counters of the framing have to do with the batches so far: each puts at most one frame
of a kind to the transport, and the frames that were due and are missing are counted as skipped. -/
structure Books (history : List (Step (Observed τ))) (session : Session (Observed τ)) : Prop where
  iteration_eq : session.iteration = (history.filter Step.streamed).length
  frames_eq : (history.flatMap (Step.frames .nodes)).length +
      (history.flatMap (Step.frames .edges)).length + session.framesSkipped =
    (history.filter Step.streamed).length + (history.filter Step.edgesDue).length
  nodes_le : (history.flatMap (Step.frames .nodes)).length ≤ (history.filter Step.streamed).length
  edges_le : (history.flatMap (Step.frames .edges)).length ≤ (history.filter Step.edgesDue).length

/-- Where no frame was skipped, each batch streamed has its node frame. -/
theorem Books.length_nodes (h : Books history session) (hskipped : session.framesSkipped = 0) :
    (history.flatMap (Step.frames .nodes)).length = (history.filter Step.streamed).length := by
  obtain ⟨-, hframes, hnodes, hedges⟩ := h
  omega

/-- A step that streams no batch and leaves the counters of the framing as they are. -/
theorem Books.quiet (h : Books history session) (hstreamed : step.streamed = false)
    (hframes : ∀ kind, step.frames kind = []) (hiteration : next.iteration = session.iteration)
    (hskipped : next.framesSkipped = session.framesSkipped) : Books (history ++ [step]) next := by
  have hdue : step.edgesDue = false := by rw [Step.edgesDue, hstreamed, Bool.false_and]
  constructor
  · simp [hiteration, h.iteration_eq, hstreamed]
  · simpa [hskipped, hframes, hstreamed, hdue] using h.frames_eq
  · simpa [hframes, hstreamed] using h.nodes_le
  · simpa [hframes, hdue] using h.edges_le

theorem Books.streamed {openedAt : Instant} {framing settled next : Framing}
    {channel later : Channel (Observed τ)} {positions : Positions} {edges nodes : List Contact}
    (h : Books history step.before) (hphase : step.before.phase = .live openedAt framing channel)
    (hstreamed : step.streamed = true) (hsettles : framing.Settles edges settled)
    (hadvances : settled.Advances positions nodes next) (hedges : step.frames .edges = edges)
    (hnodes : step.frames .nodes = nodes) :
    Books (history ++ [step]) ⟨options, .live openedAt next later⟩ := by
  have hdue : step.edgesDue = framing.owesEdges := by
    rw [Step.edgesDue, hstreamed, hphase, Bool.true_and]
  have hstreamedNow : ((history ++ [step]).filter Step.streamed).length =
      (history.filter Step.streamed).length + 1 := by
    simp [hstreamed]
  have hdueNow : ((history ++ [step]).filter Step.edgesDue).length =
      (history.filter Step.edgesDue).length + if framing.owesEdges then 1 else 0 := by
    rw [List.filter_append, List.length_append, List.filter_singleton, hdue]
    cases framing.owesEdges <;> rfl
  have hnodesNow : ((history ++ [step]).flatMap (Step.frames .nodes)).length =
      (history.flatMap (Step.frames .nodes)).length + nodes.length := by
    simp [hnodes]
  have hedgesNow : ((history ++ [step]).flatMap (Step.frames .edges)).length =
      (history.flatMap (Step.frames .edges)).length + edges.length := by
    simp [hedges]
  obtain ⟨hiteration, hframes, hnodesLe, hedgesLe⟩ := h
  obtain ⟨hkept, hsettled⟩ := hsettles.attempts
  obtain ⟨hatMost, hadvanced⟩ := hadvances.attempts
  simp only [iteration, framesSkipped, hphase] at hiteration hframes
  constructor
  · simp only [iteration, hadvances.iteration_eq, hsettles.iteration_eq, hiteration, hstreamedNow]
  · simp only [framesSkipped]
    omega
  · omega
  · omega

/-- In every run the batches streamed are counted, and each frame that was due is either put to the
transport or counted as skipped. -/
theorem Run.books (h : Run options history session) : Books history session := by
  induction h with
  | first => exact ⟨rfl, rfl, Nat.le_refl 0, Nat.le_refl 0⟩
  | @step history session next call reply contacts run effect hreply hcontacts hafter ih =>
      have hstreamed : (Step.mk session call).streamed = reply.streamed :=
        congrArg Reply.streamed hreply
      cases effect with
      | started hstart =>
          obtain ⟨rfl, -⟩ := Framing.start_eq_ok_iff.mp hstart
          exact ih.quiet hstreamed (fun _ => rfl) rfl rfl
      | streamed named hbatch settles advances counted =>
          obtain ⟨hedges, hnodes⟩ := Step.frames_streamed named settles advances hcontacts
          exact ih.streamed rfl hstreamed settles advances hedges hnodes
      | refreshed hrefresh =>
          obtain ⟨rfl, -⟩ := Framing.refreshEdges_eq_ok hrefresh
          exact ih.quiet hstreamed (fun _ => rfl) rfl rfl
      | failed hrefused =>
          exact ih.quiet (hstreamed.trans hrefused.failed.not_streamed)
            (Step.frames_of_contacts_eq_nil hcontacts) rfl rfl
      | tornDown closing =>
          exact ih.quiet hstreamed (fun _ => rfl) closing.iteration_eq closing.framesSkipped_eq
      | closed closing =>
          exact ih.quiet hstreamed (fun _ => rfl) closing.iteration_eq closing.framesSkipped_eq
      | _ => exact ih.quiet hstreamed (fun _ => rfl) rfl rfl

end Ledgers

omit [Transport τ] in
theorem counters_of_summary? {session : Session (Observed τ)} {summary : Summary}
    (h : session.summary? = some summary) :
    session.iteration = summary.iterations ∧ session.edgeFrames = summary.edgeFrames ∧
      session.framesSkipped = summary.framesSkipped := by
  rcases session with ⟨options, _ | _ | _⟩ <;> cases h
  exact ⟨rfl, rfl, rfl⟩

theorem summary?_teardown (session : Session τ) (now : Instant) :
    (session.teardown now).2.summary? = some (session.teardown now).1 := by
  rcases session with ⟨options, _ | _ | _⟩ <;> rfl

theorem openedUnused_watched {options : SessionOptions} {calls : List (Call τ)}
    (h : OpenedUnused ((new options).steps calls)) : OpenedUnused (watched options calls) := by
  obtain ⟨step, hmem, hstarted, hunused⟩ := h
  rw [← (watches_watched options calls).1] at hmem
  obtain ⟨⟨session, call⟩, hwatched, rfl⟩ := List.mem_map.mp hmem
  refine ⟨_, hwatched, ?_, ?_⟩
  · rw [Step.reply_mapChannel Channel.unwatch_faithful] at hstarted
    generalize (Step.mk session call).reply = reply at hstarted
    cases reply <;> cases hstarted
    rfl
  · cases call with
    | start now graph mapper channel =>
        exact (Channel.unwatch_faithful.stats channel).symm.trans hunused
    | _ => exact hunused

theorem sorted_of_mem_watched {options : SessionOptions} {calls : List (Call τ)}
    {step : Step (Observed (Endpoint τ))} (h : step ∈ watched options calls) : step.Sorted := by
  obtain ⟨hcall, hsound⟩ := sound_of_mem_watched h
  exact hsound.sorted (fresh_of_mem_watch step.call hcall)

/-- The updates of a run that are not refused are those that it puts to its channels. -/
theorem length_offered_updates_watched (options : SessionOptions) (calls : List (Call τ)) :
    (((watched options calls).flatMap Step.updates).filterMap Contact.offered?).length =
      ((watched options calls).filter Step.updated).length := by
  apply Step.length_offered_updates
  intro step hstep
  obtain ⟨hcall, hsound⟩ := sound_of_mem_watched hstep
  exact hsound.length_updates (fresh_of_mem_watch step.call hcall)

/-- The summary that a teardown returns is the one that the session keeps, watched or not. -/
theorem summary?_watched (options : SessionOptions) (calls : List (Call τ)) (now : Instant) :
    ((new options : Session (Observed (Endpoint τ))).after
      ((calls ++ [Call.teardown now]).map Call.watch)).summary? =
        some (((new options).after calls).teardown now).1 := by
  rw [List.map_append, after_append, ← teardown_watched]
  exact summary?_teardown _ now

/-- The summary of a session that was opened over a channel which had counted nothing, whatever is
called and whatever the transports answer, with a channel that has no transport counted as one that
takes nothing. It counts the batches streamed and the edge frames taken. What the channel sent is
these, the node frames and updates taken and the sentinel if it was delivered; what it counts at all
is the frames put to it, the updates that were not refused and the sentinel. Each frame that was due
is put to the channel or counted as skipped, and the bytes sent are those of the payloads taken. -/
theorem accounts_balance (options : SessionOptions) (calls : List (Call τ)) (now : Instant)
    (hopened : OpenedUnused ((new options).steps calls)) :
    let summary := (((new options).after calls).teardown now).1
    let history := watched options (calls ++ [.teardown now])
    let edges := history.flatMap (Step.frames .edges)
    let nodes := history.flatMap (Step.frames .nodes)
    let updates := history.flatMap Step.updates
    Watches history ((new options).steps (calls ++ [.teardown now])) ∧
    summary.iterations = (history.filter Step.streamed).length ∧
    summary.edgeFrames = (edges.filterMap Contact.taken?).length ∧
    summary.channel.sent = summary.edgeFrames + (nodes.filterMap Contact.taken?).length +
      (updates.filterMap Contact.taken?).length + (if summary.sentinelDelivered then 1 else 0) ∧
    summary.channel.sent + summary.channel.dropped + summary.channel.rejected =
      edges.length + nodes.length + (history.filter Step.updated).length + 1 ∧
    nodes.length + edges.length + summary.framesSkipped =
      summary.iterations + (history.filter Step.edgesDue).length ∧
    summary.channel.bytesSent =
      (((history.flatMap Step.contacts).filterMap Contact.taken?).map List.length).sum := by
  intro summary history edges nodes updates
  obtain ⟨-, hrun⟩ := run_watched options (calls ++ [.teardown now])
  have hsummary := summary?_watched options calls now
  obtain ⟨hiterations, hedgeFrames, hskipped⟩ := counters_of_summary? hsummary
  have hopened' : OpenedUnused history := by
    apply openedUnused_watched
    obtain ⟨step, hmem, hstep⟩ := hopened
    rw [steps_append]
    exact ⟨step, List.mem_append_left _ hmem, hstep⟩
  obtain ⟨hchannel, answer, hclosings, hdelivered⟩ := hrun.ledger.closed summary hsummary hopened'
  have hsorted : ∀ step ∈ history, step.Sorted := fun _ hstep => sorted_of_mem_watched hstep
  have hedges : summary.edgeFrames = (edges.filterMap Contact.taken?).length := by
    rw [← hedgeFrames, hrun.delivery.edgeFrames_eq, List.filterMap_flatMap]
    rfl
  have hiteration := hiterations.symm.trans hrun.books.iteration_eq
  refine ⟨watches_watched options _, hiteration, hedges, ?_, ?_, ?_, ?_⟩
  · have hsent := ChannelStats.zero.sent_tally (history.flatMap Step.contacts)
    rw [← hchannel, Step.length_filterMap_contacts hsorted, hclosings] at hsent
    have hone : ([.offer closeSentinel answer, .close].filterMap Contact.taken?).length =
        if answer.isDelivered then 1 else 0 := by
      cases answer <;> rfl
    rw [hsent, hone, hedges, hdelivered]
    exact Nat.zero_add _
  · have htotal := ChannelStats.zero.total_tally (history.flatMap Step.contacts)
    rw [← hchannel, Step.length_filterMap_contacts hsorted, hclosings, Step.length_offered_frames,
      Step.length_offered_frames, length_offered_updates_watched] at htotal
    exact htotal.trans (Nat.zero_add _)
  · rw [hiteration, ← hskipped]
    exact hrun.books.frames_eq
  · rw [hchannel, ChannelStats.bytesSent_tally]
    exact Nat.zero_add _

/-- Of two batches and an update the edge frame is lost once, and the update and the sentinel are
lost. -/
theorem accounts_balance_lossy :
    let nodes : NodeTable := ⟨[("id", .int [7]), ("color", .int [0]), ("size", .int [1])], 1⟩
    let edges : EdgeTable := ⟨[("edge", .int [4]), ("bundle", .int [0]), ("color", .int [2])], 1⟩
    let answers : List SendResult := [.dropped .wouldBlock, .delivered, .dropped .disconnected]
    let options : SessionOptions := ⟨["id", "x"], ["edge"], false, 500⟩
    let calls : List (Call Scripted) :=
      [.start .epoch ⟨nodes, edges⟩ .standard
          (.onto (.ofAnswers (answers ++ [.delivered, .delivered]) answers)),
        .iterate (.columnar [5] [6]), .update [1, 2], .iterate (.columnar [8] [9])]
    let summary := (((new options).after calls).teardown .epoch).1
    let history := watched options (calls ++ [.teardown .epoch])
    OpenedUnused ((new options).steps calls) ∧
    summary.iterations = 2 ∧ summary.edgeFrames = 1 ∧ summary.channel.sent = 3 ∧
    summary.channel.sent + summary.channel.dropped + summary.channel.rejected = 6 ∧
    summary.framesSkipped = 0 ∧ (history.filter Step.edgesDue).length = 2 := by
  intro nodes edges answers options calls summary history
  have hopened : OpenedUnused ((new options).steps calls) :=
    ⟨_, List.mem_cons_self, rfl, rfl⟩
  obtain ⟨-, hiterations, hedgeFrames, hsent, htotal, hframes, -⟩ :=
    accounts_balance options calls .epoch hopened
  have hstreamed : (history.filter Step.streamed).length = 2 := by
    decide +kernel +zetaReduce
  have hdue : (history.filter Step.edgesDue).length = 2 := by
    decide +kernel +zetaReduce
  have htakenEdges :
      ((history.flatMap (Step.frames .edges)).filterMap Contact.taken?).length = 1 := by
    decide +kernel +zetaReduce
  have htakenNodes :
      ((history.flatMap (Step.frames .nodes)).filterMap Contact.taken?).length = 2 := by
    decide +kernel +zetaReduce
  have htakenUpdates : ((history.flatMap Step.updates).filterMap Contact.taken?).length = 0 := by
    decide +kernel +zetaReduce
  have hput : (history.flatMap (Step.frames .edges)).length +
      (history.flatMap (Step.frames .nodes)).length + (history.filter Step.updated).length = 5 := by
    decide +kernel +zetaReduce
  have hlost : summary.sentinelDelivered = false := by
    decide +kernel +zetaReduce
  have hedges := hedgeFrames.trans htakenEdges
  refine ⟨hopened, hiterations.trans hstreamed, hedges, ?_, ?_, ?_, hdue⟩
  · rw [hedges, htakenNodes, htakenUpdates, hlost] at hsent
    exact hsent
  · rw [hput] at htotal
    exact htotal
  · have hnodes : (history.flatMap (Step.frames .nodes)).length +
        (history.flatMap (Step.frames .edges)).length = 4 := by
      decide +kernel +zetaReduce
    rw [hnodes, hdue, hiterations.trans hstreamed] at hframes
    exact Nat.add_left_cancel hframes

end Session

end LiveLayout
