import LiveLayout.Channel.Scripted
import LiveLayout.Proofs.Session.Frames

/-!
# Delivery of edge tables

An edge table is owed to the consumer from the call that hands it over until an edge frame of it is
taken, or is found to have no wire form. Every batch in between tries once. So what the consumer got
last is the table that the session holds, unless one is owed or has no wire form.
-/

namespace LiveLayout

/-- What an edge frame carries of an edge table: the columns asked for, in that order. -/
def EdgeTable.framed (edges : EdgeTable) (names : List String) : Table :=
  ⟨edges.table.picked names, edges.length⟩

/-- A payload is an edge frame of an edge table: of what selecting the columns asked for gives. -/
def EdgeTable.FramedAs (edges : EdgeTable) (names : List String) (iteration : UInt64)
    (payload : Bytes) : Prop :=
  edges.table.select names = .ok (edges.framed names) ∧
    Message.decode payload = .ok (.frame ⟨.edges, iteration, edges.framed names⟩)

namespace Framing

theorem edgeFrame_eq (framing : Framing) :
    framing.edgeFrame = (framing.edges.framed framing.edgeColumns).encode .edges
      (UInt64.ofNat framing.iteration) := rfl

theorem Named.framedAs {framing : Framing} (hnamed : framing.Named) {wire : Bytes}
    (h : framing.edgeFrame = .ok wire) :
    framing.edges.FramedAs framing.edgeColumns (UInt64.ofNat framing.iteration) wire := by
  obtain ⟨-, -, blocks, hblocks, -⟩ := encodeColumns_eq_ok_iff.mp h
  exact ⟨Table.select_ok_of_lengths hblocks.length_eq hnamed.edges_nodup hnamed.edges_known,
    hnamed.decode_edgeFrame h⟩

end Framing

namespace Step

/-- The edge table that the call of a step handed over. -/
def suppliedEdges? {τ : Type} [Transport τ] (step : Step τ) : Option EdgeTable :=
  match step.call, step.reply with
  | .start _ graph _ _, .started => some graph.edges
  | .refreshEdges edges, .refreshed (.ok _) => some edges
  | _, _ => none

variable {τ : Type} [Transport τ]

/-- An edge frame was taken in this step, or skipped. -/
def settlesEdges (step : Step (Observed τ)) : Bool :=
  !(step.takenFrames .edges).isEmpty || step.skippedEdges != 0

theorem suppliedEdges?_of_failed {step : Step τ} (h : step.reply.Failed) :
    step.suppliedEdges? = none := by
  unfold suppliedEdges?
  split
  · next hreply => rw [hreply] at h; exact h.elim
  · next hreply => rw [hreply] at h; exact h.elim
  · rfl

theorem skippedEdges_eq_zero {step : Step (Observed τ)}
    (h : step.after.framesSkipped = step.before.framesSkipped) : step.skippedEdges = 0 := by
  rw [skippedEdges, skipped, h, Nat.sub_self, Nat.zero_sub]

end Step

/-- The edge table that was handed over last, with the steps since then. -/
def currentEdges? {τ : Type} [Transport τ] (history : List (Step τ)) :
    Option (EdgeTable × List (Step τ)) :=
  history.foldl (fun current step =>
    match step.suppliedEdges? with
    | some edges => some (edges, [])
    | none => current.map fun (edges, since) => (edges, since ++ [step])) none

section Current

variable {τ : Type} [Transport τ] {step : Step τ}

theorem currentEdges?_supplied {edges : EdgeTable} (history : List (Step τ))
    (h : step.suppliedEdges? = some edges) :
    currentEdges? (history ++ [step]) = some (edges, []) := by
  simp only [currentEdges?, List.foldl_append, List.foldl_cons, List.foldl_nil, h]

theorem currentEdges?_unsupplied (history : List (Step τ)) (h : step.suppliedEdges? = none) :
    currentEdges? (history ++ [step]) =
      (currentEdges? history).map fun (edges, since) => (edges, since ++ [step]) := by
  simp only [currentEdges?, List.foldl_append, List.foldl_cons, List.foldl_nil, h]

end Current

namespace Session

variable {τ : Type} [Transport τ]

/-- The edge frame taken last in a history is of an edge table. -/
def LastFramed (history : List (Step (Observed τ))) (edges : EdgeTable) (names : List String) :
    Prop :=
  ∃ payload iteration, (history.flatMap (Step.takenFrames .edges)).getLast? = some payload ∧
    edges.FramedAs names iteration payload

/-- How the framing of a live session stands to the edge table handed over last. -/
structure Delivers (options : SessionOptions) (history since : List (Step (Observed τ)))
    (edges : EdgeTable) (framing : Framing) : Prop where
  edges_eq : framing.edges = edges
  edgeColumns_eq : framing.edgeColumns = options.edgeColumns
  resendEdges_eq : framing.resendEdges = options.resendEdges
  pending_eq : framing.edgesPending = !since.any Step.settlesEdges
  last : framing.edgesPending = false →
    ∀ iteration wire, (edges.framed options.edgeColumns).encode .edges iteration = .ok wire →
      LastFramed history edges options.edgeColumns

/-- How a session stands to the edge tables handed over so far. -/
structure Delivery (options : SessionOptions) (history : List (Step (Observed τ)))
    (session : Session (Observed τ)) : Prop where
  options_eq : session.options = options
  edgeFrames_eq : session.edgeFrames = (history.flatMap (Step.takenFrames .edges)).length
  once : ∀ edges since, currentEdges? history = some (edges, since) →
    options.resendEdges = false → (since.flatMap (Step.takenFrames .edges)).length ≤ 1
  live : ∀ openedAt framing channel, session.phase = .live openedAt framing channel →
    ∃ edges since, currentEdges? history = some (edges, since) ∧
      Delivers options history since edges framing

section Steps

variable {options : SessionOptions} {history since : List (Step (Observed τ))}
  {session next : Session (Observed τ)} {step : Step (Observed τ)} {edges : EdgeTable}
  {framing : Framing}

theorem takenFrames_eq_nil_of_pending (h : Delivers options history since edges framing)
    (hpending : framing.edgesPending = true) :
    since.flatMap (Step.takenFrames .edges) = [] := by
  have hnone := h.pending_eq.symm.trans hpending
  simp only [Bool.not_eq_true', List.any_eq_false, Step.settlesEdges, Bool.or_eq_true,
    Bool.not_eq_true', List.isEmpty_eq_false_iff, not_or, not_not] at hnone
  exact List.flatMap_eq_nil_iff.mpr fun step hstep => (hnone step hstep).1

/-- A step that neither hands a table over nor puts an edge frame to the transport. -/
theorem Delivery.quiet (h : Delivery options history session)
    (hsupplied : step.suppliedEdges? = none) (htaken : step.takenFrames .edges = [])
    (hskipped : step.skippedEdges = 0) (hoptions : next.options = session.options)
    (hcount : next.edgeFrames = session.edgeFrames)
    (hlive : ∀ openedAt framing channel, next.phase = .live openedAt framing channel →
      ∃ channel', session.phase = .live openedAt framing channel') :
    Delivery options (history ++ [step]) next := by
  have hsettles : step.settlesEdges = false := by simp [Step.settlesEdges, htaken, hskipped]
  refine ⟨hoptions.trans h.options_eq, ?_, ?_, ?_⟩
  · rw [hcount, h.edgeFrames_eq]
    simp [htaken]
  · intro edges since hcurrent hresend
    rw [currentEdges?_unsupplied history hsupplied] at hcurrent
    obtain ⟨⟨_, earlier⟩, hearlier, heq⟩ := Option.map_eq_some_iff.mp hcurrent
    obtain ⟨rfl, rfl⟩ := Prod.mk.inj heq
    simpa [htaken] using h.once _ earlier hearlier hresend
  · intro openedAt framing channel hphase
    obtain ⟨channel', hbefore⟩ := hlive openedAt framing channel hphase
    obtain ⟨edges, since, hcurrent, hdelivers⟩ := h.live openedAt framing channel' hbefore
    refine ⟨edges, since ++ [step], ?_, ?_⟩
    · rw [currentEdges?_unsupplied history hsupplied, hcurrent]
      rfl
    · refine ⟨hdelivers.edges_eq, hdelivers.edgeColumns_eq, hdelivers.resendEdges_eq, ?_, ?_⟩
      · simpa [hsettles] using hdelivers.pending_eq
      · simpa [LastFramed, htaken] using hdelivers.last

/-- A step that hands a table over, of which a frame is then owed. -/
theorem Delivery.supplied (h : Delivery options history session)
    (hsupplied : step.suppliedEdges? = some edges) (htaken : step.takenFrames .edges = [])
    (hoptions : next.options = session.options) (hcount : next.edgeFrames = session.edgeFrames)
    (hlive : ∀ openedAt framing channel, next.phase = .live openedAt framing channel →
      framing.edges = edges ∧ framing.edgeColumns = options.edgeColumns ∧
        framing.resendEdges = options.resendEdges ∧ framing.edgesPending = true) :
    Delivery options (history ++ [step]) next := by
  have hcurrent : currentEdges? (history ++ [step]) = some (edges, []) :=
    currentEdges?_supplied history hsupplied
  refine ⟨hoptions.trans h.options_eq, ?_, ?_, ?_⟩
  · rw [hcount, h.edgeFrames_eq]
    simp [htaken]
  · intro edges' since hcurrent' _
    rw [hcurrent] at hcurrent'
    cases hcurrent'
    exact Nat.zero_le 1
  · intro openedAt framing channel hphase
    obtain ⟨hedges, hcolumns, hresend, hpending⟩ := hlive openedAt framing channel hphase
    refine ⟨edges, [], hcurrent, hedges, hcolumns, hresend, hpending, ?_⟩
    intro hsettled
    rw [hpending] at hsettled
    cases hsettled

/-- A batch tries to deliver the table that is owed. -/
theorem Delivers.settles (h : Delivers options history since edges framing)
    (hnamed : framing.Named) {contacts : List Contact} {settled : Framing}
    (hsettles : framing.Settles contacts settled)
    (htaken : step.takenFrames .edges = contacts.filterMap Contact.taken?)
    (hskipped : step.skippedEdges = settled.framesSkipped - framing.framesSkipped) :
    Delivers options (history ++ [step]) (since ++ [step]) edges settled := by
  obtain ⟨hedges, hcolumns, hresend, hpending, hlast⟩ := h
  cases hsettles with
  | notOwed hnot =>
      have hquiet : step.settlesEdges = false := by simp [Step.settlesEdges, htaken, hskipped]
      refine ⟨hedges, hcolumns, hresend, by simpa [hquiet] using hpending, ?_⟩
      simpa [LastFramed, htaken] using hlast
  | @taken wire howed hwire =>
      have hsettled : step.settlesEdges = true := by
        simp [Step.settlesEdges, htaken, Contact.taken?]
      refine ⟨hedges, hcolumns, hresend, by simp [hsettled], fun _ _ _ _ => ?_⟩
      refine ⟨wire, UInt64.ofNat framing.iteration, ?_, ?_⟩
      · simp [htaken, Contact.taken?]
      · rw [← hedges, ← hcolumns]
        exact hnamed.framedAs hwire
  | @lost wire reason howed hwire =>
      have hquiet : step.settlesEdges = false := by
        simp [Step.settlesEdges, htaken, hskipped, Contact.taken?]
      have hnone : step.takenFrames .edges = [] := htaken
      refine ⟨hedges, hcolumns, hresend, by simpa [hquiet] using hpending, ?_⟩
      simpa [LastFramed, hnone] using hlast
  | @skipped error howed hwire =>
      have hsettled : step.settlesEdges = true := by simp [Step.settlesEdges, hskipped]
      refine ⟨hedges, hcolumns, hresend, by simp [hsettled], fun _ iteration wire hencode => ?_⟩
      rw [← hedges, ← hcolumns] at hencode
      obtain ⟨wire', hwire'⟩ := exists_encodeColumns hencode (UInt64.ofNat framing.iteration)
      rw [Framing.edgeFrame_eq] at hwire
      exact absurd (hwire.symm.trans hwire') (by simp)

theorem Delivers.advances {settled next : Framing} {positions : Positions} {nodes : List Contact}
    (h : Delivers options history since edges settled)
    (hadvances : settled.Advances positions nodes next) :
    Delivers options history since edges next := by
  obtain ⟨hedges, hcolumns, hresend, hpending, hlast⟩ := h
  cases hadvances with
  | offered _ => exact ⟨hedges, hcolumns, hresend, hpending, hlast⟩
  | skipped _ => exact ⟨hedges, hcolumns, hresend, hpending, hlast⟩

end Steps

section Runs

variable {options : SessionOptions} {history : List (Step (Observed τ))}
  {session : Session (Observed τ)}

theorem Delivery.same (h : Delivery options history session) {call : Call (Observed τ)}
    (hsupplied : (Step.mk session call).suppliedEdges? = none)
    (hcontacts : (Step.mk session call).contacts = [])
    (hafter : (Step.mk session call).after = session) :
    Delivery options (history ++ [⟨session, call⟩]) session := by
  have hskipped : (Step.mk session call).skippedEdges = 0 := by
    apply Step.skippedEdges_eq_zero
    rw [hafter]
  refine h.quiet hsupplied (Step.takenFrames_of_contacts_eq_nil hcontacts) hskipped rfl rfl ?_
  intro openedAt framing channel hphase
  exact ⟨channel, hphase⟩

theorem Delivery.closing (h : Delivery options history session) {next : Session (Observed τ)}
    {now : Instant} {summary : Summary} {contacts : List Contact} {call : Call (Observed τ)}
    (hclosing : Closing session now summary contacts next)
    (hafter : (Step.mk session call).after = next)
    (hsupplied : (Step.mk session call).suppliedEdges? = none)
    (htaken : (Step.mk session call).takenFrames .edges = []) :
    Delivery options (history ++ [⟨session, call⟩]) next := by
  have hskipped : (Step.mk session call).skippedEdges = 0 := by
    apply Step.skippedEdges_eq_zero
    rw [hafter, hclosing.framesSkipped_eq]
  refine h.quiet hsupplied htaken hskipped hclosing.options_eq hclosing.edgeFrames_eq ?_
  intro openedAt framing channel hphase
  obtain ⟨last, hclosed⟩ := hclosing.phase_eq
  rw [hclosed] at hphase
  cases hphase

theorem Delivery.streamed {openedAt : Instant} {framing settled next : Framing}
    {channel later : Channel (Observed τ)} {buffer : PositionBuffer} {positions : Positions}
    {edges nodes : List Contact}
    (h : Delivery options history ⟨options, .live openedAt framing channel⟩)
    (hnamed : framing.Named) (hsettles : framing.Settles edges settled)
    (hadvances : settled.Advances positions nodes next)
    (hcontacts : (Step.mk ⟨options, .live openedAt framing channel⟩ (.iterate buffer)).contacts =
      edges ++ nodes)
    (hafter : (Step.mk ⟨options, .live openedAt framing channel⟩ (.iterate buffer)).after =
      ⟨options, .live openedAt next later⟩) :
    Delivery options (history ++ [⟨⟨options, .live openedAt framing channel⟩, .iterate buffer⟩])
      ⟨options, .live openedAt next later⟩ := by
  obtain ⟨hedges, hnodes⟩ := Step.frames_streamed hnamed hsettles hadvances hcontacts
  have htaken : (Step.mk ⟨options, .live openedAt framing channel⟩
      (.iterate buffer)).takenFrames .edges = edges.filterMap Contact.taken? := by
    rw [Step.takenFrames, hedges]
  have hskipped := Step.skippedEdges_streamed hadvances hnodes hafter
  have hsupplied : (Step.mk ⟨options, .live openedAt framing channel⟩
      (.iterate buffer)).suppliedEdges? = none := rfl
  obtain ⟨current, since, hcurrent, hdelivers⟩ := h.live openedAt framing channel rfl
  have hcurrent' := currentEdges?_unsupplied history hsupplied
  rw [hcurrent, Option.map_some] at hcurrent'
  refine ⟨rfl, ?_, ?_, ?_⟩
  · have hcount := h.edgeFrames_eq
    simp only [edgeFrames] at hcount ⊢
    rw [hadvances.edgeFrames_eq, hsettles.edgeFrames_eq, hcount]
    simp [htaken]
  · intro current' since' heq hresend
    rw [hcurrent'] at heq
    obtain ⟨rfl, rfl⟩ := Prod.mk.inj (Option.some.inj heq)
    have hearlier := h.once _ _ hcurrent hresend
    have hbound := hsettles.taken_length
    simp only [List.flatMap_append, List.flatMap_singleton, List.length_append, htaken]
    -- Either nothing was taken since the table was handed over, or nothing is owed any more.
    cases hpending : framing.edgesPending with
    | true =>
        rw [takenFrames_eq_nil_of_pending hdelivers hpending, List.length_nil, Nat.zero_add]
        exact hbound.trans (by split_ifs <;> omega)
    | false =>
        have howed : framing.owesEdges = false := by
          rw [Framing.owesEdges, hpending, hdelivers.resendEdges_eq, hresend, Bool.or_false]
        rw [howed, if_neg Bool.false_ne_true] at hbound
        omega
  · intro openedAt' framing' channel' hphase
    injection hphase with _ hframing _
    subst hframing
    exact ⟨current, since ++ [_], hcurrent', (hdelivers.settles hnamed hsettles htaken
      hskipped).advances hadvances⟩

/-- In every run the edge table handed over last is delivered once it is not owed any more. -/
theorem Run.delivery (h : Run options history session) : Delivery options history session := by
  induction h with
  | first =>
      refine ⟨rfl, rfl, ?_, ?_⟩
      · intro edges since hcurrent
        cases hcurrent
      · intro openedAt framing channel hphase
        cases hphase
  | @step history session next call reply contacts run effect hreply hcontacts hafter ih =>
      cases effect with
      | @started options' now graph mapper channel framing hstart =>
          obtain ⟨rfl, -⟩ := Framing.start_eq_ok_iff.mp hstart
          have hoptions : options' = options := ih.options_eq
          have hsupplied : (Step.mk ⟨options', .unopened⟩
              (.start now graph mapper channel)).suppliedEdges? = some graph.edges := by
            simp only [Step.suppliedEdges?, hreply]
          refine ih.supplied hsupplied rfl rfl rfl ?_
          intro openedAt framing channel hphase
          injection hphase with _ hframing _
          subst hframing
          rw [← hoptions]
          exact ⟨rfl, rfl, rfl, rfl⟩
      | notStarted =>
          exact ih.same (Step.suppliedEdges?_of_failed (by rw [hreply]; trivial)) hcontacts hafter
      | streamed named hbatch settles advances counted =>
          obtain rfl := ih.options_eq
          exact ih.streamed named settles advances hcontacts hafter
      | @updated options' openedAt framing channel later payload answer counted =>
          have hskipped : (Step.mk ⟨options', .live openedAt framing channel⟩
              (.update payload)).skippedEdges = 0 := by
            apply Step.skippedEdges_eq_zero
            rw [hafter]
            rfl
          refine ih.quiet rfl rfl hskipped rfl rfl ?_
          intro openedAt' framing' channel' hphase
          cases hphase
          exact ⟨channel, rfl⟩
      | @refreshed options' openedAt framing next channel edges hrefresh =>
          obtain ⟨rfl, -⟩ := Framing.refreshEdges_eq_ok hrefresh
          obtain ⟨current, since, -, hdelivers⟩ := ih.live openedAt framing channel rfl
          have hsupplied : (Step.mk ⟨options', .live openedAt framing channel⟩
              (.refreshEdges edges)).suppliedEdges? = some edges := by
            simp only [Step.suppliedEdges?, hreply]
          refine ih.supplied hsupplied rfl rfl rfl ?_
          intro openedAt' framing' channel' hphase
          cases hphase
          exact ⟨rfl, hdelivers.edgeColumns_eq, hdelivers.resendEdges_eq, rfl⟩
      | failed hfailed =>
          have hreplied := hfailed.failed
          rw [← hreply] at hreplied
          exact ih.same (Step.suppliedEdges?_of_failed hreplied) hcontacts hafter
      | tornDown closing => exact ih.closing closing hafter rfl rfl
      | closed closing => exact ih.closing closing hafter rfl rfl

end Runs

/-- Whatever is called and whatever the transport answers, with a channel that has no transport
counted as one that takes nothing: a batch puts an edge frame to the transport, or skips it for want
of a wire form, exactly if edges are sent again with every batch or none was taken or skipped since
an edge table was last handed over. The frame is of that table and of the iteration of the batch, so
unless edges are sent again at most one of each table is taken. The session counts those taken, and
once none is owed the last one taken is of the table handed over last, if that has a wire form. -/
theorem edges_delivered (options : SessionOptions) (calls : List (Call τ)) :
    let history := watched options calls
    let session : Session (Observed (Endpoint τ)) := (new options).after (calls.map Call.watch)
    Watches history ((new options).steps calls) ∧
    session.edgeFrames = (history.flatMap (Step.takenFrames .edges)).length ∧
    (∀ edges since, currentEdges? history = some (edges, since) → options.resendEdges = false →
      (since.flatMap (Step.takenFrames .edges)).length ≤ 1) ∧
    (∀ buffer, (Step.mk session (.iterate buffer)).streamed = true →
      ∃ edges since, currentEdges? history = some (edges, since) ∧
        ((Step.mk session (.iterate buffer)).frames .edges).length +
            (Step.mk session (.iterate buffer)).skippedEdges =
          (if options.resendEdges || !since.any Step.settlesEdges then 1 else 0) ∧
        ∀ contact ∈ (Step.mk session (.iterate buffer)).frames .edges,
          ∃ wire answer, contact = .offer wire answer ∧
            edges.FramedAs options.edgeColumns (UInt64.ofNat session.iteration) wire) ∧
    (∀ openedAt framing channel, session.phase = .live openedAt framing channel →
      ∃ edges since, currentEdges? history = some (edges, since) ∧
        (framing.edgesPending = false →
          ∀ iteration wire, (edges.framed options.edgeColumns).encode .edges iteration = .ok wire →
            LastFramed history edges options.edgeColumns)) := by
  intro history session
  obtain ⟨hsound, hrun⟩ := run_watched options calls
  have hdelivery := hrun.delivery
  refine ⟨watches_watched options calls, hdelivery.edgeFrames_eq, hdelivery.once, ?_, ?_⟩
  · intro buffer hstreamed
    obtain ⟨openedAt, framing, channel, positions, edges, nodes, settled, next, hphase, hnamed,
      -, hsettles, -, hedges, -, hskipped⟩ := hsound.batch hstreamed
    obtain ⟨current, since, hcurrent, hdelivers⟩ := hdelivery.live _ _ _ hphase
    have howes : framing.owesEdges = (options.resendEdges || !since.any Step.settlesEdges) := by
      rw [Framing.owesEdges, hdelivers.pending_eq, hdelivers.resendEdges_eq, Bool.or_comm]
    have hiteration : session.iteration = framing.iteration := by
      simp only [session, iteration, hphase]
    refine ⟨current, since, hcurrent, ?_, ?_⟩
    · obtain ⟨hmore, hattempts⟩ := hsettles.attempts
      rw [howes] at hattempts
      rw [hedges, hskipped]
      omega
    · intro contact hcontact
      rw [hedges] at hcontact
      obtain ⟨wire, answer, rfl, hwire⟩ := hsettles.offer_eq contact hcontact
      refine ⟨wire, answer, rfl, ?_⟩
      rw [hiteration, ← hdelivers.edges_eq, ← hdelivers.edgeColumns_eq]
      exact hnamed.framedAs hwire
  · intro openedAt framing channel hphase
    obtain ⟨current, since, hcurrent, hdelivers⟩ := hdelivery.live _ _ _ hphase
    exact ⟨current, since, hcurrent, hdelivers.last⟩

/-- The edge frame is lost with the first batch and taken with the second, so the third sends
none. -/
theorem edges_delivered_late :
    let nodes : NodeTable := ⟨[("id", .int [7]), ("color", .int [0]), ("size", .int [1])], 1⟩
    let edges : EdgeTable := ⟨[("edge", .int [4]), ("bundle", .int [0]), ("color", .int [2])], 1⟩
    let answers : List SendResult :=
      [.dropped .wouldBlock, .delivered, .delivered, .dropped .wouldBlock, .delivered]
    let options : SessionOptions := ⟨["id", "x"], ["edge"], false, 500⟩
    let calls : List (Call Scripted) :=
      [.start .epoch ⟨nodes, edges⟩ .standard (.onto (.ofAnswers answers [])),
        .iterate (.columnar [5] [6]), .iterate (.columnar [8] [9])]
    let history := watched options calls
    let session : Session (Observed (Endpoint Scripted)) :=
      (new options).after (calls.map Call.watch)
    let third : Step (Observed (Endpoint Scripted)) := ⟨session, .iterate (.columnar [1] [2])⟩
    (currentEdges? history).isSome = true ∧
    third.streamed = true ∧ (third.frames .edges).length + third.skippedEdges = 0 ∧
    (∀ current since, currentEdges? history = some (current, since) →
      (since.flatMap (Step.takenFrames .edges)).length ≤ 1) ∧
    LastFramed history edges ["edge"] := by
  intro nodes edges answers options calls history session third
  obtain ⟨-, -, honce, hbatch, hlast⟩ := edges_delivered options calls
  have hstreamed : third.streamed = true := by
    decide +kernel +zetaReduce
  have hcurrent : (currentEdges? history).map (fun current =>
      (current.1, current.2.any Step.settlesEdges)) = some (edges, true) := by
    decide +kernel +zetaReduce
  have hlive : session.state = .live := by
    decide +kernel +zetaReduce
  have hdue : third.edgesDue = false := by
    decide +kernel +zetaReduce
  obtain ⟨⟨current, since⟩, hfound, hpair⟩ := Option.map_eq_some_iff.mp hcurrent
  obtain ⟨rfl, hsettled⟩ := Prod.mk.inj hpair
  refine ⟨by rw [hfound]; rfl, hstreamed, ?_, fun current since h => honce current since h rfl, ?_⟩
  · obtain ⟨current', since', hfound', hattempts, -⟩ := hbatch _ hstreamed
    obtain ⟨rfl, rfl⟩ := Prod.mk.inj (Option.some.inj (hfound.symm.trans hfound'))
    rw [hsettled] at hattempts
    exact hattempts
  · cases hphase : session.phase with
    | live openedAt framing channel =>
        have howed : framing.owesEdges = false := by
          simpa [Step.edgesDue, hstreamed, third, hphase] using hdue
        obtain ⟨hpending, -⟩ := Bool.or_eq_false_iff.mp howed
        obtain ⟨current', since', hfound', hframed⟩ := hlast _ _ _ hphase
        obtain ⟨rfl, rfl⟩ := Prod.mk.inj (Option.some.inj (hfound.symm.trans hfound'))
        exact hframed hpending 0 _ rfl
    | _ => simp [state, hphase] at hlive

end Session

end LiveLayout
