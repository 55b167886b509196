import LiveLayout.Channel.Scripted
import LiveLayout.Proofs.Session.Transition

/-!
# Stream order

Batches are numbered by those streamed before them. One that is refused leaves the transport alone,
and any other puts frames of its own number to it, the edge frame in front, so the iterations of
the node frames that a transport takes only ever grow.
-/

namespace LiveLayout

/-- A payload is read as a frame of a kind. -/
def FrameOf (kind : FrameKind) (payload : Bytes) : Prop :=
  ∃ iteration table, Message.decode payload = .ok (.frame ⟨kind, iteration, table⟩)

/-- The iteration of a payload that is read as a node frame. -/
def nodeIteration? (payload : Bytes) : Option UInt64 :=
  match Message.decode payload with
  | .ok (.frame ⟨.nodes, iteration, _⟩) => some iteration
  | _ => none

namespace Contact

/-- The iteration of the node frame that the transport took, if the contact is one. -/
def acceptedNode? (contact : Contact) : Option UInt64 := contact.taken?.bind nodeIteration?

theorem Carries.of_taken {kind : FrameKind} {k : Nat} {contact : Contact} {payload : Bytes}
    (h : contact.Carries kind k) (htaken : contact.taken? = some payload) :
    ∃ table, Message.decode payload = .ok (.frame ⟨kind, UInt64.ofNat k, table⟩) := by
  obtain ⟨wire, answer, table, rfl, hdecode⟩ := h
  cases answer with
  | delivered =>
      obtain rfl := Option.some.inj htaken
      exact ⟨table, hdecode⟩
  | dropped reason => cases htaken

theorem Carries.acceptedNode?_edges {k : Nat} {contact : Contact}
    (h : contact.Carries .edges k) : contact.acceptedNode? = none := by
  cases htaken : contact.taken? with
  | none => rw [acceptedNode?, htaken, Option.bind_none]
  | some payload =>
      obtain ⟨table, hdecode⟩ := h.of_taken htaken
      simp only [acceptedNode?, htaken, Option.bind_some, nodeIteration?, hdecode]

theorem Carries.acceptedNode?_nodes {k : Nat} {contact : Contact}
    (h : contact.Carries .nodes k) :
    contact.acceptedNode? = none ∨ contact.acceptedNode? = some (UInt64.ofNat k) := by
  cases htaken : contact.taken? with
  | none => exact .inl (by rw [acceptedNode?, htaken, Option.bind_none])
  | some payload =>
      obtain ⟨table, hdecode⟩ := h.of_taken htaken
      exact .inr (by simp only [acceptedNode?, htaken, Option.bind_some, nodeIteration?, hdecode])

theorem Carries.kind_eq {kind other : FrameKind} {k : Nat} {contact : Contact} {payload : Bytes}
    (h : contact.Carries kind k) (htaken : contact.taken? = some payload)
    (hframe : FrameOf other payload) : other = kind := by
  obtain ⟨table, hdecode⟩ := h.of_taken htaken
  obtain ⟨iteration, table', hdecode'⟩ := hframe
  rw [hdecode] at hdecode'
  cases hdecode'
  rfl

end Contact

/-- The node frame of the batch of a step has no wire form. -/
def Step.LacksNodeFrame {τ : Type} (step : Step τ) : Prop :=
  ∃ openedAt framing channel buffer positions error,
    step.before.phase = .live openedAt framing channel ∧ step.call = .iterate buffer ∧
      framing.batch buffer = .ok positions ∧ framing.nodeFrame positions = .error error

namespace Session

variable {τ : Type} [Transport τ]

/-- A batch is streamed by a live session whose framing accepts it. -/
theorem Transition.of_streamed {session next : Session τ} {call : Call τ} {reply : Reply τ}
    (h : Transition session call reply next) (hstreamed : reply.streamed = true) :
    ∃ openedAt framing channel buffer positions,
      session.phase = .live openedAt framing channel ∧ call = .iterate buffer ∧ framing.Named ∧
        framing.batch buffer = .ok positions ∧
        next.phase = .live openedAt (framing.invoke buffer channel).2.1
          (framing.invoke buffer channel).2.2 := by
  cases h with
  | iterated named h => exact ⟨_, _, _, _, _, rfl, rfl, named, h, rfl⟩
  | _ => simp [Reply.streamed] at hstreamed

theorem Transition.of_refusedBatch {session next : Session τ} {call : Call τ} {reply : Reply τ}
    (h : Transition session call reply next) (hrefused : reply.refusedBatch = true) :
    next = session := by
  cases h with
  | notIterated h => rfl
  | _ => simp [Reply.refusedBatch] at hrefused

theorem Transition.streamed_or_refusedBatch {session next : Session τ} {buffer : PositionBuffer}
    {reply : Reply τ} (h : Transition session (.iterate buffer) reply next) :
    reply.streamed = true ∨ reply.refusedBatch = true := by
  cases h with
  | iterated named h => exact .inl rfl
  | notIterated h => exact .inr rfl

end Session

namespace Step

variable {τ : Type} [Transport τ]

/-- What a step that streams batch `k` puts to the transport: at most an edge frame and behind it
at most a node frame, both of iteration `k`. -/
structure Sends (step : Step (Observed τ)) (k : Nat) (edges nodes : List Contact) : Prop where
  contacts_eq : step.contacts = edges ++ nodes
  edges_length : edges.length ≤ 1
  nodes_length : nodes.length ≤ 1
  edges_carry : ∀ contact ∈ edges, contact.Carries .edges k
  nodes_carry : ∀ contact ∈ nodes, contact.Carries .nodes k

/-- The iterations of the node frames that the transport took from a batch. -/
def acceptedNodes (step : Step (Observed τ)) : List UInt64 :=
  match step.call with
  | .iterate _ => step.contacts.filterMap Contact.acceptedNode?
  | _ => []

theorem contacts_of_refusedBatch {step : Step (Observed τ)} (hnamed : step.before.Named)
    (h : step.reply.refusedBatch = true) : step.contacts = [] := by
  have hsame : step.after = step.before := (hnamed.transition step.call).of_refusedBatch h
  rw [contacts, hsame, List.drop_length]

theorem live_of_streamed {step : Step (Observed τ)} (hnamed : step.before.Named)
    (h : step.streamed = true) : step.before.state = .live := by
  obtain ⟨openedAt, framing, channel, buffer, positions, hphase, -⟩ :=
    (hnamed.transition step.call).of_streamed h
  simp only [Session.state, hphase]

theorem sends_of_streamed {step : Step (Observed τ)} (hnamed : step.before.Named)
    (h : step.streamed = true) :
    ∃ edges nodes, step.Sends step.before.iteration edges nodes ∧
      (step.before.channel.isClosed = false → nodes = [] → step.LacksNodeFrame) := by
  obtain ⟨openedAt, framing, channel, buffer, positions, hphase, hcall, hframing, hbatch, hafter⟩ :=
    (hnamed.transition step.call).of_streamed h
  have hbefore : step.before.journal = channel.journal := by
    simp only [Session.journal, Session.channel, hphase]
  have hjournal : step.after.journal = (framing.invoke buffer channel).2.2.journal := by
    simp only [Session.journal, Session.channel, after, hafter]
  have hiteration : step.before.iteration = framing.iteration := by
    simp only [Session.iteration, hphase]
  rw [hiteration]
  refine ⟨framing.edgeContacts channel,
    framing.nodeContacts positions (framing.settleEdges channel).2, ⟨?_, ?_, ?_, ?_, ?_⟩, ?_⟩
  · rw [contacts, hjournal, hbefore, hframing.journal_invoke hbatch, List.drop_left]
  · exact framing.edgeContacts_length channel
  · exact framing.nodeContacts_length positions _
  · exact hframing.edgeContacts_carry channel
  · exact hframing.nodeContacts_carry positions _
  · intro hattached hnone
    have hopen : (framing.settleEdges channel).2.isClosed = false := by
      rw [framing.isClosed_settleEdges channel]
      simpa only [Session.channel, hphase] using hattached
    obtain ⟨error, herror⟩ := Framing.nodeContacts_eq_nil hopen hnone
    exact ⟨openedAt, framing, channel, buffer, positions, error, hphase, hcall, hbatch, herror⟩

theorem Sends.acceptedNode? {step : Step (Observed τ)} {k : Nat} {edges nodes : List Contact}
    (h : step.Sends k edges nodes) :
    step.contacts.filterMap Contact.acceptedNode? = [] ∨
      step.contacts.filterMap Contact.acceptedNode? = [UInt64.ofNat k] := by
  have hedges : edges.filterMap Contact.acceptedNode? = [] :=
    List.filterMap_eq_nil_iff.mpr fun contact hcontact =>
      (h.edges_carry contact hcontact).acceptedNode?_edges
  rw [h.contacts_eq, List.filterMap_append, hedges, List.nil_append]
  match nodes, h.nodes_length, h.nodes_carry with
  | [], _, _ => exact .inl rfl
  | [contact], _, hcarry =>
      rcases (hcarry contact List.mem_cons_self).acceptedNode?_nodes with hnone | hsome
      · exact .inl (by simp [hnone])
      · exact .inr (by simp [hsome])

/-- An edge frame and a node frame taken from one batch are all that was taken from it. -/
theorem Sends.taken_eq {step : Step (Observed τ)} {k : Nat} {edges nodes : List Contact}
    (h : step.Sends k edges nodes) {edge node : Bytes}
    (hedge : edge ∈ step.contacts.filterMap Contact.taken?) (hedgeFrame : FrameOf .edges edge)
    (hnode : node ∈ step.contacts.filterMap Contact.taken?) (hnodeFrame : FrameOf .nodes node) :
    step.contacts.filterMap Contact.taken? = [edge, node] := by
  rw [h.contacts_eq, List.filterMap_append] at hedge hnode ⊢
  have hedgeMem : edge ∈ edges.filterMap Contact.taken? := by
    rcases List.mem_append.mp hedge with hmem | hmem
    · exact hmem
    · obtain ⟨contact, hcontact, htaken⟩ := List.mem_filterMap.mp hmem
      cases (h.nodes_carry contact hcontact).kind_eq htaken hedgeFrame
  have hnodeMem : node ∈ nodes.filterMap Contact.taken? := by
    rcases List.mem_append.mp hnode with hmem | hmem
    · obtain ⟨contact, hcontact, htaken⟩ := List.mem_filterMap.mp hmem
      cases (h.edges_carry contact hcontact).kind_eq htaken hnodeFrame
    · exact hmem
  have hsingle : ∀ {contacts : List Contact} {payload : Bytes}, contacts.length ≤ 1 →
      payload ∈ contacts.filterMap Contact.taken? →
      contacts.filterMap Contact.taken? = [payload] := by
    intro contacts payload hlength hmem
    match hlist : contacts.filterMap Contact.taken?, hmem with
    | [taken], hmem => rw [List.mem_singleton.mp hmem]
    | first :: second :: rest, _ =>
        have hle := (List.length_filterMap_le Contact.taken? contacts).trans hlength
        rw [hlist, List.length_cons, List.length_cons] at hle
        omega
  rw [hsingle h.edges_length hedgeMem, hsingle h.nodes_length hnodeMem]
  rfl

/-- A step adds at most the iteration of the batch that it streams. -/
theorem acceptedNodes_cases (step : Step (Observed τ)) (hnamed : step.before.Named) :
    step.acceptedNodes = [] ∨
      step.streamed = true ∧ step.acceptedNodes = [UInt64.ofNat step.before.iteration] := by
  rcases step with ⟨session, call⟩
  cases call with
  | iterate buffer =>
      rcases (hnamed.transition (.iterate buffer)).streamed_or_refusedBatch with h | h
      · obtain ⟨edges, nodes, hsends, -⟩ := sends_of_streamed hnamed h
        rcases hsends.acceptedNode? with hnone | hsome
        · exact .inl hnone
        · exact .inr ⟨h, hsome⟩
      · have hcontacts := contacts_of_refusedBatch hnamed h
        exact .inl (by simp only [acceptedNodes, hcontacts, List.filterMap_nil])
  | _ => exact .inl rfl

end Step

namespace Session

variable {τ : Type} [Transport τ]

/-- The iterations that a transport takes are some of those streamed, in order. -/
theorem Named.acceptedNodes_steps {session : Session (Observed τ)} (hnamed : session.Named)
    (calls : List (Call (Observed τ))) :
    ∃ ks : List Nat,
      ks.Sublist (List.range' session.iteration
        ((session.steps calls).filter Step.streamed).length) ∧
      (session.steps calls).flatMap Step.acceptedNodes = ks.map UInt64.ofNat := by
  induction calls generalizing session with
  | nil => exact ⟨[], List.nil_sublist _, rfl⟩
  | cons call rest ih =>
      obtain ⟨ks, hsublist, hks⟩ := ih (hnamed.perform call)
      have hcount := (hnamed.transition call).iteration_eq
      have haccepted := Step.acceptedNodes_cases ⟨session, call⟩ hnamed
      rw [Session.steps, List.flatMap_cons, hks]
      by_cases hstreamed : (session.perform call).1.streamed = true
      · have hhead : (Step.mk session call).streamed = true := hstreamed
        rw [if_pos hstreamed] at hcount
        rw [hcount] at hsublist
        rw [List.filter_cons_of_pos hhead, List.length_cons, List.range'_succ]
        rcases haccepted with hnone | ⟨-, hsome⟩
        · exact ⟨ks, hsublist.cons _, by rw [hnone, List.nil_append]⟩
        · exact ⟨session.iteration :: ks, hsublist.cons_cons _, by rw [hsome]; rfl⟩
      · have hhead : ¬ (Step.mk session call).streamed = true := hstreamed
        rw [if_neg hstreamed, Nat.add_zero] at hcount
        rw [hcount] at hsublist
        rw [List.filter_cons_of_neg hhead]
        rcases haccepted with hnone | ⟨hpos, -⟩
        · exact ⟨ks, hsublist, by rw [hnone, List.nil_append]⟩
        · exact absurd hpos hhead

omit [Transport τ] in
theorem bringsClosed_observe {call : Call τ} : call.observe.BringsClosed ↔ call.BringsClosed := by
  cases call with
  | start now graph mapper channel =>
      simp only [Call.observe, Call.BringsClosed, Channel.isClosed_observe]
  | _ => rfl

/-- Where no call brings a closed channel, a live session always has a transport. -/
theorem attached_steps {options : SessionOptions} {calls : List (Call τ)}
    (h : ¬ ∃ call ∈ calls, call.BringsClosed) :
    ∀ step ∈ (new options : Session (Observed τ)).steps (calls.map Call.observe),
      step.before.Attached := by
  intro step hstep
  have hfirst : (new options : Session (Observed τ)).Named ∧
      (new options : Session (Observed τ)).Attached := ⟨named_new options, fun h => nomatch h⟩
  refine (steps_invariant (P := fun session => session.Named ∧ session.Attached) hfirst ?_ step
    hstep).2.2
  rintro session _ hcall ⟨hnamed, hattached⟩
  obtain ⟨call, hmem, rfl⟩ := List.mem_map.mp hcall
  refine ⟨hnamed.perform _, (hnamed.transition _).attached ?_ hattached⟩
  intro hclosed
  apply h
  exact ⟨call, hmem, bringsClosed_observe.mp hclosed⟩

/-- The payloads that the transport took, in order. -/
def taken (session : Session (Observed τ)) : List Bytes :=
  session.journal.filterMap Contact.taken?

/-- What is taken in one step stays together among what is taken in all of them. -/
theorem Named.taken_split {session : Session (Observed τ)} (hnamed : session.Named)
    {calls : List (Call (Observed τ))} {step : Step (Observed τ)}
    (hstep : step ∈ session.steps calls) :
    ∃ before behind, (session.after calls).taken =
      before ++ (step.contacts.filterMap Contact.taken? ++ behind) := by
  obtain ⟨earlier, later, hsplit⟩ := List.append_of_mem hstep
  refine ⟨(session.journal ++ earlier.flatMap Step.contacts).filterMap Contact.taken?,
    (later.flatMap Step.contacts).filterMap Contact.taken?, ?_⟩
  calc (session.after calls).taken
      = (session.journal ++ (earlier ++ step :: later).flatMap Step.contacts).filterMap
          Contact.taken? := by rw [taken, hnamed.journal_after, hsplit]
    _ = _ := by
      simp only [List.flatMap_append, List.flatMap_cons, List.filterMap_append, List.append_assoc]

/-- Numbers that fit a word grow as words when they grow. -/
theorem pairwise_map_ofNat {ks : List Nat} {count : Nat} (hincreasing : ks.Pairwise (· < ·))
    (hbounded : ∀ k ∈ ks, k < count) (hcount : count ≤ UInt64.size) :
    (ks.map UInt64.ofNat).Pairwise (· < ·) := by
  rw [List.pairwise_map]
  apply hincreasing.imp_of_mem
  intro j k hj hk hlt
  have hword : ∀ n ∈ ks, (UInt64.ofNat n).toNat = n := by
    intro n hn
    exact UInt64.toNat_ofNat_of_lt' ((hbounded n hn).trans_le hcount)
  rw [UInt64.lt_iff_toNat_lt, hword j hj, hword k hk]
  exact hlt

/-- Batch `k` of those streamed sends frames of iteration `k`. -/
theorem sends_of_getElem? {options : SessionOptions} {calls : List (Call τ)} {k : Nat}
    {step : Step (Observed τ)}
    (h : (((new options : Session (Observed τ)).steps (calls.map Call.observe)).filter
      Step.streamed)[k]? = some step) :
    ∃ edges nodes, step.Sends k edges nodes ∧
      (nodes = [] → step.LacksNodeFrame ∨
        step.before.channel.isClosed = true ∧ ∃ call ∈ calls, call.BringsClosed) := by
  have hfirst : (new options : Session (Observed τ)).Named := named_new options
  obtain ⟨hstep, hstreamed⟩ := List.mem_filter.mp (List.mem_of_getElem? h)
  have hnamed := hfirst.steps _ step hstep
  have hiteration : step.before.iteration = k :=
    (hfirst.iteration_steps _ k step h).trans (Nat.zero_add k)
  obtain ⟨edges, nodes, hsends, hlacks⟩ := Step.sends_of_streamed hnamed hstreamed
  refine ⟨edges, nodes, hiteration ▸ hsends, ?_⟩
  intro hnone
  by_cases hclosed : step.before.channel.isClosed = true
  · right
    refine ⟨hclosed, ?_⟩
    by_contra hbrought
    have hlive := Step.live_of_streamed hnamed hstreamed
    rw [attached_steps hbrought step hstep hlive] at hclosed
    cases hclosed
  · left
    exact hlacks (Bool.eq_false_iff.mpr hclosed) hnone

/-- Whatever is called in whatever order and whatever the transport answers: a batch that is
refused puts nothing to the transport. Batch `k` of those streamed puts at most an edge frame and
then at most a node frame to it, both of iteration `k`, and lacks the node frame only if that has
no wire form or there was no transport to begin with. So the iterations of the node frames that the
transport takes from batches grow strictly, and an edge frame it takes stands right in front of the
node frame it takes from the same batch. -/
theorem stream_order (options : SessionOptions) (calls : List (Call τ)) :
    let first : Session (Observed τ) := .new options
    let observed := calls.map Call.observe
    let steps := first.steps observed
    let streamed := steps.filter Step.streamed
    steps.map (Step.map Observed.transport) = (Session.new options).steps calls ∧
    (∀ step ∈ steps, step.reply.refusedBatch = true → step.contacts = []) ∧
    (∀ (k : Nat) (step : Step (Observed τ)), streamed[k]? = some step →
      ∃ edges nodes, step.Sends k edges nodes ∧
        (nodes = [] → step.LacksNodeFrame ∨
          step.before.channel.isClosed = true ∧ ∃ call ∈ calls, call.BringsClosed)) ∧
    (first.after observed).journal = steps.flatMap Step.contacts ∧
    (∃ ks : List Nat, ks.Pairwise (· < ·) ∧ (∀ k ∈ ks, k < streamed.length) ∧
      steps.flatMap Step.acceptedNodes = ks.map UInt64.ofNat) ∧
    (streamed.length ≤ UInt64.size → (steps.flatMap Step.acceptedNodes).Pairwise (· < ·)) ∧
    (∀ step ∈ streamed, ∀ edge ∈ step.contacts.filterMap Contact.taken?,
      ∀ node ∈ step.contacts.filterMap Contact.taken?, FrameOf .edges edge → FrameOf .nodes node →
        ∃ before behind, (first.after observed).taken = before ++ edge :: node :: behind) := by
  intro first observed steps streamed
  have hfirst : first.Named := named_new options
  obtain ⟨ks, hsublist, hks⟩ := hfirst.acceptedNodes_steps observed
  have hincreasing : ks.Pairwise (· < ·) := List.Pairwise.sublist hsublist List.pairwise_lt_range'
  have hbounded : ∀ k ∈ ks, k < streamed.length := by
    intro k hk
    exact lt_of_lt_of_eq (List.mem_range'_1.mp (hsublist.subset hk)).2 (Nat.zero_add _)
  refine ⟨steps_observe options calls, ?_, ?_, hfirst.journal_after observed,
    ⟨ks, hincreasing, hbounded, hks⟩, ?_, ?_⟩
  · intro step hstep hrefused
    exact Step.contacts_of_refusedBatch (hfirst.steps observed step hstep) hrefused
  · intro k step hk
    exact sends_of_getElem? hk
  · intro hcount
    rw [hks]
    exact pairwise_map_ofNat hincreasing hbounded hcount
  · intro step hmem edge hedge node hnode hedgeFrame hnodeFrame
    obtain ⟨hstep, hstreamed⟩ := List.mem_filter.mp hmem
    have hnamed := hfirst.steps observed step hstep
    obtain ⟨edges, nodes, hsends, -⟩ := Step.sends_of_streamed hnamed hstreamed
    obtain ⟨before, behind, hsplit⟩ := hfirst.taken_split hstep
    refine ⟨before, behind, ?_⟩
    rw [hsplit, hsends.taken_eq hedge hedgeFrame hnode hnodeFrame]
    rfl

/-- The node frame of the first batch is lost, the second batch is refused, and the third goes
through behind a payload of its own and with a new edge table. -/
theorem stream_order_lossy :
    let nodes : NodeTable := ⟨[("id", .int [7]), ("color", .int [0]), ("size", .int [1])], 1⟩
    let edges : EdgeTable := ⟨[("edge", .int [4]), ("bundle", .int [0]), ("color", .int [2])], 1⟩
    let answers : List SendResult :=
      [.delivered, .dropped .wouldBlock, .delivered, .delivered, .delivered]
    let calls : List (Call Scripted) :=
      [.start .epoch ⟨nodes, .empty⟩ .standard (.onto (.ofAnswers answers [])),
        .iterate (.columnar [5] [6]), .iterate (.columnar [] []), .update [1],
        .refreshEdges edges, .iterate (.columnar [8] [9]), .close .epoch]
    let first : Session (Observed Scripted) := .new ⟨["id", "x"], ["edge"], false, 500⟩
    let steps := first.steps (calls.map Call.observe)
    let streamed := steps.filter Step.streamed
    let edge : Bytes := [71, 76, 83, 70, 1, 2, 1, 0, 0, 0, 0, 0, 0, 0, 1, 0, 0, 0, 1, 0,
      4, 0, 101, 100, 103, 101, 1, 4, 0, 0, 0, 0, 0, 0, 0]
    let node : Bytes := [71, 76, 83, 70, 1, 1, 1, 0, 0, 0, 0, 0, 0, 0, 1, 0, 0, 0, 2, 0,
      2, 0, 105, 100, 1, 7, 0, 0, 0, 0, 0, 0, 0, 1, 0, 120, 2, 8, 0, 0, 0]
    (∃ step, steps[2]? = some step ∧ step.reply.refusedBatch = true ∧ step.contacts = []) ∧
    (∃ step edges nodes, streamed[1]? = some step ∧ step.Sends 1 edges nodes) ∧
    (steps.flatMap Step.acceptedNodes).Pairwise (· < ·) ∧
    (∃ before behind,
      (first.after (calls.map Call.observe)).taken = before ++ edge :: node :: behind) := by
  intro nodes edges answers calls first steps streamed edge node
  obtain ⟨-, hrefused, hsends, -, -, hpairwise, htaken⟩ :=
    stream_order ⟨["id", "x"], ["edge"], false, 500⟩ calls
  have hthird : steps[2]?.map (fun step => step.reply.refusedBatch) = some true := by
    decide +kernel +zetaReduce
  have hlast : streamed[1]?.map (fun step => step.contacts.filterMap Contact.taken?) =
      some [edge, node] := by
    decide +kernel +zetaReduce
  have hcount : streamed.length = 2 := by
    decide +kernel +zetaReduce
  obtain ⟨third, hthirdAt, hthirdRefused⟩ := Option.map_eq_some_iff.mp hthird
  obtain ⟨last, hlastAt, hlastTaken⟩ := Option.map_eq_some_iff.mp hlast
  obtain ⟨edgeContacts, nodeContacts, hsent, -⟩ := hsends 1 last hlastAt
  refine ⟨⟨third, hthirdAt, hthirdRefused,
      hrefused third (List.mem_of_getElem? hthirdAt) hthirdRefused⟩,
    ⟨last, edgeContacts, nodeContacts, hlastAt, hsent⟩, hpairwise (by rw [hcount]; decide), ?_⟩
  exact htaken last (List.mem_of_getElem? hlastAt) edge (by simp [hlastTaken]) node
    (by simp [hlastTaken]) ⟨1, _, rfl⟩ ⟨1, _, rfl⟩

end Session

end LiveLayout
