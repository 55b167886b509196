import LiveLayout.Proofs.Channel.Queue
import LiveLayout.Proofs.Position.Interleaved
import LiveLayout.Proofs.Session.Accounting

/-!
# Queues that nobody drains

A queue that nobody drains keeps the oldest of what is put to it and refuses the rest for want of
room. So it ends up with the beginning of the stream: the edge frame, a node frame for each batch,
and the sentinel. The edge frame goes out again only where it found no room, and that is where
there is none at all.
-/

namespace LiveLayout

namespace Channel

/-- The contacts by which these payloads are put to a queue that nobody drains: it takes the first
of them, up to its capacity. -/
def undrainedContacts (capacity : Nat) (payloads : List Bytes) : List Contact :=
  ((payloads.take capacity).map fun payload => Contact.offer payload .delivered) ++
    (payloads.drop capacity).map fun payload => Contact.offer payload (.dropped .wouldBlock)

/-- The watched channel over a queue that was empty, once these payloads were put to it and nothing
was read. -/
def undrained (capacity : Nat) (payloads : List Bytes) : Channel (Observed (Endpoint Queue)) :=
  ⟨.attached ⟨.attached ⟨capacity, payloads.take capacity, true, true⟩,
      undrainedContacts capacity payloads⟩,
    ⟨(payloads.take capacity).length, (payloads.drop capacity).length, 0,
      ((payloads.take capacity).map List.length).sum⟩⟩

theorem undrained_nil (capacity : Nat) :
    undrained capacity [] = (onto (Queue.ofCapacity capacity)).watch := by
  simp only [undrained, undrainedContacts, List.take_nil, List.drop_nil, List.map_nil]
  rfl

variable {capacity : Nat} {payloads : List Bytes}

/-- A payload is taken exactly if there is room left, and in either case it was put to the queue. -/
theorem send_undrained (payload : Bytes) :
    (undrained capacity payloads).send payload =
      (if payloads.length < capacity then .delivered else .dropped .wouldBlock,
        undrained capacity (payloads ++ [payload])) := by
  by_cases hroom : payloads.length < capacity
  · have hlength : (payloads ++ [payload]).length ≤ capacity := by
      rw [List.length_append]
      exact hroom
    have hfull : ¬ capacity ≤ payloads.length := Nat.not_le.mpr hroom
    simp [undrained, undrainedContacts, send, offer, Transport.trySend, Queue.push,
      List.take_of_length_le hroom.le, List.drop_of_length_le hroom.le,
      List.take_of_length_le hlength, List.drop_of_length_le hlength, hfull, hroom,
      ChannelStats.record]
  · have hfull : capacity ≤ payloads.length := Nat.not_lt.mp hroom
    simp [undrained, undrainedContacts, send, offer, Transport.trySend, Queue.push,
      List.take_append_of_le_length hfull, List.drop_append_of_le_length hfull, hfull, hroom,
      ChannelStats.record]

theorem stats_undrained (capacity : Nat) (payloads : List Bytes) :
    (undrained capacity payloads).stats.sent = min capacity payloads.length ∧
      (undrained capacity payloads).stats.dropped = payloads.length - capacity ∧
      (undrained capacity payloads).stats.rejected = 0 :=
  ⟨List.length_take, List.length_drop, rfl⟩

theorem offered_undrainedContacts (capacity : Nat) (payloads : List Bytes) :
    (undrainedContacts capacity payloads).filterMap Contact.offered? = payloads := by
  have hoffered : ∀ (answer : SendResult) (offers : List Bytes),
      (offers.map fun payload => Contact.offer payload answer).filterMap Contact.offered? =
        offers := by
    intro answer offers
    rw [List.filterMap_map]
    exact List.filterMap_some
  rw [undrainedContacts, List.filterMap_append, hoffered, hoffered, List.take_append_drop]

/-- Waiting for room does not help. -/
theorem sendFinal_undrained (payload : Bytes) (timeout : Nat) :
    (undrained capacity payloads).sendFinal payload timeout =
      (undrained capacity payloads).send payload := rfl

end Channel

namespace Framing

variable {framing settled : Framing} {capacity : Nat} {payloads sofar : List Bytes}
  {edge node : Bytes}

/-- The coordinates of the batches among some buffers that are not refused. -/
def batches (framing : Framing) (buffers : List PositionBuffer) : List Positions :=
  buffers.filterMap fun buffer => (framing.batch buffer).toOption

/-- The framing some iterations later. -/
def later (framing : Framing) (count : Nat) : Framing :=
  { framing with iteration := framing.iteration + count }

/-- The framing once its edge frame was taken. -/
def sent (framing : Framing) : Framing :=
  { framing with edgesPending := false, edgeFrames := framing.edgeFrames + 1 }

/-- The node frames of batches that follow one another. -/
def nodeFrames (framing : Framing) : List Positions → Except CodecError (List Bytes)
  | [] => .ok []
  | positions :: rest => do
    let frame ← framing.nodeFrame positions
    let frames ← (framing.later 1).nodeFrames rest
    return frame :: frames

/-- The edge frames of iterations that follow one another. -/
def repeatedEdges (framing : Framing) : Nat → Except CodecError (List Bytes)
  | 0 => .ok []
  | count + 1 => do
    let frame ← framing.edgeFrame
    let frames ← (framing.later 1).repeatedEdges count
    return frame :: frames

theorem later_later (framing : Framing) (count : Nat) :
    (framing.later 1).later count = framing.later (count + 1) := by
  rw [later, later, later, Nat.add_assoc, Nat.add_comm 1]

theorem nodeFrames_congr {other : Framing} (hsetup : other.setup = framing.setup)
    (hiteration : other.iteration = framing.iteration) (batches : List Positions) :
    other.nodeFrames batches = framing.nodeFrames batches := by
  induction batches generalizing framing other with
  | nil => rfl
  | cons positions rest ih =>
      have hsetups : (other.later 1).setup = (framing.later 1).setup := hsetup
      have hiterations : (other.later 1).iteration = (framing.later 1).iteration :=
        congrArg (· + 1) hiteration
      rw [nodeFrames, nodeFrames, nodeFrame_congr hsetup hiteration, ih hsetups hiterations]

/-- The first of some buffers is refused and has no node frame, or its node frame comes first. -/
theorem nodeFrames_batches_cons {buffer : PositionBuffer} {rest : List PositionBuffer}
    {nodes : List Bytes} (h : framing.nodeFrames (framing.batches (buffer :: rest)) = .ok nodes) :
    (∃ error, framing.batch buffer = .error error ∧
      framing.nodeFrames (framing.batches rest) = .ok nodes) ∨
    ∃ positions frame frames, framing.batch buffer = .ok positions ∧
      framing.nodeFrame positions = .ok frame ∧
      (framing.later 1).nodeFrames ((framing.later 1).batches rest) = .ok frames ∧
      nodes = frame :: frames := by
  rw [batches, List.filterMap_cons] at h
  cases hbatch : framing.batch buffer with
  | error error =>
      rw [hbatch] at h
      exact .inl ⟨error, rfl, h⟩
  | ok positions =>
      simp only [hbatch, Except.toOption, nodeFrames, bind_eq_ok_iff, pure_eq_ok_iff] at h
      obtain ⟨frame, hframe, frames, hframes, rfl⟩ := h
      exact .inr ⟨positions, frame, frames, rfl, hframe, hframes, rfl⟩

/-- An edge table that has a wire form once has one every time. -/
theorem exists_repeatedEdges (h : framing.edgeFrame = .ok edge) (count : Nat) :
    ∃ edges, framing.repeatedEdges count = .ok edges ∧ edges.length = count := by
  induction count generalizing framing edge with
  | zero => exact ⟨[], rfl, rfl⟩
  | succ count ih =>
      have hlater : ∃ next, (framing.later 1).edgeFrame = .ok next := exists_encodeColumns h _
      obtain ⟨next, hnext⟩ := hlater
      obtain ⟨edges, hedges, hlength⟩ := ih hnext
      refine ⟨edge :: edges, ?_, by rw [List.length_cons, hlength]⟩
      rw [repeatedEdges, h, hedges]
      rfl

theorem settleEdges_undrained (howed : framing.owesEdges = true)
    (hedge : framing.edgeFrame = .ok edge) :
    framing.settleEdges (.undrained capacity payloads) =
      (if payloads.length < capacity then framing.sent else framing,
        .undrained capacity (payloads ++ [edge])) := by
  rw [settleEdges, if_pos howed, sendEdges, hedge]
  simp only [Channel.send_undrained]
  by_cases hroom : payloads.length < capacity
  · rw [if_pos hroom, if_pos hroom]
    rfl
  · rw [if_neg hroom, if_neg hroom]
    rfl

/-- What a batch that is not refused puts to the queue: what becomes of the edge frame comes first,
then the node frame. -/
theorem Named.invoke_undrained (hnamed : framing.Named) {buffer : PositionBuffer}
    {positions : Positions} (hbatch : framing.batch buffer = .ok positions)
    (hnode : framing.nodeFrame positions = .ok node)
    (hsettled : framing.settleEdges (.undrained capacity payloads) =
      (settled, .undrained capacity sofar)) :
    framing.invoke buffer (.undrained capacity payloads) =
      (.ok (), settled.later 1, .undrained capacity (sofar ++ [node])) := by
  have hiteration : settled.iteration = framing.iteration := by
    rw [← iteration_settleEdges framing (.undrained capacity payloads), hsettled]
  have hwire : encodeColumns .nodes (UInt64.ofNat settled.iteration) positions.length
      (framing.nodeFrameColumns positions) = .ok node := by
    rw [hiteration]
    exact hnode
  rw [hnamed.invoke_eq, hbatch, hsettled]
  simp only [sendNodes, hwire, Channel.send_undrained]
  rfl

theorem Named.later (hnamed : framing.Named) (count : Nat) : (framing.later count).Named :=
  hnamed.of_setup_eq rfl

end Framing

namespace Session

/-- A live session over a queue that nobody drains, once these payloads were put to it. -/
def undrained (options : SessionOptions) (opened : Instant) (capacity : Nat) (framing : Framing)
    (payloads : List Bytes) : Session (Observed (Endpoint Queue)) :=
  ⟨options, .live opened framing (.undrained capacity payloads)⟩

section Batches

variable {options : SessionOptions} {opened : Instant} {capacity : Nat} {framing settled : Framing}
  {payloads sofar nodes edges : List Bytes} {edge : Bytes} {buffer : PositionBuffer}
  {rest : List PositionBuffer}

/-- A batch that is refused leaves the rest to be streamed as if it had not been there. -/
theorem after_refused {error : StreamError} (h : framing.batch buffer = .error error) :
    (undrained options opened capacity framing payloads).after
        ((buffer :: rest).map .iterate) =
      (undrained options opened capacity framing payloads).after (rest.map .iterate) := by
  have hrefused : framing.invoke buffer (.undrained capacity payloads) =
      (.error error, framing, .undrained capacity payloads) := by
    simp only [Framing.invoke, h]
  rw [List.map_cons, after, List.foldl_cons]
  simp only [perform, iterate, undrained, hrefused]
  rfl

/-- A batch that is streamed leaves the rest to the framing one iteration later. -/
theorem after_streamed (hnamed : framing.Named) {positions : Positions} {node : Bytes}
    (hbatch : framing.batch buffer = .ok positions) (hnode : framing.nodeFrame positions = .ok node)
    (hsettled : framing.settleEdges (.undrained capacity payloads) =
      (settled, .undrained capacity sofar)) :
    (undrained options opened capacity framing payloads).after
        ((buffer :: rest).map .iterate) =
      (undrained options opened capacity (settled.later 1) (sofar ++ [node])).after
        (rest.map .iterate) := by
  rw [List.map_cons, after, List.foldl_cons]
  simp only [perform, iterate, undrained, hnamed.invoke_undrained hbatch hnode hsettled]
  rfl

/-- Once the edge frame was taken, each batch puts its node frame to the queue. -/
theorem after_settled {buffers : List PositionBuffer} (hnamed : framing.Named)
    (howed : framing.owesEdges = false)
    (hnodes : framing.nodeFrames (framing.batches buffers) = .ok nodes) :
    (undrained options opened capacity framing payloads).after (buffers.map .iterate) =
      undrained options opened capacity (framing.later nodes.length) (payloads ++ nodes) := by
  induction buffers generalizing framing payloads nodes with
  | nil =>
      cases hnodes
      rw [List.append_nil]
      rfl
  | cons buffer rest ih =>
      rcases Framing.nodeFrames_batches_cons hnodes with
        ⟨error, hbatch, hrest⟩ | ⟨positions, node, later, hbatch, hnode, hlater, rfl⟩
      · rw [after_refused hbatch]
        exact ih hnamed howed hrest
      · have hsettled : framing.settleEdges (.undrained capacity payloads) =
            (framing, .undrained capacity payloads) := by
          rw [Framing.settleEdges, howed]
          rfl
        rw [after_streamed hnamed hbatch hnode hsettled, ih (hnamed.later 1) howed hlater,
          Framing.later_later, List.append_assoc]
        rfl

/-- Where there is room for the edge frame, it is taken with the first batch that is streamed, and
then only node frames follow. -/
theorem after_owed {buffers : List PositionBuffer} (hnamed : framing.Named)
    (howed : framing.owesEdges = true) (honce : framing.resendEdges = false)
    (hedge : framing.edgeFrame = .ok edge) (hroom : 0 < capacity)
    (hnodes : framing.nodeFrames (framing.batches buffers) = .ok nodes) (hsome : nodes ≠ []) :
    (undrained options opened capacity framing []).after (buffers.map .iterate) =
      undrained options opened capacity (framing.sent.later nodes.length) (edge :: nodes) := by
  induction buffers with
  | nil =>
      cases hnodes
      exact absurd rfl hsome
  | cons buffer rest ih =>
      rcases Framing.nodeFrames_batches_cons hnodes with
        ⟨error, hbatch, hrest⟩ | ⟨positions, node, later, hbatch, hnode, hlater, rfl⟩
      · rw [after_refused hbatch]
        exact ih hrest
      · have hsettled : framing.settleEdges (.undrained capacity []) =
            (framing.sent, .undrained capacity [edge]) := by
          rw [Framing.settleEdges_undrained howed hedge, List.length_nil, if_pos hroom,
            List.nil_append]
        have hsent : (framing.sent.later 1).Named := hnamed.of_setup_eq rfl
        have hsetup : (framing.sent.later 1).setup = (framing.later 1).setup := rfl
        have hframes : (framing.sent.later 1).nodeFrames
            ((framing.sent.later 1).batches rest) = .ok later :=
          (Framing.nodeFrames_congr hsetup rfl _).trans hlater
        rw [after_streamed hnamed hbatch hnode hsettled, after_settled hsent honce hframes,
          Framing.later_later]
        rfl

/-- Where there is no room at all, each batch puts the edge frame of its own iteration to the queue
again, and its node frame behind it. -/
theorem after_owed_full {buffers : List PositionBuffer} (hnamed : framing.Named)
    (howed : framing.owesEdges = true)
    (hnodes : framing.nodeFrames (framing.batches buffers) = .ok nodes)
    (hedges : framing.repeatedEdges nodes.length = .ok edges) :
    (undrained options opened 0 framing payloads).after (buffers.map .iterate) =
      undrained options opened 0 (framing.later nodes.length)
        (payloads ++ interleave (edges.zip nodes)) := by
  induction buffers generalizing framing payloads nodes edges with
  | nil =>
      cases hnodes
      rw [List.zip_nil_right]
      exact congrArg _ (List.append_nil payloads).symm
  | cons buffer rest ih =>
      rcases Framing.nodeFrames_batches_cons hnodes with
        ⟨error, hbatch, hrest⟩ | ⟨positions, node, later, hbatch, hnode, hlater, rfl⟩
      · rw [after_refused hbatch]
        exact ih hnamed howed hrest hedges
      · simp only [List.length_cons, Framing.repeatedEdges, bind_eq_ok_iff, pure_eq_ok_iff]
          at hedges
        obtain ⟨edge, hedge, edges, hedges, rfl⟩ := hedges
        have hsettled : framing.settleEdges (.undrained 0 payloads) =
            (framing, .undrained 0 (payloads ++ [edge])) := by
          rw [Framing.settleEdges_undrained howed hedge, if_neg (Nat.not_lt_zero _)]
        rw [after_streamed hnamed hbatch hnode hsettled, ih (hnamed.later 1) howed hlater hedges,
          Framing.later_later, List.append_assoc, List.append_assoc]
        rfl

theorem teardown_undrained (closed : Instant) :
    ((undrained options opened capacity framing payloads).teardown closed).1 =
        ⟨framing.iteration, framing.edgeFrames, framing.framesSkipped,
          (Channel.undrained capacity (payloads ++ [closeSentinel])).stats,
          decide (payloads.length < capacity), some opened, closed⟩ ∧
      ((undrained options opened capacity framing payloads).teardown closed).2.channel =
        (Channel.undrained capacity (payloads ++ [closeSentinel])).close := by
  simp only [teardown, undrained, Channel.sendFinal_undrained, Channel.send_undrained]
  by_cases hroom : payloads.length < capacity
  · rw [if_pos hroom, decide_eq_true hroom]
    exact ⟨rfl, rfl⟩
  · rw [if_neg hroom, decide_eq_false hroom]
    exact ⟨rfl, rfl⟩

end Batches

section Streams

variable {options : SessionOptions} {graph : Graph} {mapper : PositionMapper} {framing : Framing}
  {capacity : Nat} {opened : Instant} {buffers : List PositionBuffer}

/-- What is called where nobody drains the queue: a start over a new one, and some batches. -/
def absentCalls (graph : Graph) (mapper : PositionMapper) (capacity : Nat) (opened : Instant)
    (buffers : List PositionBuffer) : List (Call Queue) :=
  .start opened graph mapper (.onto (.ofCapacity capacity)) :: buffers.map .iterate

theorem after_absentCalls (hstart : Framing.start mapper graph options = .ok framing)
    (capacity : Nat) (opened : Instant) (buffers : List PositionBuffer) :
    (new options).after ((absentCalls graph mapper capacity opened buffers).map Call.watch) =
      (undrained options opened capacity framing []).after (buffers.map .iterate) := by
  rw [absentCalls, List.map_cons, List.map_map, undrained, Channel.undrained_nil]
  exact after_of_start (start_new hstart opened _) _

/-- What a teardown after these calls leaves of the payloads put to the queue, and what its summary
says of them. -/
theorem torn_down_undrained {last : Framing} {payloads : List Bytes} (closed : Instant)
    (h : (new options).after ((absentCalls graph mapper capacity opened buffers).map Call.watch) =
      undrained options opened capacity last payloads) :
    let calls := absentCalls graph mapper capacity opened buffers
    let torn := ((new options).after calls).teardown closed
    let history := watched options (calls ++ [Call.teardown closed])
    torn.2.channel.endpoint =
        .released ⟨capacity, (payloads ++ [closeSentinel]).take capacity, false, true⟩ ∧
      torn.1.channel.sent = min capacity (payloads.length + 1) ∧
      torn.1.channel.dropped = payloads.length + 1 - capacity ∧
      torn.1.channel.rejected = 0 ∧
      torn.1.sentinelDelivered = decide (payloads.length < capacity) ∧
      torn.1.edgeFrames = last.edgeFrames ∧
      (history.filter Step.streamed).length = last.iteration ∧
      history.flatMap Step.contacts =
        Channel.undrainedContacts capacity (payloads ++ [closeSentinel]) ++ [.close] := by
  intro calls torn history
  have hsession : ((undrained options opened capacity last payloads).teardown closed).2 =
      (new options).after ((calls ++ [Call.teardown closed]).map Call.watch) := by
    rw [List.map_append, after_append, h]
    rfl
  obtain ⟨hsummary, hchannel⟩ : _ ∧ _ := teardown_undrained closed
  rw [← h, teardown_watched options calls closed] at hsummary
  rw [hsession] at hchannel
  obtain ⟨-, hrun⟩ := run_watched options (calls ++ [Call.teardown closed])
  have hstats : torn.1.channel =
      (Channel.undrained capacity (payloads ++ [closeSentinel])).stats := by
    rw [hsummary]
  obtain ⟨hsent, hdropped, hrejected⟩ :=
    Channel.stats_undrained capacity (payloads ++ [closeSentinel])
  rw [← hstats, List.length_append] at hsent hdropped
  rw [← hstats] at hrejected
  refine ⟨?_, hsent, hdropped, hrejected, ?_, ?_, ?_, ?_⟩
  · have hunwatched := after_watched options (calls ++ [Call.teardown closed])
    have htorn : torn.2.channel = ((new options).after
        ((calls ++ [Call.teardown closed]).map Call.watch)).channel.unwatch := by
      rw [← channel_mapChannel Channel.unwatch_faithful, hunwatched, after_append]
      rfl
    rw [htorn, hchannel]
    rfl
  · rw [hsummary]
  · rw [hsummary]
  · rw [← hrun.books.iteration_eq, ← hsession, iteration_teardown]
    rfl
  · have hjournal := (named_new options).journal_after
      ((calls ++ [Call.teardown closed]).map Call.watch)
    rw [journal, hchannel] at hjournal
    exact hjournal.symm

end Streams

/-- A session that sends its edge frame once streams over a new queue that nobody drains. At least
one batch is not refused, and every frame has a wire form. If the queue has room for a payload, it
ends up with the oldest of the stream, as many as it has room for: the edge frame, a node frame for
each batch, and the sentinel. The others were dropped, and the sentinel was delivered exactly if the
whole stream fits. If the queue has no room, nothing is delivered, and the edge frame is put to it
again in every iteration. -/
theorem oldest_kept {options : SessionOptions} {graph : Graph} {mapper : PositionMapper}
    {framing : Framing} {buffers : List PositionBuffer} {edge : Bytes} {nodes : List Bytes}
    (honce : options.resendEdges = false)
    (hstart : Framing.start mapper graph options = .ok framing)
    (hedge : framing.edgeFrame = .ok edge)
    (hnodes : framing.nodeFrames (framing.batches buffers) = .ok nodes) (hsome : nodes ≠ [])
    (capacity : Nat) (opened closed : Instant) :
    let calls := absentCalls graph mapper capacity opened buffers
    let torn := ((new options).after calls).teardown closed
    let history := watched options (calls ++ [Call.teardown closed])
    let streamed := (history.filter Step.streamed).length
    let stream := edge :: nodes ++ [closeSentinel]
    Watches history ((new options).steps (calls ++ [Call.teardown closed])) ∧
    nodes.length = streamed ∧
    (1 ≤ capacity →
      torn.2.channel.endpoint =
        .released ⟨capacity, stream.take (min capacity (streamed + 2)), false, true⟩ ∧
      torn.1.channel.sent = min capacity (streamed + 2) ∧
      torn.1.channel.dropped = streamed + 2 - torn.1.channel.sent ∧
      torn.1.channel.rejected = 0 ∧
      (torn.1.sentinelDelivered = true ↔ streamed + 2 ≤ capacity) ∧
      torn.1.edgeFrames = 1 ∧
      (history.flatMap Step.contacts).filterMap Contact.offered? = stream) ∧
    (capacity = 0 →
      torn.2.channel.endpoint = .released ⟨0, [], false, true⟩ ∧
      torn.1.channel.sent = 0 ∧
      torn.1.channel.dropped = 2 * streamed + 1 ∧
      torn.1.channel.rejected = 0 ∧
      torn.1.sentinelDelivered = false ∧
      torn.1.edgeFrames = 0 ∧
      ∃ edges, framing.repeatedEdges streamed = .ok edges ∧ edges.length = streamed ∧
        history.flatMap Step.contacts =
          (interleave (edges.zip nodes) ++ [closeSentinel]).map
            (fun payload => Contact.offer payload (.dropped .wouldBlock)) ++ [.close]) := by
  intro calls torn history streamed stream
  obtain ⟨hframing, hnamed⟩ := Framing.start_eq_ok_iff.mp hstart
  have howed : framing.owesEdges = true := by
    rw [hframing]
    rfl
  have honce : framing.resendEdges = false := by
    rw [hframing]
    exact honce
  have hiteration : ∀ count, (framing.later count).iteration = count := by
    intro count
    rw [hframing]
    exact Nat.zero_add count
  refine ⟨watches_watched options _, ?_⟩
  rcases Nat.eq_zero_or_pos capacity with rfl | hroom
  · obtain ⟨edges, hedges, hlength⟩ := Framing.exists_repeatedEdges hedge nodes.length
    have hafter := (after_absentCalls hstart 0 opened buffers).trans
      (after_owed_full hnamed howed hnodes hedges)
    rw [List.nil_append] at hafter
    obtain ⟨hendpoint, hsent, hdropped, hrejected, hdelivered, hframes, hstreamed, hjournal⟩ :=
      torn_down_undrained closed hafter
    have hcount : nodes.length = streamed :=
      (hiteration nodes.length).symm.trans hstreamed.symm
    have hput : (interleave (edges.zip nodes)).length = 2 * streamed := by
      rw [length_interleave, List.length_zip, hlength, Nat.min_self, hcount]
    refine ⟨hcount, nofun, fun _ => ⟨hendpoint, ?_, ?_, hrejected, hdelivered, ?_, edges, ?_, ?_,
      hjournal⟩⟩
    · rw [hsent, Nat.zero_min]
    · rw [hdropped, hput, Nat.sub_zero]
    · rw [hframes, hframing]
      rfl
    · rw [← hcount, hedges]
    · rw [hlength, hcount]
  · have hafter := (after_absentCalls hstart capacity opened buffers).trans
      (after_owed hnamed howed honce hedge hroom hnodes hsome)
    obtain ⟨hendpoint, hsent, hdropped, hrejected, hdelivered, hframes, hstreamed, hjournal⟩ :=
      torn_down_undrained closed hafter
    have hcount : nodes.length = streamed :=
      (hiteration nodes.length).symm.trans hstreamed.symm
    have hput : (edge :: nodes).length = streamed + 1 := congrArg (· + 1) hcount
    have hlength : stream.length = streamed + 2 := by
      rw [List.length_append, hput]
      rfl
    rw [hput] at hsent hdropped hdelivered
    refine ⟨hcount, fun _ => ⟨?_, hsent, ?_, hrejected, ?_, ?_, ?_⟩, fun h => absurd h hroom.ne'⟩
    · rw [← hlength, ← List.take_eq_take_min]
      exact hendpoint
    · rw [hsent, hdropped]
      omega
    · rw [hdelivered, decide_eq_true_iff]
      rfl
    · rw [hframes, hframing]
      rfl
    · have hoffered := Channel.offered_undrainedContacts capacity stream
      rw [hjournal, List.filterMap_append]
      exact (congrArg (· ++ []) hoffered).trans (List.append_nil stream)

/-- Two places for a stream of four: the queue keeps the edge frame and the first node frame. The
batch of two rows is refused in between. -/
theorem oldest_kept_two :
    let nodes : NodeTable := ⟨[("id", .int [7]), ("color", .int [0]), ("size", .int [1])], 1⟩
    let edges : EdgeTable := ⟨[("edge", .int [4]), ("bundle", .int [0]), ("color", .int [2])], 1⟩
    let options : SessionOptions := ⟨["id", "x"], ["edge"], false, 500⟩
    let framing : Framing :=
      ⟨.standard, nodes, edges, ["id", "x"], ["edge"], false, true, 0, 0, 0⟩
    let buffers : List PositionBuffer :=
      [.columnar [5] [6], .columnar [5, 6] [6, 5], .columnar [8] [9]]
    let calls := absentCalls ⟨nodes, edges⟩ .standard 2 .epoch buffers
    let torn := ((new options).after calls).teardown .epoch
    options.resendEdges = false ∧
    Framing.start .standard ⟨nodes, edges⟩ options = .ok framing ∧
    ∃ edge first second, framing.edgeFrame = .ok edge ∧
      framing.nodeFrames (framing.batches buffers) = .ok [first, second] ∧
      torn.2.channel.endpoint = .released ⟨2, [edge, first], false, true⟩ ∧
      torn.1.channel.sent = 2 ∧ torn.1.channel.dropped = 2 ∧ torn.1.channel.rejected = 0 ∧
      torn.1.sentinelDelivered = false := by
  intro nodes edges options framing buffers calls torn
  have hstart : Framing.start .standard ⟨nodes, edges⟩ options = .ok framing := by rfl
  obtain ⟨edge, hedge⟩ : ∃ edge, framing.edgeFrame = .ok edge := ⟨_, rfl⟩
  obtain ⟨first, second, hnodes⟩ : ∃ first second,
      framing.nodeFrames (framing.batches buffers) = .ok [first, second] := ⟨_, _, rfl⟩
  obtain ⟨-, hcount, hkept, -⟩ := oldest_kept rfl hstart hedge hnodes nofun 2 .epoch .epoch
  obtain ⟨hendpoint, hsent, hdropped, hrejected, hdelivered, -⟩ := hkept (Nat.le_succ 1)
  rw [← hcount] at hendpoint hsent hdropped hdelivered
  refine ⟨rfl, hstart, edge, first, second, hedge, hnodes, hendpoint, hsent, ?_, hrejected, ?_⟩
  · rw [hdropped, hsent]
    rfl
  · rw [← Bool.not_eq_true, hdelivered]
    exact Nat.not_le.mpr (Nat.lt_add_of_pos_left Nat.two_pos)

end Session

end LiveLayout
