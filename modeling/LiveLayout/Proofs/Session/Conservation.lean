import LiveLayout.Proofs.Session.Keeping
import LiveLayout.Proofs.Session.Pipeline

/-!
# Conservation between producer and consumer

A session that streams into a queue puts a stream to it: frames, then the sentinel, and then it
hangs up. So whatever the order in which session and consumer act, nothing that the queue took is
lost or read twice, and when both are done the consumer has counted what the session says it sent.
-/

namespace LiveLayout

theorem Contact.Carries.offersFrame {kind : FrameKind} {k : Nat} {contact : Contact}
    (h : contact.Carries kind k) : contact.offersFrame = true := by
  rw [Contact.offersFrame, h.kind?]
  rfl

namespace Session

variable {τ : Type} [Transport τ]

/-- What a session has put to its transport: frames, and the sentinel once it was closed while
live. -/
structure Streaming (history : List (Step (Observed τ))) (session : Session (Observed τ)) :
    Prop where
  running : session.summary? = none →
    ∀ contact ∈ history.flatMap Step.contacts, contact.offersFrame = true
  closed : ∀ summary, session.summary? = some summary → ∃ frames ending,
    history.flatMap Step.contacts = frames ++ ending ∧
      (∀ contact ∈ frames, contact.offersFrame = true) ∧
        (ending = [] ∧ summary.sentinelDelivered = false ∨
          ∃ answer, ending = [.offer closeSentinel answer, .close] ∧
            summary.sentinelDelivered = answer.isDelivered)

section Runs

variable {options : SessionOptions} {history : List (Step (Observed τ))}
  {session next : Session (Observed τ)} {step : Step (Observed τ)}

/-- A step that puts nothing to the transport and leaves the summary as it is. -/
theorem Streaming.same (h : Streaming history session) (hcontacts : step.contacts = [])
    (hsummary : next.summary? = session.summary?) : Streaming (history ++ [step]) next := by
  have hjournal : (history ++ [step]).flatMap Step.contacts = history.flatMap Step.contacts := by
    rw [List.flatMap_append, List.flatMap_singleton, hcontacts, List.append_nil]
  exact ⟨by rw [hsummary, hjournal]; exact h.running, by rw [hsummary, hjournal]; exact h.closed⟩

/-- A step of a session that is not closed which puts frames to the transport. -/
theorem Streaming.frames (h : Streaming history session) (hsession : session.summary? = none)
    (hnext : next.summary? = none)
    (hframes : ∀ contact ∈ step.contacts, contact.offersFrame = true) :
    Streaming (history ++ [step]) next := by
  refine ⟨fun _ => ?_, fun summary hsummary => ?_⟩
  · rw [List.flatMap_append, List.flatMap_singleton]
    exact List.forall_mem_append.mpr ⟨h.running hsession, hframes⟩
  · rw [hnext] at hsummary
    cases hsummary

theorem Streaming.closing {now : Instant} {summary : Summary} (h : Streaming history session)
    (hclosing : Closing session now summary step.contacts next) :
    Streaming (history ++ [step]) next := by
  have hjournal : (history ++ [step]).flatMap Step.contacts =
      history.flatMap Step.contacts ++ step.contacts := by
    rw [List.flatMap_append, List.flatMap_singleton]
  generalize hcontacts : step.contacts = contacts at hclosing hjournal
  cases hclosing with
  | unopened =>
      refine ⟨nofun, fun summary hsummary => ⟨_, _, hjournal, h.running rfl, .inl ⟨rfl, ?_⟩⟩⟩
      cases hsummary
      rfl
  | live counted =>
      refine ⟨nofun, fun summary hsummary => ⟨_, _, hjournal, h.running rfl, .inr ⟨_, rfl, ?_⟩⟩⟩
      cases hsummary
      rfl
  | again => exact h.same hcontacts rfl

/-- Every run puts a stream to its transport, if its updates are frames. -/
theorem Run.streaming (h : Run options history session)
    (hupdates : ∀ step ∈ history, ∀ payload, step.call = .update payload →
      isFrame payload = true) : Streaming history session := by
  induction h with
  | first => exact ⟨fun _ => List.forall_mem_nil _, nofun⟩
  | @step history session next call reply contacts run effect hreply hcontacts hafter ih =>
      have hearlier := ih fun step hstep => hupdates step (List.mem_append_left _ hstep)
      have hupdate := hupdates _ (List.mem_append_right _ List.mem_cons_self)
      cases effect with
      | streamed named hbatch settles advances counted =>
          refine hearlier.frames rfl rfl ?_
          rw [hcontacts]
          exact List.forall_mem_append.mpr
            ⟨fun contact hcontact => (settles.carry named contact hcontact).offersFrame,
              fun contact hcontact => (advances.carry (named.of_setup_eq settles.setup_eq) contact
                hcontact).offersFrame⟩
      | updated counted =>
          refine hearlier.frames rfl rfl ?_
          rw [hcontacts]
          exact List.forall_mem_singleton.mpr (hupdate _ rfl)
      | tornDown closing => exact hearlier.closing (hcontacts ▸ closing)
      | closed closing => exact hearlier.closing (hcontacts ▸ closing)
      | _ => exact hearlier.same hcontacts rfl

theorem Streaming.streamed {summary : Summary} (h : Streaming history session)
    (hclosed : session.summary? = some summary) : Streamed (history.flatMap Step.contacts) := by
  obtain ⟨frames, ending, hjournal, hframes, ⟨rfl, -⟩ | ⟨answer, rfl, -⟩⟩ :=
    h.closed summary hclosed
  · rw [hjournal, List.append_nil]
    exact .frames hframes
  · rw [hjournal, List.append_cons]
    exact .closed hframes answer

/-- What was taken of a closed session is frames, and the sentinel if the summary says so. -/
theorem Streaming.count_taken {summary : Summary} (h : Streaming history session)
    (hclosed : session.summary? = some summary) :
    ((history.flatMap Step.contacts).filterMap Contact.taken?).countP isFrame +
        (if summary.sentinelDelivered then 1 else 0) =
      ((history.flatMap Step.contacts).filterMap Contact.taken?).length := by
  obtain ⟨frames, ending, hjournal, hframes, hending⟩ := h.closed summary hclosed
  have hcount : (frames.filterMap Contact.taken?).countP isFrame =
      (frames.filterMap Contact.taken?).length :=
    List.countP_eq_length.mpr (isFrame_of_mem_taken hframes)
  rw [hjournal, List.filterMap_append, List.countP_append, List.length_append, hcount,
    Nat.add_assoc]
  congr 1
  rcases hending with ⟨rfl, hlost⟩ | ⟨answer, rfl, hdelivered⟩
  · rw [hlost]
    rfl
  · rw [hdelivered]
    cases answer <;> simp [Contact.taken?, SendResult.isDelivered, not_isFrame_sentinel]

end Runs

section Watched

variable {τ : Type} [Transport τ] {options : SessionOptions} {calls : List (Call τ)}

/-- What holds of the updates among some calls holds of those among their steps. -/
theorem forall_update_watched {P : Bytes → Prop}
    (h : ∀ payload, Call.update payload ∈ calls → P payload) :
    ∀ step ∈ watched options calls, ∀ payload, step.call = .update payload → P payload := by
  intro step hstep payload hcall
  have hmem := (sound_of_mem_watched hstep).1
  rw [hcall] at hmem
  exact h payload (mem_of_update_mem_watch hmem)

end Watched

section TornDown

variable {τ : Type} [Transport τ] {calls : List (Call τ)}

theorem streaming_watched (options : SessionOptions) (now : Instant)
    (hupdates : ∀ payload, Call.update payload ∈ calls → isFrame payload = true) :
    Streaming (watched options (calls ++ [.teardown now]))
      ((new options).after ((calls ++ [Call.teardown now]).map Call.watch)) := by
  have hpayloads : ∀ payload, Call.update payload ∈ calls ++ [.teardown now] →
      isFrame payload = true := by
    intro payload hmem
    exact hupdates payload (by simpa using hmem)
  obtain ⟨-, hrun⟩ := run_watched options (calls ++ [.teardown now])
  exact hrun.streaming (forall_update_watched hpayloads)

/-- A session that is torn down has put a stream to its transport, if its updates are frames. -/
theorem streamed_watched (options : SessionOptions) (now : Instant)
    (hupdates : ∀ payload, Call.update payload ∈ calls → isFrame payload = true) :
    Streamed ((watched options (calls ++ [.teardown now])).flatMap Step.contacts) :=
  (streaming_watched options now hupdates).streamed (summary?_watched options calls now)

/-- A session that was opened over an unused channel has sent what its transport took. -/
theorem sent_eq_length {options : SessionOptions} {now : Instant}
    (hopened : OpenedUnused ((new options).steps calls)) :
    (((new options).after calls).teardown now).1.channel.sent =
      (((watched options (calls ++ [.teardown now])).flatMap Step.contacts).filterMap
        Contact.taken?).length := by
  obtain ⟨-, hrun⟩ := run_watched options (calls ++ [.teardown now])
  obtain ⟨hchannel, -⟩ := hrun.ledger.closed _ (summary?_watched options calls now)
    (openedUnused_watched_append hopened _)
  rw [hchannel, ChannelStats.sent_tally]
  exact Nat.zero_add _

/-- A consumer that has come to its end behind a session counts the frames that the session sent. -/
theorem frames_of_ended {options : SessionOptions} {now : Instant} {capacity : Nat}
    {pipeline : Pipeline} (hopened : OpenedUnused ((new options).steps calls))
    (hupdates : ∀ payload, Call.update payload ∈ calls → isFrame payload = true)
    (h : Pipeline.Run capacity
      ((watched options (calls ++ [.teardown now])).flatMap Step.contacts) pipeline)
    (hended : pipeline.consumer.ended = true) :
    let summary := (((new options).after calls).teardown now).1
    pipeline.consumer.frames + (if summary.sentinelDelivered then 1 else 0) =
      summary.channel.sent := by
  intro summary
  have hconserved := h.conserved (streamed_watched options now hupdates)
  have htaken := hconserved.balance
  rw [(hconserved.ended hended).1, List.append_nil] at htaken
  rw [hconserved.counted, htaken, sent_eq_length hopened]
  exact (streaming_watched options now hupdates).count_taken (summary?_watched options calls now)

end TornDown

/-- A session that streams into a queue whose consumer takes its turns in between, by any schedule,
is answered as the queue answers in one of the orders in which the two can act. -/
theorem scheduled_run {capacity : Nat} (options : SessionOptions) (calls : List (Call Scheduled))
    (now : Instant) (hopened : OpenedUnused ((new options).steps calls))
    (hbrings : ∀ call ∈ calls, call.Brings (Scheduled.Feeds capacity)) :
    ∃ left, ((new options).after (calls ++ [.teardown now])).channel.endpoint = .released left ∧
      Pipeline.Run capacity
        ((watched options (calls ++ [.teardown now])).flatMap Step.contacts) left.pipeline :=
  exists_left (Scheduled.keeps capacity) options calls now hopened hbrings

/-- A session streams into a queue, any calls of it and then a teardown, and is answered as the
queue answers in one of the orders in which session and consumer can act. At every point of it, what
the consumer has read and then what waits is what the queue took so far, in order, and everything
that was read is a message. Once the session is done the consumer comes to its end by reading what
waits, and what it then has counted is what the summary says was sent, less the sentinel if that was
delivered. -/
theorem stream_conserved {τ : Type} [Transport τ] (options : SessionOptions)
    (calls : List (Call τ)) (now : Instant) (hopened : OpenedUnused ((new options).steps calls))
    (hupdates : ∀ payload, Call.update payload ∈ calls → isFrame payload = true) :
    let summary := (((new options).after calls).teardown now).1
    let history := watched options (calls ++ [.teardown now])
    let journal := history.flatMap Step.contacts
    Watches history ((new options).steps (calls ++ [.teardown now])) ∧
    ∀ capacity contacts pipeline, Pipeline.Run capacity contacts pipeline → contacts <+: journal →
      pipeline.consumer.taken ++ pipeline.queue.waiting = contacts.filterMap Contact.taken? ∧
      (∀ payload ∈ pipeline.consumer.taken, ∃ message, Message.decode payload = .ok message) ∧
      (contacts = journal →
        (Pipeline.turn^[pipeline.queue.waiting.length + 1] pipeline).consumer.ended = true ∧
        (pipeline.consumer.ended = true →
          pipeline.consumer.frames + (if summary.sentinelDelivered then 1 else 0) =
            summary.channel.sent)) := by
  intro summary history journal
  have hsummary := summary?_watched options calls now
  refine ⟨watches_watched options _, fun capacity contacts pipeline hpipeline hprefix => ?_⟩
  have hstreamed := (streamed_watched options now hupdates).initial hprefix
  have hconserved := hpipeline.conserved hstreamed
  refine ⟨hconserved.balance, fun payload hpayload => ?_, ?_⟩
  · apply hstreamed.decodes payload
    rw [← hconserved.balance]
    exact List.mem_append_left _ hpayload
  rintro rfl
  have hhungUp := hconserved.closed
    (close_mem_watched (openedUnused_watched_append hopened _) hsummary)
  exact ⟨Pipeline.ended_iterate_turn hhungUp rfl, frames_of_ended hopened hupdates hpipeline⟩

/-- A queue with one place, and a consumer that reads nothing until the second batch: the first node
frame is lost, the timed send of the sentinel gives up, and the second node frame still waits when
the session hangs up. -/
theorem stream_conserved_full :
    let nodes : NodeTable := ⟨[("id", .int [7]), ("color", .int [0]), ("size", .int [1])], 1⟩
    let edges : EdgeTable := ⟨[("edge", .int [4]), ("bundle", .int [0]), ("color", .int [2])], 1⟩
    let options : SessionOptions := ⟨["id", "x"], ["edge"], false, 500⟩
    let calls : List (Call Scheduled) :=
      [.start .epoch ⟨nodes, edges⟩ .standard (.onto ⟨.ofCapacity 1, [0, 0, 1]⟩),
        .iterate (.columnar [5] [6]), .iterate (.columnar [8] [9])]
    let summary := (((new options).after calls).teardown .epoch).1
    let journal := (watched options (calls ++ [.teardown .epoch])).flatMap Step.contacts
    OpenedUnused ((new options).steps calls) ∧
    (∀ payload, Call.update payload ∈ calls → isFrame payload = true) ∧
    summary.channel = ⟨2, 2, 0, summary.channel.bytesSent⟩ ∧ summary.sentinelDelivered = false ∧
    ∃ pipeline, Pipeline.Run 1 journal pipeline ∧
      pipeline.consumer.taken ++ pipeline.queue.waiting = journal.filterMap Contact.taken? ∧
      ∃ turns, Pipeline.Run 1 journal (Pipeline.turn^[turns] pipeline) ∧
        (Pipeline.turn^[turns] pipeline).consumer.ended = true ∧
        (Pipeline.turn^[turns] pipeline).consumer.frames = 2 := by
  intro nodes edges options calls summary journal
  have hopened : OpenedUnused ((new options).steps calls) :=
    ⟨_, List.mem_cons_self, rfl, rfl⟩
  have hupdates : ∀ payload, Call.update payload ∈ calls → isFrame payload = true := by
    simp [calls]
  have hbrings : ∀ call ∈ calls, call.Brings (Scheduled.Feeds 1) :=
    List.forall_mem_cons.mpr ⟨⟨_, rfl, .first⟩, List.forall_mem_cons.mpr
      ⟨trivial, List.forall_mem_singleton.mpr trivial⟩⟩
  have hchannel : summary.channel = ⟨2, 2, 0, summary.channel.bytesSent⟩ := by
    decide +kernel +zetaReduce
  have hlost : summary.sentinelDelivered = false := by
    decide +kernel +zetaReduce
  obtain ⟨left, -, hrun⟩ := scheduled_run options calls .epoch hopened hbrings
  obtain ⟨-, hpipelines⟩ := stream_conserved options calls .epoch hopened hupdates
  obtain ⟨hbalance, -, hclosed⟩ := hpipelines 1 _ _ hrun List.prefix_rfl
  obtain ⟨hended, -⟩ := hclosed rfl
  have hlater := hrun.turns (left.pipeline.queue.waiting.length + 1)
  obtain ⟨-, -, hdone⟩ := hpipelines 1 _ _ hlater List.prefix_rfl
  obtain ⟨-, hframes⟩ := hdone rfl
  have hcount := hframes hended
  rw [hlost, hchannel] at hcount
  exact ⟨hopened, hupdates, hchannel, hlost, left.pipeline, hrun, hbalance, _, hlater, hended,
    hcount⟩

end Session

end LiveLayout
