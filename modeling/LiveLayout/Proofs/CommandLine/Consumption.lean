import LiveLayout.CommandLine.Run
import LiveLayout.Proofs.Session.Conservation
import LiveLayout.Proofs.Session.Driven

/-!
# The consumer of a run

A run streams into a queue whose consumer reads each payload as it arrives. That is one of the
orders in which the two can act, so what the consumer counts by its end is what the summary of the
run says was sent.
-/

namespace LiveLayout

theorem Call.FromLayout.brings {τ : Type} [Transport τ] {call : Call τ} (h : call.FromLayout)
    (Holds : List Contact → τ → Prop) : call.Brings Holds := by
  cases call with
  | start now graph mapper channel => exact h.elim
  | _ => trivial

namespace CommandLine

namespace Attended

theorem attend_eq (attended : Attended) :
    attended.attend = ⟨{ attended.queue with waiting := [] },
      attended.taken + attended.queue.waiting.length⟩ := by
  simp [attend, Queue.drain]

/-- The queue and the number of payloads read are those of a pipeline that the contacts of a stream
may have led to. -/
def Reads (capacity : Nat) (contacts : List Contact) (attended : Attended) : Prop :=
  Streamed contacts → ∃ pipeline, Pipeline.Run capacity contacts pipeline ∧
    pipeline.queue = attended.queue ∧ attended.queue.waiting = [] ∧
      pipeline.consumer.taken.length = attended.taken

variable {capacity : Nat} {contacts : List Contact} {attended : Attended}

theorem Reads.push (h : Reads capacity contacts attended) (payload : Bytes) :
    Reads capacity (contacts ++ [.offer payload (attended.push payload).1])
      (attended.push payload).2 := by
  intro hstreamed
  have hearlier := hstreamed.initial (List.prefix_append _ _)
  obtain ⟨⟨queue, consumer⟩, hrun, rfl, hempty, htaken⟩ := h hearlier
  have hput := hrun.move (.put payload)
  have hconserved := hrun.conserved hearlier
  unfold Attended.push
  rcases attended.queue.push_cases payload with ⟨reason, hpush⟩ | ⟨-, hpush⟩
  · simp only [hpush] at hput ⊢
    refine ⟨_, hput, ?_, ?_, ?_⟩
    · rw [attend_eq, ← hempty]
    · rw [attend_eq]
    · rw [attend_eq, hempty]
      exact htaken
  · -- A consumer that is done has read the sentinel, behind which a stream puts nothing.
    have hrunning : consumer.ended = false := by
      refine Bool.eq_false_iff.mpr fun hended => ?_
      have hnone := hconserved.taken?_push hended hstreamed.frames_of_offer payload
      rw [hpush] at hnone
      cases hnone
    have hread := hput.move .turn
    simp only [hpush] at hread ⊢
    rw [List.append_nil, Pipeline.turn_of_cons hrunning (by rw [hempty]; rfl)] at hread
    refine ⟨_, hread, ?_, ?_, ?_⟩
    · rw [attend_eq]
    · rw [attend_eq]
    · rw [attend_eq, Consumer.taken_read, hempty, List.length_append, htaken]
      rfl

theorem keeps (capacity : Nat) : Transport.Keeps (Reads capacity) where
  trySend h payload := h.push payload
  sendTimeout h payload _ := h.push payload
  close h := by
    intro hstreamed
    obtain ⟨pipeline, hrun, hqueue, hempty, htaken⟩ :=
      h (hstreamed.initial (List.prefix_append _ _))
    exact ⟨_, hrun.move .hangUp, congrArg Queue.hangUp hqueue, hempty, htaken⟩

end Attended

/-- Calls of a session over such a queue came to a summary. The queue they left and the number of
payloads read from it are those of a pipeline that session and consumer may come to in any order of
their actions; all that was sent was read, and once the consumer ends it has counted what the
summary says was sent, less the sentinel if that was delivered. -/
structure Consumed (options : SessionOptions) (capacity : Nat) (now : Instant) (summary : Summary)
    (calls : List (Call Attended)) (left : Attended) (pipeline : Pipeline) : Prop where
  summary_eq : (((Session.new options).after calls).teardown now).1 = summary
  left_eq :
    ((Session.new options).after (calls ++ [.teardown now])).channel.endpoint = .released left
  run : Pipeline.Run capacity
    ((Session.watched options (calls ++ [.teardown now])).flatMap Step.contacts) pipeline
  queue_eq : pipeline.queue = left.queue
  taken_eq : pipeline.consumer.taken.length = left.taken
  sent_eq : left.taken = summary.channel.sent
  ended : pipeline.turn.consumer.ended = true
  frames_eq : pipeline.turn.consumer.frames + (if summary.sentinelDelivered then 1 else 0) =
    summary.channel.sent

section Streaming

variable {options : SessionOptions} {capacity : Nat} {graph : Graph} {now : Instant}
  {layout : Layout} {session : Session Attended}

/-- A session that was started over a queue with such a consumer and ran a layout. -/
theorem exists_pipeline (hstart : (Session.new options).start now graph .standard
      (.onto ⟨Queue.ofCapacity capacity, 0⟩) = .ok session) :
    ∃ calls left pipeline, Consumed options capacity now
      ((layout.run (Session.callback now) session).2.teardown now).1 calls left pipeline := by
  generalize hlast : ((layout.run (Session.callback now) session).2.teardown now).1 = summary
  have hcalls := layout.run_eq_after session now
  have hkinds := layout.fromLayout_calls session now
  generalize layout.calls now session = calls at hcalls hkinds
  let all : List (Call Attended) :=
    .start now graph .standard (.onto ⟨Queue.ofCapacity capacity, 0⟩) :: calls
  have hsummary : (((Session.new options).after all).teardown now).1 = summary := by
    rw [Session.after_of_start hstart, ← hcalls, hlast]
  have hopened : Session.OpenedUnused ((Session.new options).steps all) :=
    ⟨_, List.mem_cons_self, congrArg Prod.fst (Session.perform_of_start hstart), rfl⟩
  have hupdates : ∀ payload, Call.update payload ∈ all → isFrame payload = true := by
    intro payload hmem
    rcases List.mem_cons.mp hmem with hfirst | hlater
    · cases hfirst
    · exact (hkinds _ hlater).elim
  have hbrings : ∀ call ∈ all, call.Brings (Attended.Reads capacity) :=
    List.forall_mem_cons.mpr ⟨⟨_, rfl, fun _ => ⟨_, .first, rfl, rfl, rfl⟩⟩,
      fun call hcall => (hkinds call hcall).brings _⟩
  obtain ⟨left, hleft, hreads⟩ :=
    Session.exists_left (Attended.keeps capacity) options all now hopened hbrings
  have hstreamed := Session.streamed_watched options now hupdates
  obtain ⟨pipeline, hrun, hqueue, hempty, htaken⟩ := hreads hstreamed
  have hconserved := hrun.conserved hstreamed
  have hhungUp := hconserved.closed (Session.close_mem_watched
    (Session.openedUnused_watched_append hopened _) (Session.summary?_watched options all now))
  rw [← hqueue] at hempty
  have hended : pipeline.turn.consumer.ended = true := Pipeline.ended_iterate_turn hhungUp hempty
  have hsent : left.taken = summary.channel.sent := by
    have hbalance := hconserved.balance
    rw [hempty, List.append_nil] at hbalance
    rw [← htaken, hbalance, ← hsummary, Session.sent_eq_length hopened]
  have hframes := Session.frames_of_ended hopened hupdates (hrun.turns 1) hended
  rw [hsummary] at hframes
  exact ⟨all, left, pipeline, hsummary, hleft, hrun, hqueue, htaken, hsent, hended, hframes⟩

end Streaming

/-- In a run that comes to its summary the consumer has read all that was sent. -/
theorem stream_consumed {config : Config} {graph : Graph} {seed : Nat} {now : Instant}
    {summary : Summary} (h : stream config graph seed now = .ok summary) :
    ∃ calls left pipeline,
      Consumed config.sessionOptions config.queueCapacity now summary calls left pipeline := by
  simp only [stream] at h
  split at h
  · cases h
  next session hstart =>
    obtain ⟨-, -, rfl⟩ := map_eq_ok_iff.mp h
    exact exists_pipeline hstart

end CommandLine

end LiveLayout
