import LiveLayout.Proofs.Channel.Passage
import LiveLayout.Proofs.Channel.Queue
import LiveLayout.Proofs.Session.Sentinel

/-!
# A queue and its consumer

The consumer of a queue reads one payload after another until it reads the sentinel, or until the
queue is empty and its producer has hung up. Producer and consumer act in any order. As long as the
producer sends frames, then the sentinel, and then hangs up, nothing that the queue took is lost or
read twice, and the consumer counts the frames among it.
-/

namespace LiveLayout

/-! ## Streams -/

/-- The payload is read as a frame. -/
def isFrame (payload : Bytes) : Bool := (frameKind? payload).isSome

theorem decode_of_isFrame {payload : Bytes} (h : isFrame payload = true) :
    ∃ frame, Message.decode payload = .ok (.frame frame) := by
  unfold isFrame frameKind? at h
  split at h
  · exact ⟨_, ‹_›⟩
  · cases h

theorem not_isFrame_sentinel : isFrame closeSentinel = false := by
  rw [isFrame, frameKind?, decode_eq_close_iff.mpr rfl]
  rfl

/-- A payload of a stream: a frame or the sentinel. -/
theorem exists_decode {payload : Bytes} (h : isFrame payload = true ∨ payload = closeSentinel) :
    ∃ message, Message.decode payload = .ok message := by
  rcases h with hframe | hsentinel
  · obtain ⟨frame, hdecode⟩ := decode_of_isFrame hframe
    exact ⟨_, hdecode⟩
  · exact ⟨_, decode_eq_close_iff.mpr hsentinel⟩

/-- The contact puts a frame to the transport. -/
def Contact.offersFrame (contact : Contact) : Bool := contact.kind?.isSome

theorem Contact.isFrame_of_taken {contact : Contact} {payload : Bytes}
    (h : contact.offersFrame = true) (htaken : contact.taken? = some payload) :
    isFrame payload = true := by
  rcases contact with ⟨offered, _ | _⟩ | _ <;> cases htaken
  exact h

/-- The contacts of a stream so far: those of frames, that of the sentinel, then the closing. -/
inductive Streamed : List Contact → Prop where
  | frames {contacts : List Contact} (h : ∀ contact ∈ contacts, contact.offersFrame = true) :
      Streamed contacts
  | sentinel {contacts : List Contact} (h : ∀ contact ∈ contacts, contact.offersFrame = true)
      (answer : SendResult) : Streamed (contacts ++ [.offer closeSentinel answer])
  | closed {contacts : List Contact} (h : ∀ contact ∈ contacts, contact.offersFrame = true)
      (answer : SendResult) : Streamed (contacts ++ [.offer closeSentinel answer] ++ [.close])

/-- The frames that were taken off some contacts with frames. -/
theorem isFrame_of_mem_taken {contacts : List Contact}
    (h : ∀ contact ∈ contacts, contact.offersFrame = true) :
    ∀ payload ∈ contacts.filterMap Contact.taken?, isFrame payload = true := by
  intro payload hpayload
  obtain ⟨contact, hcontact, htaken⟩ := List.mem_filterMap.mp hpayload
  exact Contact.isFrame_of_taken (h contact hcontact) htaken

namespace Streamed

variable {contacts earlier : List Contact}

theorem initial (h : Streamed contacts) (hearlier : earlier <+: contacts) : Streamed earlier := by
  cases h with
  | frames h => exact .frames fun contact hcontact => h contact (hearlier.subset hcontact)
  | @sentinel contacts h answer =>
      rcases List.prefix_concat_iff.mp hearlier with rfl | hfront
      · exact .sentinel h answer
      · exact .frames fun contact hcontact => h contact (hfront.subset hcontact)
  | @closed contacts h answer =>
      rcases List.prefix_concat_iff.mp hearlier with rfl | hearlier
      · exact .closed h answer
      rcases List.prefix_concat_iff.mp hearlier with rfl | hfront
      · exact .sentinel h answer
      · exact .frames fun contact hcontact => h contact (hfront.subset hcontact)

/-- Before something is put to the transport there were only frames. -/
theorem frames_of_offer {payload : Bytes} {answer : SendResult}
    (h : Streamed (contacts ++ [.offer payload answer])) :
    ∀ contact ∈ contacts, contact.offersFrame = true := by
  generalize hall : contacts ++ [.offer payload answer] = all at h
  cases h with
  | frames h =>
      subst hall
      exact fun contact hcontact => h contact (List.mem_append_left _ hcontact)
  | sentinel h answer =>
      obtain ⟨rfl, -⟩ := List.append_inj' hall rfl
      exact h
  | closed h answer =>
      obtain ⟨-, hlast⟩ := List.append_inj' hall rfl
      cases hlast

/-- What is taken off a stream: frames, and at most one sentinel behind them. -/
theorem exists_taken (h : Streamed contacts) :
    ∃ frames ending, contacts.filterMap Contact.taken? = frames ++ ending ∧
      (∀ payload ∈ frames, isFrame payload = true) ∧ (ending = [] ∨ ending = [closeSentinel]) := by
  cases h with
  | frames h =>
      exact ⟨_, [], (List.append_nil _).symm, isFrame_of_mem_taken h, .inl rfl⟩
  | sentinel h answer =>
      refine ⟨_, _, List.filterMap_append, isFrame_of_mem_taken h, ?_⟩
      cases answer
      · exact .inr rfl
      · exact .inl rfl
  | closed h answer =>
      rw [List.append_assoc]
      refine ⟨_, _, List.filterMap_append, isFrame_of_mem_taken h, ?_⟩
      cases answer
      · exact .inr rfl
      · exact .inl rfl

/-- Everything that is taken off a stream is a message. -/
theorem decodes (h : Streamed contacts) :
    ∀ payload ∈ contacts.filterMap Contact.taken?, ∃ message,
      Message.decode payload = .ok message := by
  obtain ⟨frames, ending, htaken, hframes, hending⟩ := h.exists_taken
  intro payload hpayload
  rw [htaken, List.mem_append] at hpayload
  refine exists_decode (hpayload.imp (hframes payload) fun hmem => ?_)
  rcases hending with rfl | rfl
  · cases hmem
  · exact List.mem_singleton.mp hmem

/-- The sentinel is the last that is taken off a stream. -/
theorem nil_of_sentinel {before behind : List Bytes} (h : Streamed contacts)
    (htaken : contacts.filterMap Contact.taken? = before ++ closeSentinel :: behind) :
    behind = [] := by
  obtain ⟨frames, ending, hall, hframes, hending⟩ := h.exists_taken
  have hnot : closeSentinel ∉ frames := by
    intro hmem
    have hframe := hframes closeSentinel hmem
    rw [not_isFrame_sentinel] at hframe
    cases hframe
  rw [htaken] at hall
  rcases hending with rfl | rfl
  · rw [List.append_nil] at hall
    exact absurd (hall ▸ List.mem_append_right _ List.mem_cons_self) hnot
  · cases behind using List.reverseRecOn with
    | nil => rfl
    | append_singleton rest last =>
        rw [← List.cons_append, ← List.append_assoc] at hall
        obtain ⟨hfront, -⟩ := List.append_inj' hall rfl
        exact absurd (hfront ▸ List.mem_append_right _ List.mem_cons_self) hnot

end Streamed

/-! ## Consumers -/

/-- A consumer: what it has read so far, how many frames it has counted in that, and whether it is
done. -/
structure Consumer where
  taken : List Bytes
  frames : Nat
  ended : Bool
  deriving DecidableEq, Repr

namespace Consumer

/-- A consumer that has read nothing. -/
def fresh : Consumer := ⟨[], 0, false⟩

/-- Reads a payload. The sentinel ends it, and a payload that is no message is passed over. -/
def read (consumer : Consumer) (payload : Bytes) : Consumer :=
  let consumer := { consumer with taken := consumer.taken ++ [payload] }
  match Message.decode payload with
  | .ok .close => { consumer with ended := true }
  | .ok (.frame _) => { consumer with frames := consumer.frames + 1 }
  | .error _ => consumer

/-- Ends, since nothing more will come. -/
def finish (consumer : Consumer) : Consumer := { consumer with ended := true }

theorem taken_read (consumer : Consumer) (payload : Bytes) :
    (consumer.read payload).taken = consumer.taken ++ [payload] := by
  unfold read
  split <;> rfl

/-- Only the sentinel ends a consumer. -/
theorem ended_read {consumer : Consumer} {payload : Bytes} (hrunning : consumer.ended = false)
    (h : (consumer.read payload).ended = true) : payload = closeSentinel := by
  unfold read at h
  split at h
  · exact decode_eq_close_iff.mp ‹_›
  · exact absurd (hrunning.symm.trans h) Bool.false_ne_true
  · exact absurd (hrunning.symm.trans h) Bool.false_ne_true

/-- A consumer counts the frames among what it reads. -/
theorem frames_read {consumer : Consumer} (h : consumer.frames = consumer.taken.countP isFrame)
    (payload : Bytes) :
    (consumer.read payload).frames = (consumer.read payload).taken.countP isFrame := by
  rw [taken_read, List.countP_append, ← h, List.countP_singleton, isFrame, frameKind?]
  unfold read
  cases Message.decode payload with
  | error error => rfl
  | ok message => cases message <;> rfl

end Consumer

/-! ## Pipelines -/

/-- A queue with its consumer. -/
structure Pipeline where
  queue : Queue
  consumer : Consumer
  deriving DecidableEq, Repr

namespace Pipeline

/-- An empty queue with a consumer that has read nothing. -/
def ofCapacity (capacity : Nat) : Pipeline := ⟨.ofCapacity capacity, .fresh⟩

/-- What the consumer does next. It waits on an empty queue as long as something may come, and once
it is done it lets go of the queue. -/
def turn (pipeline : Pipeline) : Pipeline :=
  if pipeline.consumer.ended then { pipeline with queue := pipeline.queue.abandon }
  else match pipeline.queue.waiting with
    | payload :: _ => ⟨(pipeline.queue.drain 1).2, pipeline.consumer.read payload⟩
    | [] =>
      if pipeline.queue.producing then pipeline
      else { pipeline with consumer := pipeline.consumer.finish }

section Turn

variable {pipeline : Pipeline}

theorem turn_of_ended (h : pipeline.consumer.ended = true) :
    pipeline.turn = { pipeline with queue := pipeline.queue.abandon } := by
  rw [turn, if_pos h]

theorem turn_of_cons {payload : Bytes} {rest : List Bytes} (h : pipeline.consumer.ended = false)
    (hwaiting : pipeline.queue.waiting = payload :: rest) :
    pipeline.turn =
      ⟨{ pipeline.queue with waiting := rest }, pipeline.consumer.read payload⟩ := by
  simp only [turn, h, Bool.false_eq_true, if_false, hwaiting, Queue.drain, List.drop_one,
    List.tail_cons]

theorem turn_of_nil (h : pipeline.consumer.ended = false) (hwaiting : pipeline.queue.waiting = []) :
    pipeline.turn = if pipeline.queue.producing then pipeline
      else { pipeline with consumer := pipeline.consumer.finish } := by
  simp only [turn, h, Bool.false_eq_true, if_false, hwaiting]

theorem ended_turn (h : pipeline.consumer.ended = true) : pipeline.turn.consumer.ended = true := by
  rw [turn_of_ended h]
  exact h

theorem ended_iterate_turn_of_ended (h : pipeline.consumer.ended = true) (turns : Nat) :
    (turn^[turns] pipeline).consumer.ended = true :=
  Function.Iterate.rec (fun pipeline : Pipeline => pipeline.consumer.ended = true) h
    (fun _ h => ended_turn h) turns

/-- Once the producer has hung up, the consumer comes to its end by reading what waits. -/
theorem ended_iterate_turn {waiting : List Bytes} (hproducing : pipeline.queue.producing = false)
    (hwaiting : pipeline.queue.waiting = waiting) :
    (turn^[waiting.length + 1] pipeline).consumer.ended = true := by
  induction waiting generalizing pipeline with
  | nil =>
      rw [Function.iterate_succ_apply]
      cases hended : pipeline.consumer.ended with
      | true => exact ended_turn hended
      | false =>
          rw [turn_of_nil hended hwaiting, hproducing]
          rfl
  | cons payload rest ih =>
      rw [Function.iterate_succ_apply]
      cases hended : pipeline.consumer.ended with
      | true => exact ended_iterate_turn_of_ended (ended_turn hended) _
      | false =>
          rw [turn_of_cons hended hwaiting]
          exact ih hproducing rfl

end Turn

/-- What can happen next, with the contact that the producer has by it. A timed send of the sentinel
may give up at any time. -/
inductive Move (pipeline : Pipeline) : List Contact → Pipeline → Prop where
  | put (payload : Bytes) :
      Move pipeline [.offer payload (pipeline.queue.push payload).1]
        { pipeline with queue := (pipeline.queue.push payload).2 }
  | giveUp : Move pipeline [.offer closeSentinel (.dropped .wouldBlock)] pipeline
  | hangUp : Move pipeline [.close] { pipeline with queue := pipeline.queue.hangUp }
  | turn : Move pipeline [] pipeline.turn

/-- The pipelines that a new one may become, with the contacts that the producer has had. -/
inductive Run (capacity : Nat) : List Contact → Pipeline → Prop where
  | first : Run capacity [] (.ofCapacity capacity)
  | move {contacts seen : List Contact} {pipeline next : Pipeline}
      (run : Run capacity contacts pipeline) (h : pipeline.Move seen next) :
      Run capacity (contacts ++ seen) next

/-- What was taken off the contacts of a stream is what was read and what waits. A consumer that is
done has read everything, be it up to the sentinel or up to the end. -/
structure Conserved (contacts : List Contact) (pipeline : Pipeline) : Prop where
  balance : pipeline.consumer.taken ++ pipeline.queue.waiting = contacts.filterMap Contact.taken?
  counted : pipeline.consumer.frames = pipeline.consumer.taken.countP isFrame
  ended : pipeline.consumer.ended = true → pipeline.queue.waiting = [] ∧
    (closeSentinel ∈ pipeline.consumer.taken ∨ pipeline.queue.producing = false)
  closed : .close ∈ contacts → pipeline.queue.producing = false

section Invariant

variable {contacts seen : List Contact} {pipeline next : Pipeline}

/-- Once the consumer is done the queue takes nothing more of a stream. -/
theorem Conserved.taken?_push (h : Conserved contacts pipeline)
    (hended : pipeline.consumer.ended = true)
    (hframes : ∀ contact ∈ contacts, contact.offersFrame = true) (payload : Bytes) :
    (Contact.offer payload (pipeline.queue.push payload).1).taken? = none := by
  rcases (h.ended hended).2 with hsentinel | hhungUp
  · have hmem := h.balance ▸ List.mem_append_left pipeline.queue.waiting hsentinel
    have hframe := isFrame_of_mem_taken hframes closeSentinel hmem
    rw [not_isFrame_sentinel] at hframe
    cases hframe
  · exact Queue.taken?_push_of_hungUp hhungUp payload

theorem Conserved.put (h : Conserved contacts pipeline) (payload : Bytes)
    (hframes : ∀ contact ∈ contacts, contact.offersFrame = true) :
    Conserved (contacts ++ [.offer payload (pipeline.queue.push payload).1])
      { pipeline with queue := (pipeline.queue.push payload).2 } where
  balance := by
    rw [Queue.waiting_push, ← List.append_assoc, h.balance, List.filterMap_append]
  counted := h.counted
  ended := by
    intro hended
    obtain ⟨hempty, hreason⟩ := h.ended hended
    have hnone := h.taken?_push hended hframes payload
    refine ⟨?_, ?_⟩
    · rw [Queue.waiting_push, hempty, List.filterMap_cons_none hnone]
      rfl
    · rw [Queue.producing_push]
      exact hreason
  closed := by
    intro hclose
    rw [Queue.producing_push]
    exact h.closed (by simpa using hclose)

/-- A turn of the consumer only moves what waits to what was read. -/
theorem Conserved.turn (h : Conserved contacts pipeline) (hstreamed : Streamed contacts) :
    Conserved contacts pipeline.turn := by
  cases hended : pipeline.consumer.ended with
  | true =>
      obtain ⟨hempty, hreason⟩ := h.ended hended
      rw [turn_of_ended hended]
      refine ⟨?_, h.counted, fun _ => ⟨rfl, hreason⟩, h.closed⟩
      rw [← h.balance, hempty]
      rfl
  | false =>
      cases hwaiting : pipeline.queue.waiting with
      | cons payload rest =>
          have hbalance := h.balance
          rw [hwaiting] at hbalance
          rw [turn_of_cons hended hwaiting]
          refine ⟨?_, Consumer.frames_read h.counted payload, fun hread => ?_, h.closed⟩
          · rw [Consumer.taken_read, ← hbalance, List.append_assoc, List.singleton_append]
          · -- Only the sentinel ends the consumer, and nothing was put to the queue behind it.
            obtain rfl := Consumer.ended_read hended hread
            refine ⟨hstreamed.nil_of_sentinel hbalance.symm, .inl ?_⟩
            rw [Consumer.taken_read]
            exact List.mem_append_right _ List.mem_cons_self
      | nil =>
          rw [turn_of_nil hended hwaiting]
          split_ifs with hproducing
          · exact h
          · exact ⟨h.balance, h.counted,
              fun _ => ⟨hwaiting, .inr (Bool.eq_false_iff.mpr hproducing)⟩, h.closed⟩

theorem Conserved.move (h : Conserved contacts pipeline) (hmove : pipeline.Move seen next)
    (hstreamed : Streamed (contacts ++ seen)) : Conserved (contacts ++ seen) next := by
  cases hmove with
  | put payload => exact h.put payload hstreamed.frames_of_offer
  | giveUp =>
      refine ⟨?_, h.counted, h.ended, fun hclose => h.closed (by simpa using hclose)⟩
      rw [h.balance, List.filterMap_append]
      exact (List.append_nil _).symm
  | hangUp =>
      refine ⟨?_, h.counted, fun hended => ⟨(h.ended hended).1, .inr rfl⟩, fun _ => rfl⟩
      rw [List.filterMap_append]
      exact h.balance.trans (List.append_nil _).symm
  | turn =>
      rw [List.append_nil] at hstreamed ⊢
      exact h.turn hstreamed

/-- In every order of actions, nothing of a stream is lost between producer and consumer. -/
theorem Run.conserved {capacity : Nat} (h : Run capacity contacts pipeline)
    (hstreamed : Streamed contacts) : Conserved contacts pipeline := by
  induction h with
  | first => exact ⟨rfl, rfl, nofun, nofun⟩
  | move run hmove ih =>
      exact (ih (hstreamed.initial (List.prefix_append _ _))).move hmove hstreamed

end Invariant

theorem Run.turns {capacity : Nat} {contacts : List Contact} {pipeline : Pipeline}
    (h : Run capacity contacts pipeline) (turns : Nat) :
    Run capacity contacts (turn^[turns] pipeline) := by
  induction turns with
  | zero => exact h
  | succ turns ih =>
      rw [Function.iterate_succ_apply']
      exact List.append_nil contacts ▸ ih.move .turn

end Pipeline

/-! ## Schedules -/

/-- A pipeline as a transport: before each contact the consumer takes as many turns as the schedule
says. -/
structure Scheduled where
  pipeline : Pipeline
  turns : List Nat
  deriving DecidableEq, Repr

namespace Scheduled

/-- The consumer takes the turns that are next. -/
def advance (scheduled : Scheduled) : Scheduled :=
  ⟨Pipeline.turn^[scheduled.turns.headD 0] scheduled.pipeline, scheduled.turns.tail⟩

/-- Puts a payload to the queue after the next turns. -/
def put (scheduled : Scheduled) (payload : Bytes) : SendResult × Scheduled :=
  let scheduled := scheduled.advance
  let (answer, queue) := scheduled.pipeline.queue.push payload
  (answer, { scheduled with pipeline := { scheduled.pipeline with queue } })

/-- Hangs up after the next turns. -/
def hangUp (scheduled : Scheduled) : Scheduled :=
  let scheduled := scheduled.advance
  { scheduled with
    pipeline := { scheduled.pipeline with queue := scheduled.pipeline.queue.hangUp } }

/-- A timed send finds room if there is any after the next turns. -/
instance : Transport Scheduled where
  name _ := "scheduled"
  trySend := put
  sendTimeout scheduled payload _ := scheduled.put payload
  close := hangUp

/-- The pipeline is one that the contacts so far may have led to. -/
def Feeds (capacity : Nat) (contacts : List Contact) (scheduled : Scheduled) : Prop :=
  Pipeline.Run capacity contacts scheduled.pipeline

theorem keeps (capacity : Nat) : Transport.Keeps (Feeds capacity) where
  trySend h payload := (h.turns _).move (.put payload)
  sendTimeout h payload _ := (h.turns _).move (.put payload)
  close h := (h.turns _).move .hangUp

end Scheduled

end LiveLayout
