import LiveLayout.Proofs.Channel.Queue
import LiveLayout.Proofs.Channel.Receiver

/-!
# Delivery over a connection

A producer fills a queue, a writer puts what waits on a connection, and a receiver reads it there in
pieces of any size. The connection keeps the order of its bytes and loses none. In whatever order the
three act, what the receiver has returned is the first of what the queue took, and once the producer
has hung up the receiver comes to return all of it, and then the end.
-/

namespace LiveLayout

namespace Publisher

/-- Closing a publisher is hanging up and then writing what waits, one payload after another. -/
theorem close_eq_iterate_write (publisher : Publisher) :
    Transport.close publisher =
      write^[publisher.queue.waiting.length]
        { publisher with queue := publisher.queue.hangUp } := by
  rcases publisher with ⟨⟨capacity, waiting, producing, consuming⟩, written?⟩
  induction waiting generalizing written? with
  | nil => cases written? <;> simp [Transport.close, flush, Queue.hangUp]
  | cons payload rest ih =>
      rw [List.length_cons, Function.iterate_succ_apply]
      refine Eq.trans ?_ (ih _)
      cases written? <;> simp [Transport.close, flush, Queue.hangUp]

theorem write_eq {publisher : Publisher} {payload bytes : Bytes} {rest : List Bytes}
    (hwaiting : publisher.queue.waiting = payload :: rest)
    (hwritten : publisher.written? = some bytes) :
    publisher.write =
      ⟨{ publisher.queue with waiting := rest }, some (bytes ++ delimited payload)⟩ := by
  simp only [write, hwaiting, hwritten, Option.map_some]

/-- Hands a payload to the writer, which writes it at once. -/
def handOver (publisher : Publisher) (payload : Bytes) : Publisher :=
  write { publisher with
    queue := { publisher.queue with waiting := publisher.queue.waiting ++ [payload] } }

end Publisher

/-- A publisher with its subscriber: whether the writer has ended the connection, how many of the
bytes written were read, the receiver with those that the current call has read, what earlier calls
returned, and how receiving ended if it has. -/
structure Connection where
  publisher : Publisher
  shut : Bool
  carried : Nat
  receiver : Receiver
  returned : List Bytes
  ending? : Option (Except StreamError Unit)

namespace Connection

/-- A subscriber that allows payloads up to a limit has connected, and nothing was sent yet. -/
def ofCapacity (capacity limit : Nat) : Connection :=
  ⟨(Publisher.ofCapacity capacity).subscribe, false, 0, ⟨[], limit⟩, [], none⟩

/-- The bytes that are written and were not read yet, wherever they are on their way. -/
def inFlight (connection : Connection) : Bytes :=
  (connection.publisher.written?.getD []).drop connection.carried

/-- The current call of the receiver reads some more bytes. -/
def read (connection : Connection) (count : Nat) : Connection :=
  { connection with
    carried := connection.carried + count
    receiver := { connection.receiver with
      unread := connection.receiver.unread ++ connection.inFlight.take count } }

/-- The current call returns: a payload, or how receiving ends. -/
def answer (connection : Connection) : Connection :=
  match connection.receiver.next with
  | (.ok (some payload), receiver) =>
    { connection with receiver, returned := connection.returned ++ [payload] }
  | (.ok none, receiver) => { connection with receiver, ending? := some (.ok ()) }
  | (.error error, receiver) => { connection with receiver, ending? := some (.error error) }

/-- What can happen next, with the contact that the producer has by it. A timed send may give up at
any time. A queue without a place takes nothing, but a payload may be handed to a writer that waits
for one. The receiver reads pieces of any size, up to what its call asks for, and the call returns
when it has that or when nothing more will come. -/
inductive Move (connection : Connection) : List Contact → Connection → Prop where
  | trySend (payload : Bytes) :
      Move connection [.offer payload (Transport.trySend connection.publisher payload).1]
        { connection with publisher := (Transport.trySend connection.publisher payload).2 }
  | sendTimeout (payload : Bytes) (timeout : Nat) :
      Move connection
        [.offer payload (Transport.sendTimeout connection.publisher payload timeout).1]
        { connection with
          publisher := (Transport.sendTimeout connection.publisher payload timeout).2 }
  | handOver (payload : Bytes) (hplaces : connection.publisher.queue.capacity = 0)
      (hopen : connection.publisher.queue.producing = true) :
      Move connection [.offer payload .delivered]
        { connection with publisher := connection.publisher.handOver payload }
  | giveUp (payload : Bytes) :
      Move connection [.offer payload (.dropped .wouldBlock)] connection
  | hangUp :
      Move connection [.close]
        { connection with
          publisher := { connection.publisher with queue := connection.publisher.queue.hangUp } }
  | write (h : connection.publisher.queue.waiting ≠ []) :
      Move connection [] { connection with publisher := connection.publisher.write }
  | shut (hopen : connection.shut = false) (hhungUp : connection.publisher.queue.producing = false)
      (h : connection.publisher.queue.waiting = []) :
      Move connection [] { connection with shut := true }
  | read (running : connection.ending? = none) (count : Nat) (hcount : 0 < count)
      (hwanted : count ≤ connection.receiver.wants) (h : count ≤ connection.inFlight.length) :
      Move connection [] (connection.read count)
  | answer (running : connection.ending? = none)
      (h : connection.receiver.wants = 0 ∨ connection.shut = true ∧ connection.inFlight = []) :
      Move connection [] connection.answer

/-- The connections that a new one may become, with the contacts that the producer has had. -/
inductive Run (capacity limit : Nat) : List Contact → Connection → Prop where
  | first : Run capacity limit [] (.ofCapacity capacity limit)
  | move {contacts seen : List Contact} {connection next : Connection}
      (run : Run capacity limit contacts connection) (h : connection.Move seen next) :
      Run capacity limit (contacts ++ seen) next

section Closing

variable {capacity limit : Nat} {contacts : List Contact} {connection : Connection}

theorem Run.writes {waiting : List Bytes} (h : Run capacity limit contacts connection)
    (hwaiting : connection.publisher.queue.waiting = waiting) :
    Run capacity limit contacts { connection with
      publisher := Publisher.write^[waiting.length] connection.publisher } := by
  induction waiting generalizing connection with
  | nil => exact h
  | cons payload rest ih =>
      have hsome : connection.publisher.queue.waiting ≠ [] := by
        rw [hwaiting]
        exact List.cons_ne_nil payload rest
      have hwritten := h.move (.write hsome)
      rw [List.append_nil] at hwritten
      refine ih hwritten ?_
      rw [Publisher.write, hwaiting]

/-- Closing the publisher and waiting for its writer is hanging up and some moves of the writer. -/
theorem Run.close (h : Run capacity limit contacts connection) :
    Run capacity limit (contacts ++ [.close])
      { connection with publisher := Transport.close connection.publisher } := by
  rw [Publisher.close_eq_iterate_write]
  exact (h.move .hangUp).writes rfl

end Closing

/-- The bytes that the receiver has read so far: those of what it has returned and of the current
call. -/
def front (connection : Connection) : Bytes :=
  connection.returned.flatMap delimited ++ connection.receiver.unread

/-- Where the payloads are that the queue took. The receiver has returned the first of them; then
come those that are written, the first of which may have been read in part; and the rest waits. -/
structure Delivers (limit : Nat) (contacts : List Contact) (connection : Connection)
    (written : List Bytes) (flight : Bytes) : Prop where
  accepted : contacts.filterMap Contact.taken? =
    connection.returned ++ written ++ connection.publisher.queue.waiting
  limit_eq : connection.receiver.limit = limit
  written? : connection.publisher.written? = some (connection.front ++ flight)
  carried : connection.carried = connection.front.length
  bytes : connection.receiver.unread ++ flight = written.flatMap delimited
  within : ∀ payload rest, written = payload :: rest →
    connection.receiver.unread <+: delimited payload
  shut : connection.shut = true → connection.publisher.queue.waiting = [] ∧
    connection.publisher.queue.producing = false
  closed : .close ∈ contacts ↔ connection.publisher.queue.producing = false
  ending : ∀ result, connection.ending? = some result →
    result = .ok () ∧ written = [] ∧ connection.shut = true

section Invariant

variable {limit : Nat} {contacts seen : List Contact} {connection next : Connection}
  {written : List Bytes} {flight : Bytes}

theorem Delivers.inFlight_eq (h : Delivers limit contacts connection written flight) :
    connection.inFlight = flight := by
  rw [inFlight, h.written?, h.carried, Option.getD_some, List.drop_left]

theorem delivers_first (capacity limit : Nat) :
    Delivers limit [] (.ofCapacity capacity limit) [] [] :=
  ⟨rfl, rfl, rfl, rfl, rfl, nofun, nofun, by simp [ofCapacity, Publisher.ofCapacity,
    Publisher.subscribe, Queue.ofCapacity], nofun⟩

/-- A payload is put to the queue and taken or not. -/
theorem Delivers.offer {queue : Queue} {payload : Bytes} {answer : SendResult}
    (h : Delivers limit contacts connection written flight)
    (hwaiting : queue.waiting = connection.publisher.queue.waiting ++
      [Contact.offer payload answer].filterMap Contact.taken?)
    (hproducing : queue.producing = connection.publisher.queue.producing)
    (hrefused : connection.publisher.queue.producing = false →
      (Contact.offer payload answer).taken? = none) :
    Delivers limit (contacts ++ [.offer payload answer])
      { connection with publisher := { connection.publisher with queue } } written flight where
  accepted := by
    rw [List.filterMap_append, h.accepted, hwaiting, List.append_assoc]
  limit_eq := h.limit_eq
  written? := h.written?
  carried := h.carried
  bytes := h.bytes
  within := h.within
  shut := by
    intro hshut
    obtain ⟨hnone, hhungUp⟩ := h.shut hshut
    refine ⟨?_, hproducing.trans hhungUp⟩
    rw [hwaiting, hnone, List.filterMap_cons_none (hrefused hhungUp)]
    rfl
  closed := by
    rw [hproducing, ← h.closed]
    simp
  ending := h.ending

theorem Delivers.push (h : Delivers limit contacts connection written flight) (payload : Bytes) :
    Delivers limit
      (contacts ++ [.offer payload (connection.publisher.queue.push payload).1])
      { connection with publisher :=
        { connection.publisher with queue := (connection.publisher.queue.push payload).2 } }
      written flight :=
  h.offer (Queue.waiting_push _ _) (Queue.producing_push _ _)
    fun hhungUp => Queue.taken?_push_of_hungUp hhungUp payload

/-- The writer writes the first payload that waits behind those that are written. -/
theorem Delivers.write {payload : Bytes} {rest : List Bytes}
    (h : Delivers limit contacts connection written flight)
    (hwaiting : connection.publisher.queue.waiting = payload :: rest) :
    Delivers limit contacts { connection with publisher := connection.publisher.write }
      (written ++ [payload]) (flight ++ delimited payload) := by
  have hnotShut : connection.shut ≠ true := by
    intro hshut
    rw [(h.shut hshut).1] at hwaiting
    cases hwaiting
  rw [Publisher.write_eq hwaiting h.written?, List.append_assoc]
  refine ⟨?_, h.limit_eq, rfl, h.carried, ?_, ?_, fun hshut => absurd hshut hnotShut, h.closed,
    fun result hresult => absurd (h.ending result hresult).2.2 hnotShut⟩
  · rw [h.accepted, hwaiting]
    simp
  · rw [← List.append_assoc, h.bytes, List.flatMap_append, List.flatMap_singleton]
  · intro first later hfirst
    cases written with
    | nil =>
        have hnone : connection.receiver.unread = [] := (List.append_eq_nil_iff.mp h.bytes).1
        exact hnone ▸ List.nil_prefix
    | cons second others =>
        obtain ⟨rfl, -⟩ := List.cons.inj hfirst
        exact h.within _ _ rfl

/-- Without a place in the queue a payload is taken by being written. -/
theorem Delivers.handOver (h : Delivers limit contacts connection written flight) (payload : Bytes)
    (hopen : connection.publisher.queue.producing = true) :
    ∃ written flight, Delivers limit (contacts ++ [.offer payload .delivered])
      { connection with publisher := connection.publisher.handOver payload } written flight := by
  have htaken : Delivers limit (contacts ++ [.offer payload .delivered])
      { connection with publisher := { connection.publisher with queue :=
        { connection.publisher.queue with
          waiting := connection.publisher.queue.waiting ++ [payload] } } } written flight :=
    h.offer rfl rfl fun hhungUp => absurd (hopen.symm.trans hhungUp) Bool.noConfusion
  obtain ⟨first, rest, hwaiting⟩ := List.exists_cons_of_ne_nil
    (List.append_ne_nil_of_right_ne_nil connection.publisher.queue.waiting
      (List.cons_ne_nil payload []))
  exact ⟨_, _, htaken.write hwaiting⟩

theorem Delivers.hangUp (h : Delivers limit contacts connection written flight) :
    Delivers limit (contacts ++ [.close])
      { connection with
        publisher := { connection.publisher with queue := connection.publisher.queue.hangUp } }
      written flight where
  accepted := by
    rw [List.filterMap_append, h.accepted]
    exact List.append_nil _
  limit_eq := h.limit_eq
  written? := h.written?
  carried := h.carried
  bytes := h.bytes
  within := h.within
  shut := fun hshut => ⟨(h.shut hshut).1, rfl⟩
  closed := iff_of_true (List.mem_append_right _ List.mem_cons_self) rfl
  ending := h.ending

/-- The receiver never reads beyond the payload that it is in. -/
theorem Delivers.read {count : Nat} (h : Delivers limit contacts connection written flight)
    (hdeliverable : ∀ payload ∈ written, Deliverable limit payload)
    (hwanted : count ≤ connection.receiver.wants) (hcount : count ≤ flight.length) :
    Delivers limit contacts (connection.read count) written (flight.drop count) := by
  have hfront : (connection.read count).front = connection.front ++ flight.take count := by
    rw [Connection.read, front, front, h.inFlight_eq, List.append_assoc]
  have hunread : (connection.read count).receiver.unread =
      connection.receiver.unread ++ flight.take count := by
    rw [Connection.read, h.inFlight_eq]
  refine ⟨h.accepted, h.limit_eq, ?_, ?_, ?_, ?_, h.shut, h.closed, h.ending⟩
  · rw [hfront, List.append_assoc, List.take_append_drop]
    exact h.written?
  · rw [hfront, List.length_append, List.length_take_of_le hcount, ← h.carried]
    rfl
  · rw [hunread, List.append_assoc, List.take_append_drop]
    exact h.bytes
  · rintro payload rest rfl
    have hpayload := hdeliverable payload List.mem_cons_self
    obtain ⟨hwithin, -⟩ := Receiver.wants_within hpayload (h.within _ _ rfl)
    have hread : connection.receiver.unread ++ flight.take count <+:
        (payload :: rest).flatMap delimited := by
      rw [← h.bytes]
      exact (List.prefix_append_right_inj _).mpr (List.take_prefix _ _)
    have hfirst : delimited payload <+: (payload :: rest).flatMap delimited := by
      rw [List.flatMap_cons]
      exact List.prefix_append _ _
    rw [hunread]
    refine List.prefix_of_prefix_length_le hread hfirst ?_
    rw [← h.limit_eq] at hwithin
    rw [List.length_append, List.length_take_of_le hcount]
    exact Nat.le_trans (Nat.add_le_add_left hwanted _) hwithin

/-- A call that returns a payload has read the whole of it and nothing else. -/
theorem Delivers.unread_eq {payload : Bytes} {rest : List Bytes}
    (h : Delivers limit contacts connection (payload :: rest) flight)
    (hpayload : Deliverable limit payload)
    (hready : connection.receiver.wants = 0 ∨ connection.shut = true ∧ connection.inFlight = []) :
    connection.receiver.unread = delimited payload := by
  -- Without more bytes to come there is only one payload written, and the receiver is at its end.
  rcases hready with hnone | ⟨-, hempty⟩
  · have hwants := (Receiver.wants_within hpayload (h.within _ _ rfl)).2
    rw [← h.limit_eq] at hwants
    exact hwants hnone
  · have hbytes := h.bytes
    rw [← h.inFlight_eq, hempty, List.append_nil, List.flatMap_cons] at hbytes
    have hlength := (h.within _ _ rfl).length_le
    rw [hbytes, List.length_append] at hlength
    exact (h.within _ _ rfl).eq_of_length (by rw [hbytes, List.length_append]; omega)

/-- A call that returns a payload returns the first of those that are written. -/
theorem Delivers.answer_payload {payload : Bytes} {rest : List Bytes}
    (h : Delivers limit contacts connection (payload :: rest) flight)
    (hpayload : Deliverable limit payload)
    (hready : connection.receiver.wants = 0 ∨ connection.shut = true ∧ connection.inFlight = []) :
    connection.answer = { connection with
      receiver := ⟨[], limit⟩, returned := connection.returned ++ [payload] } ∧
      Delivers limit contacts connection.answer rest flight := by
  have hunread := h.unread_eq hpayload hready
  have hreceiver : connection.receiver = ⟨delimited payload ++ [], limit⟩ := by
    rw [List.append_nil, ← hunread, ← h.limit_eq]
  have hanswer : connection.answer = { connection with
      receiver := ⟨[], limit⟩, returned := connection.returned ++ [payload] } := by
    rw [answer, hreceiver, Receiver.next_delimited hpayload]
  have hfront : connection.answer.front = connection.front := by
    rw [hanswer, front, front, hunread]
    simp
  refine ⟨hanswer, ?_⟩
  have hbytes := h.bytes
  rw [hunread, List.flatMap_cons] at hbytes
  rw [hanswer] at hfront ⊢
  refine ⟨?_, rfl, ?_, ?_, List.append_cancel_left hbytes, fun _ _ _ => List.nil_prefix, h.shut,
    h.closed, ?_⟩
  · rw [h.accepted]
    simp
  · rw [hfront]
    exact h.written?
  · rw [hfront]
    exact h.carried
  · intro result hresult
    obtain ⟨-, hnone, -⟩ := h.ending result hresult
    cases hnone

/-- Receiving ends, without an error, once everything written has been returned. -/
theorem Delivers.answer_end (h : Delivers limit contacts connection [] flight)
    (hready : connection.receiver.wants = 0 ∨ connection.shut = true ∧ connection.inFlight = []) :
    connection.answer = { connection with ending? := some (.ok ()) } ∧
      Delivers limit contacts connection.answer [] flight := by
  have hunread : connection.receiver.unread = [] := (List.append_eq_nil_iff.mp h.bytes).1
  have hreceiver : connection.receiver = ⟨[], limit⟩ := by
    rw [← hunread, ← h.limit_eq]
  have hanswer : connection.answer = { connection with ending? := some (.ok ()) } := by
    rw [answer, hreceiver, Receiver.next_nil, ← hreceiver]
  refine ⟨hanswer, ?_⟩
  have hshut : connection.shut = true := by
    rcases hready with hnone | ⟨hshut, -⟩
    · rw [hreceiver] at hnone
      cases hnone
    · exact hshut
  rw [hanswer]
  refine ⟨h.accepted, h.limit_eq, h.written?, h.carried, h.bytes, h.within, h.shut, h.closed, ?_⟩
  rintro result ⟨⟩
  exact ⟨rfl, rfl, hshut⟩

theorem Delivers.move (h : Delivers limit contacts connection written flight)
    (hdeliverable : ∀ payload ∈ written, Deliverable limit payload)
    (hmove : connection.Move seen next) :
    ∃ written flight, Delivers limit (contacts ++ seen) next written flight := by
  cases hmove with
  | trySend payload => exact ⟨_, _, h.push payload⟩
  | sendTimeout payload timeout => exact ⟨_, _, h.push payload⟩
  | handOver payload hplaces hopen =>
      exact h.handOver payload hopen
  | giveUp payload =>
      exact ⟨_, _, h.offer (List.append_nil _).symm rfl fun _ => rfl⟩
  | hangUp => exact ⟨_, _, h.hangUp⟩
  | write hwaiting =>
      obtain ⟨payload, rest, hqueue⟩ := List.exists_cons_of_ne_nil hwaiting
      rw [List.append_nil]
      exact ⟨_, _, h.write hqueue⟩
  | shut hopen hhungUp hwaiting =>
      rw [List.append_nil]
      exact ⟨written, flight, h.accepted, h.limit_eq, h.written?, h.carried, h.bytes, h.within,
        fun _ => ⟨hwaiting, hhungUp⟩, h.closed, fun result hresult => by
          obtain ⟨hok, hnone, -⟩ := h.ending result hresult
          exact ⟨hok, hnone, rfl⟩⟩
  | read running count hcount hwanted hlength =>
      rw [List.append_nil]
      rw [h.inFlight_eq] at hlength
      exact ⟨_, _, h.read hdeliverable hwanted hlength⟩
  | answer running hready =>
      rw [List.append_nil]
      cases written with
      | nil => exact ⟨_, _, (h.answer_end hready).2⟩
      | cons payload rest =>
          exact ⟨_, _, (h.answer_payload (hdeliverable _ List.mem_cons_self) hready).2⟩

theorem Delivers.mem_accepted (h : Delivers limit contacts connection written flight) :
    ∀ payload ∈ written, payload ∈ contacts.filterMap Contact.taken? := by
  intro payload hpayload
  rw [h.accepted]
  exact List.mem_append_left _ (List.mem_append_right _ hpayload)

/-- In every order of actions, the payloads that the queue took are where they should be. -/
theorem Run.delivers {capacity : Nat} (h : Run capacity limit contacts connection)
    (hdeliverable : ∀ payload ∈ contacts.filterMap Contact.taken?, Deliverable limit payload) :
    ∃ written flight, Delivers limit contacts connection written flight := by
  induction h with
  | first => exact ⟨[], [], delivers_first capacity limit⟩
  | @move contacts seen connection next run hmove ih =>
      have hearlier : ∀ payload ∈ contacts.filterMap Contact.taken?, Deliverable limit payload := by
        intro payload hpayload
        apply hdeliverable payload
        rw [List.filterMap_append]
        exact List.mem_append_left _ hpayload
      obtain ⟨written, flight, hdelivers⟩ := ih hearlier
      exact hdelivers.move (fun payload hpayload =>
        hearlier payload (hdelivers.mem_accepted payload hpayload)) hmove

/-! ## Coming to the end -/

/-- How much writer and receiver have left to do: what waits is still to be written, read and
returned, and the connection is to be ended by both. -/
def work (connection : Connection) : Nat :=
  3 * (connection.publisher.queue.waiting.flatMap delimited).length +
    2 * connection.inFlight.length + connection.receiver.unread.length +
      (if connection.shut then 0 else 1) + if connection.ending?.isSome then 0 else 1

/-- Each move of writer or receiver does some of the work that is left. -/
theorem Delivers.work_lt (h : Delivers limit contacts connection written flight)
    (hdeliverable : ∀ payload ∈ written, Deliverable limit payload)
    (hmove : connection.Move [] next) : next.work < connection.work := by
  generalize hnone : ([] : List Contact) = seen at hmove
  have hflight := h.inFlight_eq
  -- A byte counts three times while it waits, twice in flight and once with the receiver.
  cases hmove with
  | write hwaiting =>
      obtain ⟨payload, rest, hqueue⟩ := List.exists_cons_of_ne_nil hwaiting
      have hwritten := (h.write hqueue).inFlight_eq
      have hwrite := Publisher.write_eq hqueue h.written?
      have hlength := length_delimited payload
      simp only [work, hwritten, hflight, hqueue, List.flatMap_cons, List.length_append]
      simp only [hwrite]
      omega
  | shut hopen hhungUp hwaiting =>
      simp only [work, inFlight, hopen]
      simp
  | read running count hcount hwanted hlength =>
      rw [hflight] at hlength
      have hread := (h.read hdeliverable hwanted hlength).inFlight_eq
      simp only [work, hread, hflight, List.length_drop]
      simp only [Connection.read, hflight, List.length_append, List.length_take]
      omega
  | answer running hready =>
      cases written with
      | nil =>
          rw [(h.answer_end hready).1]
          simp [work, running, inFlight]
      | cons payload rest =>
          have hpayload := hdeliverable _ List.mem_cons_self
          have hunread := h.unread_eq hpayload hready
          have hlength := length_delimited payload
          rw [(h.answer_payload hpayload hready).1]
          simp only [work, inFlight, hunread, List.length_nil]
          omega
  | _ => cases hnone

/-- Once the producer has hung up, writer or receiver can go on until the receiver has ended. -/
theorem Delivers.exists_move (h : Delivers limit contacts connection written flight)
    (hclosed : .close ∈ contacts) (hrunning : connection.ending? = none) :
    ∃ next, connection.Move [] next := by
  by_cases hwaiting : connection.publisher.queue.waiting = []
  case neg => exact ⟨_, .write hwaiting⟩
  cases hshut : connection.shut with
  | false => exact ⟨_, .shut hshut (h.closed.mp hclosed) hwaiting⟩
  | true =>
      by_cases hready : connection.receiver.wants = 0 ∨ connection.inFlight = []
      · exact ⟨_, .answer hrunning (hready.imp id fun hempty => ⟨hshut, hempty⟩)⟩
      · rw [not_or] at hready
        exact ⟨_, .read hrunning 1 Nat.one_pos (Nat.pos_of_ne_zero hready.1)
          (List.length_pos_iff.mpr hready.2)⟩

end Invariant

/-- A subscriber that was connected from the beginning, whatever a producer puts to the queue and in
whatever order producer, writer and receiver act, reads in pieces of whatever size. If the receiver
allows the payloads that the queue took, then at every point the payloads returned are the first of
these, and no call fails. Receiving ends only after the producer has hung up, and then every payload
that the queue took was returned once and in order, as is read off the whole of what was written.
And once the producer has hung up it does end: writer and receiver have ever less to do, and cannot
stop before. -/
theorem delivered_in_order {capacity limit : Nat} {contacts : List Contact}
    {connection : Connection} (hrun : Run capacity limit contacts connection)
    (hdeliverable : ∀ payload ∈ contacts.filterMap Contact.taken?, Deliverable limit payload) :
    let accepted := contacts.filterMap Contact.taken?
    connection.returned <+: accepted ∧
    (∀ error, connection.ending? ≠ some (.error error)) ∧
    (connection.ending? = some (.ok ()) →
      .close ∈ contacts ∧ connection.returned = accepted ∧
        ∃ bytes, connection.publisher.written? = some bytes ∧
          Receiver.payloads ⟨bytes, limit⟩ = (accepted, .ok (), ⟨[], limit⟩)) ∧
    (.close ∈ contacts → (∀ next, ¬ connection.Move [] next) →
      connection.ending? = some (.ok ())) ∧
    ∀ next, connection.Move [] next → next.work < connection.work := by
  intro accepted
  obtain ⟨written, flight, h⟩ := hrun.delivers hdeliverable
  have hwritten : ∀ payload ∈ written, Deliverable limit payload := fun payload hpayload =>
    hdeliverable payload (h.mem_accepted payload hpayload)
  refine ⟨?_, ?_, ?_, ?_, fun next hmove => h.work_lt hwritten hmove⟩
  · rw [show accepted = _ from h.accepted, List.append_assoc]
    exact List.prefix_append _ _
  · intro error herror
    obtain ⟨hok, -⟩ := h.ending _ herror
    cases hok
  · intro hended
    obtain ⟨-, rfl, hshut⟩ := h.ending _ hended
    obtain ⟨hwaiting, hhungUp⟩ := h.shut hshut
    have hreturned : connection.returned = accepted := by
      rw [show accepted = _ from h.accepted, hwaiting, List.append_nil, List.append_nil]
    refine ⟨h.closed.mpr hhungUp, hreturned, _, h.written?, ?_⟩
    have hbytes : connection.front ++ flight = accepted.flatMap delimited := by
      rw [front, List.append_assoc, h.bytes, hreturned]
      exact List.append_nil _
    rw [hbytes]
    exact Receiver.payloads_delimited hdeliverable
  · intro hclosed hstuck
    cases hending : connection.ending? with
    | none =>
        obtain ⟨next, hmove⟩ := h.exists_move hclosed hending
        exact absurd hmove (hstuck next)
    | some result =>
        obtain ⟨rfl, -⟩ := h.ending _ hending
        rfl

/-- A queue with one place: the second payload finds it full and the third fills it again. The
receiver gets each length in two pieces, and the first payload while the third is not yet sent. -/
theorem delivered_in_order_pieces :
    let contacts : List Contact :=
      [.offer [7] .delivered, .offer [8] (.dropped .wouldBlock), .offer [9, 10] .delivered, .close]
    let wire : Bytes := [1, 0, 0, 0, 7, 2, 0, 0, 0, 9, 10]
    let connection : Connection :=
      ⟨⟨⟨1, [], false, true⟩, some wire⟩, true, 11, ⟨[], 2⟩, [[7], [9, 10]], some (.ok ())⟩
    Run 1 2 contacts connection ∧
    (∀ payload ∈ contacts.filterMap Contact.taken?, Deliverable 2 payload) ∧
    connection.returned = contacts.filterMap Contact.taken? ∧
    ∃ bytes, connection.publisher.written? = some bytes ∧
      Receiver.payloads ⟨bytes, 2⟩ = (contacts.filterMap Contact.taken?, .ok (), ⟨[], 2⟩) := by
  intro contacts wire connection
  have hfull : Run 1 2 (contacts.take 2)
      ⟨⟨⟨1, [[7]], true, true⟩, some []⟩, false, 0, ⟨[], 2⟩, [], none⟩ :=
    (Run.first.move (.trySend [7])).move (.trySend [8])
  have hwritten : Run 1 2 (contacts.take 2)
      ⟨⟨⟨1, [], true, true⟩, some (wire.take 5)⟩, false, 0, ⟨[], 2⟩, [], none⟩ :=
    hfull.move (.write (by decide))
  have hlength : Run 1 2 (contacts.take 2)
      ⟨⟨⟨1, [], true, true⟩, some (wire.take 5)⟩, false, 4, ⟨wire.take 4, 2⟩, [], none⟩ :=
    (hwritten.move (.read rfl 1 (by decide) (by decide) (by decide))).move
      (.read rfl 3 (by decide) (by decide) (by decide))
  have hreturned : Run 1 2 (contacts.take 2)
      ⟨⟨⟨1, [], true, true⟩, some (wire.take 5)⟩, false, 5, ⟨[], 2⟩, [[7]], none⟩ :=
    (hlength.move (.read rfl 1 (by decide) (by decide) (by decide))).move
      (.answer rfl (by decide))
  have hshut : Run 1 2 contacts
      ⟨⟨⟨1, [], false, true⟩, some wire⟩, true, 5, ⟨[], 2⟩, [[7]], none⟩ :=
    (hreturned.move (.sendTimeout [9, 10] 500)).close.move (.shut rfl rfl rfl)
  have hread : Run 1 2 contacts
      ⟨⟨⟨1, [], false, true⟩, some wire⟩, true, 11, ⟨wire.drop 5, 2⟩, [[7]], none⟩ :=
    ((hshut.move (.read rfl 1 (by decide) (by decide) (by decide))).move
      (.read rfl 3 (by decide) (by decide) (by decide))).move
        (.read rfl 2 (by decide) (by decide) (by decide))
  have hrun : Run 1 2 contacts connection :=
    (hread.move (.answer rfl (by decide))).move (.answer rfl (by decide))
  have hdeliverable : ∀ payload ∈ contacts.filterMap Contact.taken?, Deliverable 2 payload :=
    List.forall_mem_cons.mpr ⟨⟨by decide, by decide⟩,
      List.forall_mem_singleton.mpr ⟨by decide, by decide⟩⟩
  obtain ⟨-, -, hended, -⟩ := delivered_in_order hrun hdeliverable
  obtain ⟨-, hall, hbytes⟩ := hended rfl
  exact ⟨hrun, hdeliverable, hall, hbytes⟩

end Connection

end LiveLayout
