import LiveLayout.Proofs.Channel.Overlong
import LiveLayout.Proofs.Wire.Frame

/-!
# Collecting messages

A consumer collects messages until one is the sentinel, the connection ends or an error stops it.
What it then has is said here of the bytes of the connection alone: messages stand in front, each
behind its length, and what follows the last frame decides how collecting ends.
-/

namespace LiveLayout.Receiver

/-- The loop that collects, as it runs: behind the messages taken so far it ends with a result and
the receiver that is left. -/
inductive Collects :
    List Message → Receiver → Except StreamError (List Message) × Receiver → Prop where
  | ended {taken : List Message} {receiver after : Receiver}
      (h : receiver.nextMessage = (.ok none, after)) : Collects taken receiver (.ok taken, after)
  | failed {taken : List Message} {receiver after : Receiver} {error : StreamError}
      (h : receiver.nextMessage = (.error error, after)) :
      Collects taken receiver (.error error, after)
  | closed {taken : List Message} {receiver after : Receiver} {message : Message}
      (h : receiver.nextMessage = (.ok (some message), after)) (hclose : isClose message = true) :
      Collects taken receiver (.ok (taken ++ [message]), after)
  | more {taken : List Message} {receiver after : Receiver} {message : Message}
      {result : Except StreamError (List Message) × Receiver}
      (h : receiver.nextMessage = (.ok (some message), after)) (hclose : isClose message = false)
      (rest : Collects (taken ++ [message]) after result) : Collects taken receiver result

/-- Payloads that are taken and read as frames. -/
def Carried (limit : Nat) (payloads : List Bytes) (frames : List Frame) : Prop :=
  List.Forall₂ (fun payload frame => Deliverable limit payload ∧
    Message.decode payload = .ok (.frame frame)) payloads frames

/-- Why no message can be got off the bytes that come next, and the bytes left behind that. -/
inductive Faulty (limit : Nat) : Bytes → StreamError → Bytes → Prop where
  | lengthCut {front : Bytes} (hsome : front ≠ []) (hshort : front.length < 4) :
      Faulty limit front ⟨.codec .truncated, ["connection closed inside a length prefix"]⟩ []
  | tooLong {length : Nat} (hfits : length < UInt32.size) (hover : limit < length) (rest : Bytes) :
      Faulty limit (Word.encode 4 length ++ rest) (ChannelError.messageTooLong length limit) rest
  | payloadCut {length : Nat} {front : Bytes} (hfits : length < UInt32.size)
      (hallowed : length ≤ limit) (hcut : front.length < length) :
      Faulty limit (Word.encode 4 length ++ front) LinkError.unfilled []
  | undecodable {payload : Bytes} {error : CodecError} (h : Deliverable limit payload)
      (hdecode : Message.decode payload = .error error) (rest : Bytes) :
      Faulty limit (delimited payload ++ rest)
        ⟨.codec error, [s!"Failed to decode {payload.length}-byte message"]⟩ rest

/-- What is collected off a connection and the bytes left behind it: all messages up to the first
sentinel, all of them if the connection ends behind one, and else the error of the first message
that cannot be got. -/
inductive Collected (limit : Nat) : Bytes → Except StreamError (List Message) → Bytes → Prop where
  | closed {payloads : List Bytes} {frames : List Frame} (carried : Carried limit payloads frames)
      (h : Deliverable limit closeSentinel) (later : Bytes) :
      Collected limit (payloads.flatMap delimited ++ (delimited closeSentinel ++ later))
        (.ok (frames.map .frame ++ [.close])) later
  | ended {payloads : List Bytes} {frames : List Frame} (carried : Carried limit payloads frames) :
      Collected limit (payloads.flatMap delimited) (.ok (frames.map .frame)) []
  | failed {payloads : List Bytes} {frames : List Frame} {rest left : Bytes} {error : StreamError}
      (carried : Carried limit payloads frames) (h : Faulty limit rest error left) :
      Collected limit (payloads.flatMap delimited ++ rest) (.error error) left

section Message

variable {limit : Nat}

theorem nextMessage_nil : nextMessage ⟨[], limit⟩ = (.ok none, ⟨[], limit⟩) := rfl

theorem nextMessage_delimited {payload : Bytes} {message : Message}
    (h : Deliverable limit payload) (hdecode : Message.decode payload = .ok message)
    (rest : Bytes) :
    nextMessage ⟨delimited payload ++ rest, limit⟩ = (.ok (some message), ⟨rest, limit⟩) := by
  simp only [nextMessage, next_delimited h, hdecode]

theorem nextMessage_faulty {unread left : Bytes} {error : StreamError}
    (h : Faulty limit unread error left) :
    nextMessage ⟨unread, limit⟩ = (.error error, ⟨left, limit⟩) := by
  cases h with
  | lengthCut hsome hshort =>
      have hpos : unread.length ≠ 0 := by
        intro hzero
        exact hsome (List.length_eq_zero_iff.mp hzero)
      simp only [nextMessage, next_short hshort, ending, if_neg hpos, if_pos hshort]
  | tooLong hfits hover => simp only [nextMessage, next_encode hfits, if_pos hover]
  | payloadCut hfits hallowed hcut =>
      simp only [nextMessage, next_encode hfits, if_neg (Nat.not_lt.mpr hallowed), if_pos hcut]
  | undecodable h hdecode => simp only [nextMessage, next_delimited h, hdecode]

/-- The bytes of a connection are none, start with a message, or have a fault. -/
theorem exists_message_or_faulty (limit : Nat) (unread : Bytes) :
    unread = [] ∨
    (∃ payload message rest, Deliverable limit payload ∧ Message.decode payload = .ok message ∧
      unread = delimited payload ++ rest) ∨
    ∃ error left, Faulty limit unread error left := by
  by_cases hnone : unread = []
  · exact Or.inl hnone
  right
  by_cases hshort : unread.length < 4
  · exact Or.inr ⟨_, _, .lengthCut hnone hshort⟩
  obtain ⟨length, rest, hfits, rfl⟩ := exists_encode_append (Nat.not_lt.mp hshort)
  by_cases hover : limit < length
  · exact Or.inr ⟨_, _, .tooLong hfits hover rest⟩
  by_cases hcut : rest.length < length
  · exact Or.inr ⟨_, _, .payloadCut hfits (Nat.not_lt.mp hover) hcut⟩
  have htake : (rest.take length).length = length := List.length_take_of_le (Nat.not_lt.mp hcut)
  have hdeliverable : Deliverable limit (rest.take length) := by
    constructor
    · rw [htake]
      exact Nat.not_lt.mp hover
    · rw [htake]
      exact hfits
  rw [encode_append_eq (Nat.not_lt.mp hcut)]
  cases hdecode : Message.decode (rest.take length) with
  | error error => exact Or.inr ⟨_, _, .undecodable hdeliverable hdecode _⟩
  | ok message => exact Or.inl ⟨_, message, _, hdeliverable, hdecode, rfl⟩

end Message

section Loop

/-- A message that is got uses up the bytes of its length. -/
theorem length_nextMessage {receiver after : Receiver} {message : Message}
    (h : receiver.nextMessage = (.ok (some message), after)) :
    after.unread.length < receiver.unread.length := by
  obtain ⟨unread, limit⟩ := receiver
  obtain rfl | ⟨payload, read, rest, hpayload, hdecode, rfl⟩ | ⟨error, left, hfaulty⟩ :=
    exists_message_or_faulty limit unread
  · cases h
  · rw [nextMessage_delimited hpayload hdecode] at h
    cases h
    dsimp only
    rw [List.length_append, length_delimited]
    omega
  · rw [nextMessage_faulty hfaulty] at h
    cases h

/-- Taking items with enough fuel is the loop without any. -/
theorem collects_takeWhileMore {fuel : Nat} {receiver : Receiver} (items : List Message)
    (hfuel : receiver.unread.length < fuel) :
    Collects items.reverse receiver
      (match takeWhileMore nextMessage isClose items fuel receiver with
        | (messages, .ok (), receiver) => (.ok messages, receiver)
        | (_, .error error, receiver) => (.error error, receiver)) := by
  induction fuel generalizing receiver items with
  | zero => cases hfuel
  | succ fuel ih =>
      rcases hnext : receiver.nextMessage with ⟨error | _ | message, after⟩
      · simp only [takeWhileMore, hnext]
        exact .failed hnext
      · simp only [takeWhileMore, hnext]
        exact .ended hnext
      · cases hclose : isClose message with
        | true =>
            simp only [takeWhileMore, hnext, hclose, if_true, List.reverse_cons]
            exact .closed hnext hclose
        | false =>
            simp only [takeWhileMore, hnext, hclose, Bool.false_eq_true, if_false]
            have hless := length_nextMessage hnext
            have hlater := ih (message :: items) (by omega : after.unread.length < fuel)
            rw [List.reverse_cons] at hlater
            exact .more hnext hclose hlater

theorem collects_collect (receiver : Receiver) : Collects [] receiver receiver.collect :=
  collects_takeWhileMore [] (Nat.lt_succ_self receiver.unread.length)

/-- The loop ends in one way only. -/
theorem Collects.unique {taken : List Message} {receiver : Receiver}
    {first second : Except StreamError (List Message) × Receiver}
    (hfirst : Collects taken receiver first) (hsecond : Collects taken receiver second) :
    first = second := by
  -- Both make the same call first, and what that returns tells the ways apart.
  induction hfirst with
  | ended h =>
      cases hsecond with
      | ended h' =>
          cases h.symm.trans h'
          rfl
      | failed h' => cases h.symm.trans h'
      | closed h' _ => cases h.symm.trans h'
      | more h' _ _ => cases h.symm.trans h'
  | failed h =>
      cases hsecond with
      | ended h' => cases h.symm.trans h'
      | failed h' =>
          cases h.symm.trans h'
          rfl
      | closed h' _ => cases h.symm.trans h'
      | more h' _ _ => cases h.symm.trans h'
  | closed h hclose =>
      cases hsecond with
      | ended h' => cases h.symm.trans h'
      | failed h' => cases h.symm.trans h'
      | closed h' _ =>
          cases h.symm.trans h'
          rfl
      | more h' hopen _ =>
          cases h.symm.trans h'
          rw [hclose] at hopen
          cases hopen
  | more h hopen _ ih =>
      cases hsecond with
      | ended h' => cases h.symm.trans h'
      | failed h' => cases h.symm.trans h'
      | closed h' hclose =>
          cases h.symm.trans h'
          rw [hclose] at hopen
          cases hopen
      | more h' _ later =>
          cases h.symm.trans h'
          exact ih later

end Loop

section Reference

variable {limit : Nat}

/-- The loop goes on behind frames as it would have started there. -/
theorem Carried.collects {payloads : List Bytes} {frames : List Frame}
    (h : Carried limit payloads frames) {taken : List Message} {rest : Bytes}
    {result : Except StreamError (List Message) × Receiver}
    (hrest : Collects (taken ++ frames.map .frame) ⟨rest, limit⟩ result) :
    Collects taken ⟨payloads.flatMap delimited ++ rest, limit⟩ result := by
  induction h generalizing taken with
  | nil => simpa using hrest
  | @cons payload frame payloads frames hframe _ ih =>
      obtain ⟨hdeliverable, hdecode⟩ := hframe
      rw [List.flatMap_cons, List.append_assoc]
      apply Collects.more (nextMessage_delimited hdeliverable hdecode _) rfl
      apply ih
      rw [List.append_assoc]
      exact hrest

theorem Collected.collects {unread left : Bytes} {outcome : Except StreamError (List Message)}
    (h : Collected limit unread outcome left) :
    Collects [] ⟨unread, limit⟩ (outcome, ⟨left, limit⟩) := by
  cases h with
  | closed carried h later =>
      apply carried.collects
      exact .closed (nextMessage_delimited h (decode_eq_close_iff.mpr rfl) left) rfl
  | @ended payloads frames carried =>
      rw [← List.append_nil (payloads.flatMap delimited)]
      apply carried.collects
      exact .ended nextMessage_nil
  | failed carried h =>
      apply carried.collects
      exact .failed (nextMessage_faulty h)

theorem Collected.collect_eq {unread left : Bytes} {outcome : Except StreamError (List Message)}
    (h : Collected limit unread outcome left) :
    collect ⟨unread, limit⟩ = (outcome, ⟨left, limit⟩) :=
  (collects_collect ⟨unread, limit⟩).unique h.collects

/-- A frame in front does not change how collecting ends. -/
theorem Collected.cons {payload rest left : Bytes} {frame : Frame}
    {outcome : Except StreamError (List Message)} (hpayload : Deliverable limit payload)
    (hdecode : Message.decode payload = .ok (.frame frame))
    (h : Collected limit rest outcome left) :
    ∃ outcome, Collected limit (delimited payload ++ rest) outcome left := by
  have hcons {payloads : List Bytes} {frames : List Frame} :
      Carried limit payloads frames → Carried limit (payload :: payloads) (frame :: frames) :=
    .cons ⟨hpayload, hdecode⟩
  cases h with
  | closed carried h later =>
      rw [← List.append_assoc, ← List.flatMap_cons]
      exact ⟨_, .closed (hcons carried) h left⟩
  | ended carried =>
      rw [← List.flatMap_cons]
      exact ⟨_, .ended (hcons carried)⟩
  | failed carried h =>
      rw [← List.append_assoc, ← List.flatMap_cons]
      exact ⟨_, .failed (hcons carried) h⟩

/-- Every connection is of one of the three kinds. -/
theorem exists_collected (limit : Nat) (unread : Bytes) :
    ∃ outcome left, Collected limit unread outcome left := by
  -- A message uses up bytes, so the induction is on how many there are.
  induction hlength : unread.length using Nat.strong_induction_on generalizing unread with
  | _ length ih =>
      obtain rfl | ⟨payload, message, rest, hpayload, hdecode, rfl⟩ | ⟨error, left, hfaulty⟩ :=
        exists_message_or_faulty limit unread
      · exact ⟨_, _, .ended .nil⟩
      · cases message with
        | close =>
            obtain rfl := decode_eq_close_iff.mp hdecode
            exact ⟨_, rest, .closed .nil hpayload rest⟩
        | frame frame =>
            have hless : rest.length < length := by
              rw [← hlength, List.length_append, length_delimited]
              omega
            obtain ⟨_, left, hrest⟩ := ih rest.length hless rest rfl
            obtain ⟨outcome, hall⟩ := hrest.cons hpayload hdecode
            exact ⟨outcome, left, hall⟩
      · exact ⟨_, left, .failed .nil hfaulty⟩

/-- Nothing is collected behind a sentinel. -/
theorem Collected.close_notMem {unread left : Bytes} {messages : List Message}
    (h : Collected limit unread (.ok messages) left) : .close ∉ messages.dropLast := by
  cases h with
  | closed => simp
  | @ended _ frames =>
      intro hclose
      have hmem := List.mem_of_mem_dropLast hclose
      simp at hmem

/-- Collecting ends on every connection, under every limit, and gives exactly what the bytes of the
connection say: the messages up to the first sentinel, with all bytes behind it left; all messages
if the connection ends behind one; else the error of the first message that is cut, too long or
undecodable. Only the last of the messages may be the sentinel. -/
theorem collect_reference (unread : Bytes) (limit : Nat) :
    (∀ result, Collects [] ⟨unread, limit⟩ result ↔ collect ⟨unread, limit⟩ = result) ∧
    (∃ outcome left, Collected limit unread outcome left) ∧
    (∀ outcome left, Collected limit unread outcome left ↔
      collect ⟨unread, limit⟩ = (outcome, ⟨left, limit⟩)) ∧
    ∀ messages, (collect ⟨unread, limit⟩).1 = .ok messages → .close ∉ messages.dropLast := by
  obtain ⟨outcome, left, hcollected⟩ := exists_collected limit unread
  have hcollect := hcollected.collect_eq
  refine ⟨fun result => ⟨(collects_collect _).unique, ?_⟩, ⟨outcome, left, hcollected⟩,
    fun other rest => ⟨Collected.collect_eq, ?_⟩, ?_⟩
  · rintro rfl
    exact collects_collect _
  · intro hother
    rw [hcollect] at hother
    cases hother
    exact hcollected
  · intro messages hmessages
    rw [hcollect] at hmessages
    subst hmessages
    exact hcollected.close_notMem

/-- Two bytes behind a sentinel are left. -/
theorem collect_reference_close :
    Collected 5 (delimited closeSentinel ++ [7, 0]) (.ok [.close]) [7, 0] ∧
    collect ⟨delimited closeSentinel ++ [7, 0], 5⟩ = (.ok [.close], ⟨[7, 0], 5⟩) := by
  have hdeliverable : Deliverable 5 closeSentinel := ⟨by decide, by decide⟩
  have hcollected : Collected 5 (delimited closeSentinel ++ [7, 0]) (.ok [.close]) [7, 0] :=
    .closed .nil hdeliverable [7, 0]
  obtain ⟨-, -, hreference, -⟩ := collect_reference (delimited closeSentinel ++ [7, 0]) 5
  exact ⟨hcollected, (hreference _ _).mp hcollected⟩

/-- A subscriber reads the sentinel of a publisher that is then closed. A payload that is no message
is named by its size. -/
example :
    let publisher := (Transport.trySend (Publisher.ofCapacity 8).subscribe closeSentinel).2
    (Transport.close publisher).written?.map (fun unread => collect ⟨unread, 5⟩) =
      some (.ok [.close], ⟨[], 5⟩) ∧
    (collect ⟨[3, 0, 0, 0, 97, 98, 99], 5⟩).1 =
      .error ⟨.codec .truncated, ["Failed to decode 3-byte message"]⟩ := by
  decide +kernel

end Reference

end LiveLayout.Receiver
