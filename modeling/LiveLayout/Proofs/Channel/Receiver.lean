import LiveLayout.Channel.Published
import LiveLayout.Channel.Received
import LiveLayout.Proofs.Wire.Reader

/-!
# Reading payloads off a connection

A payload behind its length is read back as it was written, whatever comes behind it. While it is
read the receiver never asks for a byte of what comes behind.
-/

namespace LiveLayout

/-- A receiver takes the payload, and its length fits in front of it. -/
structure Deliverable (limit : Nat) (payload : Bytes) : Prop where
  allowed : payload.length ≤ limit
  fits : payload.length < UInt32.size

theorem length_delimited (payload : Bytes) : (delimited payload).length = 4 + payload.length := by
  rw [delimited, List.length_append, Word.length_encode]

namespace Receiver

/-- The most bytes that a call asks for next, behind those it has read so far; none if these decide
what it returns. -/
def wants (receiver : Receiver) : Nat :=
  if receiver.unread.isEmpty then 1
  else if receiver.unread.length < 4 then 4 - receiver.unread.length
  else
    let length := Word.value (receiver.unread.take 4)
    if receiver.limit < length then 0 else 4 + length - receiver.unread.length

theorem next_nil (limit : Nat) : next ⟨[], limit⟩ = (.ok none, ⟨[], limit⟩) := rfl

/-- What a call returns once it has read a length. -/
theorem next_eq {unread : Bytes} (limit : Nat) (h : 4 ≤ unread.length) :
    next ⟨unread, limit⟩ =
      if limit < Word.value (unread.take 4) then
        (.error (ChannelError.messageTooLong (Word.value (unread.take 4)) limit),
          ⟨unread.drop 4, limit⟩)
      else if (unread.drop 4).length < Word.value (unread.take 4) then
        (.error LinkError.unfilled, ⟨[], limit⟩)
      else (.ok (some ((unread.drop 4).take (Word.value (unread.take 4)))),
        ⟨(unread.drop 4).drop (Word.value (unread.take 4)), limit⟩) := by
  have hsome : unread.isEmpty = false := by
    rw [List.isEmpty_eq_false_iff, ← List.length_pos_iff]
    omega
  have hlength : (unread.take 4).length = 4 := List.length_take_of_le h
  have hbody : ((unread.drop 4).take (Word.value (unread.take 4))).length <
      Word.value (unread.take 4) ↔ (unread.drop 4).length < Word.value (unread.take 4) := by
    rw [List.length_take]
    omega
  simp only [next, hsome, Bool.false_eq_true, if_false, List.splitAt_eq, hlength, Nat.lt_irrefl,
    hbody]

/-- What a call returns behind a length. -/
theorem next_encode {length limit : Nat} (hfits : length < UInt32.size) (rest : Bytes) :
    next ⟨Word.encode 4 length ++ rest, limit⟩ =
      if limit < length then
        (.error (ChannelError.messageTooLong length limit), ⟨rest, limit⟩)
      else if rest.length < length then (.error LinkError.unfilled, ⟨[], limit⟩)
      else (.ok (some (rest.take length)), ⟨rest.drop length, limit⟩) := by
  have hlength : (Word.encode 4 length).length = 4 := Word.length_encode 4 _
  have hfour : 4 ≤ (Word.encode 4 length ++ rest).length := by
    rw [List.length_append]
    omega
  have hvalue : Word.value (Word.encode 4 length) = length := Word.value_encode hfits
  rw [next_eq limit hfour, List.take_left' hlength, List.drop_left' hlength, hvalue]

/-- Any four bytes spell a length. -/
theorem exists_encode_append {unread : Bytes} (h : 4 ≤ unread.length) :
    ∃ length rest, length < UInt32.size ∧ unread = Word.encode 4 length ++ rest := by
  have hlength : (unread.take 4).length = 4 := List.length_take_of_le h
  have hvalue := Word.value_lt (unread.take 4)
  have hencode := Word.encode_value (unread.take 4)
  rw [hlength] at hvalue hencode
  refine ⟨Word.value (unread.take 4), unread.drop 4, hvalue, ?_⟩
  rw [hencode, List.take_append_drop]

theorem encode_append_eq {length : Nat} {rest : Bytes} (h : length ≤ rest.length) :
    Word.encode 4 length ++ rest = delimited (rest.take length) ++ rest.drop length := by
  rw [delimited, List.length_take_of_le h, List.append_assoc, List.take_append_drop]

section Delimited

variable {limit : Nat} {payload held : Bytes}

theorem next_delimited (h : Deliverable limit payload) (rest : Bytes) :
    next ⟨delimited payload ++ rest, limit⟩ = (.ok (some payload), ⟨rest, limit⟩) := by
  have hbody : ¬ (payload ++ rest).length < payload.length := by
    rw [List.length_append]
    omega
  rw [delimited, List.append_assoc, next_encode h.fits, if_neg (Nat.not_lt.mpr h.allowed),
    if_neg hbody, List.take_left, List.drop_left]

/-- The first four bytes of a payload on a connection are its length. -/
theorem value_take_of_isPrefix (h : Deliverable limit payload) (hheld : held <+: delimited payload)
    (hfour : 4 ≤ held.length) : Word.value (held.take 4) = payload.length := by
  obtain ⟨more, hmore⟩ := hheld
  have hlength : (Word.encode 4 payload.length).length = 4 := Word.length_encode 4 _
  rw [← List.take_append_of_le_length hfour, hmore, delimited, List.take_left' hlength,
    Word.value_encode h.fits]

/-- Within a payload the receiver asks for no byte of what comes behind it, and for none at all only
once it has the whole. -/
theorem wants_within (h : Deliverable limit payload) (hheld : held <+: delimited payload) :
    held.length + wants ⟨held, limit⟩ ≤ (delimited payload).length ∧
      (wants ⟨held, limit⟩ = 0 → held = delimited payload) := by
  have hle := hheld.length_le
  have hdelimited := length_delimited payload
  unfold wants
  split_ifs with hempty hshort
  · rw [List.isEmpty_iff] at hempty
    subst hempty
    exact ⟨by rw [hdelimited, List.length_nil]; omega, nofun⟩
  · dsimp only at hshort ⊢
    exact ⟨by omega, fun hnone => by omega⟩
  · have hvalue := value_take_of_isPrefix h hheld (Nat.not_lt.mp hshort)
    simp only [hvalue, if_neg (Nat.not_lt.mpr h.allowed)]
    exact ⟨by omega, fun hnone => hheld.eq_of_length (by omega)⟩

end Delimited

theorem takeWhileMore_delimited {limit fuel : Nat} {messages : List Bytes}
    (h : ∀ payload ∈ messages, Deliverable limit payload) (items : List Bytes)
    (hfuel : messages.length < fuel) :
    takeWhileMore next (fun _ => false) items fuel ⟨messages.flatMap delimited, limit⟩ =
      (items.reverse ++ messages, .ok (), ⟨[], limit⟩) := by
  induction messages generalizing items fuel with
  | nil =>
      cases fuel with
      | zero => cases hfuel
      | succ fuel => simp only [takeWhileMore, List.flatMap_nil, next_nil, List.append_nil]
  | cons payload rest ih =>
      cases fuel with
      | zero => cases hfuel
      | succ fuel =>
          obtain ⟨hpayload, hrest⟩ := List.forall_mem_cons.mp h
          have hlater := ih hrest (payload :: items) (Nat.lt_of_succ_lt_succ hfuel)
          simp only [takeWhileMore, List.flatMap_cons, next_delimited hpayload, Bool.false_eq_true,
            if_false, hlater, List.reverse_cons, List.append_assoc, List.singleton_append]

/-- Each payload uses up bytes. -/
theorem length_le_flatMap_delimited (messages : List Bytes) :
    messages.length ≤ (messages.flatMap delimited).length := by
  induction messages with
  | nil => exact Nat.le_refl 0
  | cons payload rest ih =>
      rw [List.flatMap_cons, List.length_append, List.length_cons, length_delimited]
      omega

/-- All payloads of a connection are read back, in order. -/
theorem payloads_delimited {limit : Nat} {messages : List Bytes}
    (h : ∀ payload ∈ messages, Deliverable limit payload) :
    payloads ⟨messages.flatMap delimited, limit⟩ = (messages, .ok (), ⟨[], limit⟩) := by
  exact takeWhileMore_delimited h [] (Nat.lt_succ_of_le (length_le_flatMap_delimited messages))

end Receiver

end LiveLayout
