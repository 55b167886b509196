import LiveLayout.Proofs.Channel.Cut

/-!
# Payloads that are too long

A receiver that refuses a payload for its length has read that length and nothing behind it. It goes
on reading inside the payload and takes the next four bytes for a length, so only what it returns up
to the first refusal is sure to have been published.
-/

namespace LiveLayout.Receiver

/-- The payload that a call returned, if it returned one. -/
def payload? : Except StreamError (Option Bytes) → Option Bytes
  | .ok payload? => payload?
  | .error _ => none

/-- The payloads that calls returned, in order. -/
def returned (answers : List (Except StreamError (Option Bytes))) : List Bytes :=
  answers.filterMap payload?

/-- A call refused a payload for its length. -/
def Refusal (answer : Except StreamError (Option Bytes)) : Prop :=
  ∃ length limit, answer = .error (ChannelError.messageTooLong length limit)

/-- What a call can do where a connection goes on with payloads, as far as it does: read the rest of
it, return the first payload, or refuse that and leave it unread. -/
inductive Answers (limit : Nat) : List Bytes → Bytes → Except StreamError (Option Bytes) → Bytes →
    Prop where
  | ended {messages : List Bytes} {unread : Bytes} :
      Answers limit messages unread (ending unread.length) []
  | whole {payload rest : Bytes} {later : List Bytes} (allowed : payload.length ≤ limit)
      (h : rest <+: later.flatMap delimited) :
      Answers limit (payload :: later) (delimited payload ++ rest) (.ok (some payload)) rest
  | refused {payload rest : Bytes} {later : List Bytes} (exceeds : limit < payload.length)
      (h : rest <+: payload ++ later.flatMap delimited) :
      Answers limit (payload :: later) (Word.encode 4 payload.length ++ rest)
        (.error (ChannelError.messageTooLong payload.length limit)) rest

theorem payload?_ending (held : Nat) : payload? (ending held) = none := by
  unfold ending
  split_ifs <;> rfl

theorem not_refusal_ending (held : Nat) : ¬ Refusal (ending held) := by
  rintro ⟨length, limit, h⟩
  unfold ending at h
  split_ifs at h <;> cases h

section Calls

variable {limit : Nat}

theorem calls_succ (count : Nat) (receiver : Receiver) :
    calls (count + 1) receiver =
      (receiver.next.1 :: (calls count receiver.next.2).1, (calls count receiver.next.2).2) := rfl

theorem returned_cons (answer : Except StreamError (Option Bytes))
    (answers : List (Except StreamError (Option Bytes))) :
    returned (answer :: answers) = (payload? answer).toList ++ returned answers := by
  cases h : payload? answer <;> simp [returned, h]

/-- Once a connection has ended calls return nothing any more. -/
theorem returned_calls_nil (count : Nat) : returned (calls count ⟨[], limit⟩).1 = [] := by
  induction count with
  | zero => rfl
  | succ count ih =>
      rw [calls_succ, next_nil, returned_cons, ih]
      rfl

/-- Every call does one of these. -/
theorem exists_answers {messages : List Bytes} {unread : Bytes}
    (hfits : ∀ payload ∈ messages, payload.length < UInt32.size)
    (h : unread <+: messages.flatMap delimited) (limit : Nat) :
    ∃ answer rest, next ⟨unread, limit⟩ = (answer, ⟨rest, limit⟩) ∧
      Answers limit messages unread answer rest := by
  by_cases hshort : unread.length < 4
  · exact ⟨_, _, next_short hshort, .ended⟩
  cases messages with
  | nil =>
      obtain rfl := List.prefix_nil.mp h
      exact absurd (by decide) hshort
  | cons payload later =>
      have hlength := Word.length_encode 4 payload.length
      have hpayload := hfits payload List.mem_cons_self
      rw [List.flatMap_cons, delimited, List.append_assoc] at h
      obtain ⟨rest, rfl⟩ : Word.encode 4 payload.length <+: unread := by
        apply List.prefix_of_prefix_length_le (List.prefix_append _ _) h
        omega
      have hrest := (List.prefix_append_right_inj _).mp h
      by_cases hover : limit < payload.length
      · refine ⟨_, rest, ?_, .refused hover hrest⟩
        rw [next_encode hpayload, if_pos hover]
      by_cases hcut : rest.length < payload.length
      · refine ⟨_, [], ?_, .ended⟩
        have hlong : 4 ≤ (Word.encode 4 payload.length ++ rest).length := Nat.not_lt.mp hshort
        rw [next_encode hpayload, if_neg hover, if_pos hcut, ending_of_four_le hlong]
      · obtain ⟨behind, rfl⟩ : payload <+: rest :=
          List.prefix_of_prefix_length_le (List.prefix_append _ _) hrest (Nat.not_lt.mp hcut)
        have hallowed : payload.length ≤ limit := Nat.not_lt.mp hover
        refine ⟨_, behind, next_delimited ⟨hallowed, hpayload⟩ behind, ?_⟩
        exact .whole hallowed ((List.prefix_append_right_inj _).mp hrest)

/-- Up to the first refusal, what is returned is what was published. -/
theorem returned_isPrefix {messages : List Bytes} {unread : Bytes} {count : Nat}
    (hfits : ∀ payload ∈ messages, payload.length < UInt32.size)
    (h : unread <+: messages.flatMap delimited)
    (hearlier : ∀ answer ∈ (calls count ⟨unread, limit⟩).1.dropLast, ¬ Refusal answer) :
    returned (calls count ⟨unread, limit⟩).1 <+: messages := by
  induction count generalizing messages unread with
  | zero => exact List.nil_prefix
  | succ count ih =>
      obtain ⟨answer, rest, hnext, hanswers⟩ := exists_answers hfits h limit
      rw [calls_succ, hnext] at hearlier ⊢
      rw [returned_cons]
      cases hanswers with
      | ended =>
          rw [payload?_ending, returned_calls_nil]
          exact List.nil_prefix
      | @whole payload _ later allowed hrest =>
          obtain ⟨-, hlater⟩ := List.forall_mem_cons.mp hfits
          apply List.cons_prefix_cons.mpr
          refine ⟨rfl, ih hlater hrest ?_⟩
          intro answer hanswer
          have hsome := List.ne_nil_of_mem (List.mem_of_mem_dropLast hanswer)
          apply hearlier
          rw [List.dropLast_cons_of_ne_nil hsome]
          exact List.mem_cons_of_mem _ hanswer
      | @refused payload =>
          -- Only the last of the calls may refuse a payload, so no call comes behind this one.
          by_cases hlast : (calls count ⟨rest, limit⟩).1 = []
          · rw [hlast]
            exact List.nil_prefix
          · exfalso
            have hfirst := hearlier (.error (ChannelError.messageTooLong payload.length limit))
            rw [List.dropLast_cons_of_ne_nil hlast] at hfirst
            exact hfirst List.mem_cons_self ⟨payload.length, limit, rfl⟩

/-- No payload is refused if none is too long. -/
theorem not_refusal_of_allowed {messages : List Bytes} {unread : Bytes} {count : Nat}
    (hfits : ∀ payload ∈ messages, payload.length < UInt32.size)
    (hallowed : ∀ payload ∈ messages, payload.length ≤ limit)
    (h : unread <+: messages.flatMap delimited) :
    ∀ answer ∈ (calls count ⟨unread, limit⟩).1, ¬ Refusal answer := by
  induction count generalizing messages unread with
  | zero => exact List.forall_mem_nil _
  | succ count ih =>
      obtain ⟨answer, rest, hnext, hanswers⟩ := exists_answers hfits h limit
      rw [calls_succ, hnext, List.forall_mem_cons]
      cases hanswers with
      | ended =>
          have hnone := @ih [] [] (List.forall_mem_nil _) (List.forall_mem_nil _) List.nil_prefix
          exact ⟨not_refusal_ending _, hnone⟩
      | whole _ hrest =>
          obtain ⟨-, hlater⟩ := List.forall_mem_cons.mp hfits
          obtain ⟨-, hlaterAllowed⟩ := List.forall_mem_cons.mp hallowed
          refine ⟨?_, ih hlater hlaterAllowed hrest⟩
          rintro ⟨_, _, ⟨⟩⟩
      | refused exceeds _ =>
          exact absurd exceeds (Nat.not_lt.mpr (hallowed _ List.mem_cons_self))

end Calls

/-- The bytes of what a call returns, and then those it leaves, are in the connection in this
order. -/
theorem next_sublist (receiver : Receiver) :
    ((payload? receiver.next.1).toList.flatMap delimited ++ receiver.next.2.unread).Sublist
      receiver.unread := by
  obtain ⟨unread, limit⟩ := receiver
  by_cases hshort : unread.length < 4
  · rw [next_short hshort, payload?_ending]
    exact List.nil_sublist unread
  obtain ⟨length, rest, hfits, rfl⟩ := exists_encode_append (Nat.not_lt.mp hshort)
  rw [next_encode hfits]
  split_ifs with hover hcut
  · exact List.sublist_append_right _ rest
  · exact List.nil_sublist _
  · rw [encode_append_eq (Nat.not_lt.mp hcut)]
    simp only [payload?, Option.toList_some, List.flatMap_singleton, List.Sublist.refl]

/-- However many calls refuse a payload, each payload that is returned stands in the connection
behind its length, and no two of them share a byte. -/
theorem calls_sublist (count : Nat) (receiver : Receiver) :
    ((returned (calls count receiver).1).flatMap delimited ++
      (calls count receiver).2.unread).Sublist receiver.unread := by
  induction count generalizing receiver with
  | zero => exact List.Sublist.refl receiver.unread
  | succ count ih =>
      rw [calls_succ, returned_cons, List.flatMap_append, List.append_assoc]
      have hlater := (ih receiver.next.2).append_left
        ((payload? receiver.next.1).toList.flatMap delimited)
      exact hlater.trans (next_sublist receiver)

/-- The call that refuses a payload reads its length alone, and the next one starts to read at the
first byte of that payload. -/
theorem calls_refused {limit : Nat} {whole later : List Bytes} {payload : Bytes}
    (hwhole : ∀ payload ∈ whole, Deliverable limit payload) (hfits : payload.length < UInt32.size)
    (hover : limit < payload.length) (count : Nat) :
    calls (whole.length + (count + 1)) ⟨(whole ++ payload :: later).flatMap delimited, limit⟩ =
      (whole.map (fun payload => .ok (some payload)) ++
          .error (ChannelError.messageTooLong payload.length limit) ::
            (calls count ⟨payload ++ later.flatMap delimited, limit⟩).1,
        (calls count ⟨payload ++ later.flatMap delimited, limit⟩).2) := by
  have hrefused : next ⟨(payload :: later).flatMap delimited, limit⟩ =
      (.error (ChannelError.messageTooLong payload.length limit),
        ⟨payload ++ later.flatMap delimited, limit⟩) := by
    rw [List.flatMap_cons, delimited, List.append_assoc, next_encode hfits, if_pos hover]
  rw [List.flatMap_append, calls_delimited hwhole, calls_succ, hrefused]

/-- What a receiver returns of a connection, wherever that was cut and however often it is called.
As long as no payload was refused for its length, the payloads returned are the first that were
published, and none is refused if none is too long. The call that refuses one leaves all of that
payload to the next call, which takes its first four bytes for a length. Behind it no more is sure
than that each payload returned stands in the connection, behind the payload returned before it. -/
theorem published_until_refusal {messages : List Bytes}
    (hfits : ∀ payload ∈ messages, payload.length < UInt32.size) (limit count : Nat) :
    (∀ unread, unread <+: messages.flatMap delimited →
      ((∀ answer ∈ (calls count ⟨unread, limit⟩).1.dropLast, ¬ Refusal answer) →
        returned (calls count ⟨unread, limit⟩).1 <+: messages) ∧
      ((∀ payload ∈ messages, payload.length ≤ limit) →
        ∀ answer ∈ (calls count ⟨unread, limit⟩).1, ¬ Refusal answer)) ∧
    (∀ whole payload later, messages = whole ++ payload :: later →
      (∀ payload ∈ whole, payload.length ≤ limit) → limit < payload.length →
      calls (whole.length + (count + 1)) ⟨messages.flatMap delimited, limit⟩ =
        (whole.map (fun payload => .ok (some payload)) ++
            .error (ChannelError.messageTooLong payload.length limit) ::
              (calls count ⟨payload ++ later.flatMap delimited, limit⟩).1,
          (calls count ⟨payload ++ later.flatMap delimited, limit⟩).2)) ∧
    ∀ unread, ((returned (calls count ⟨unread, limit⟩).1).flatMap delimited ++
      (calls count ⟨unread, limit⟩).2.unread).Sublist unread := by
  refine ⟨fun unread h => ⟨fun hearlier => returned_isPrefix hfits h hearlier, ?_⟩, ?_,
    fun unread => calls_sublist count ⟨unread, limit⟩⟩
  · intro hallowed
    exact not_refusal_of_allowed hfits hallowed h
  rintro whole payload later rfl hallowed hover
  have hwhole : ∀ payload ∈ whole, Deliverable limit payload := fun payload hpayload =>
    ⟨hallowed payload hpayload, hfits payload (List.mem_append_left _ hpayload)⟩
  have hpayload := hfits payload (List.mem_append_right _ List.mem_cons_self)
  exact calls_refused hwhole hpayload hover count

/-- A payload of one byte, one of five under a limit of four, and one of two. -/
theorem published_until_refusal_second :
    (∀ payload ∈ ([[7], [1, 0, 0, 0, 42], [8, 9]] : List Bytes), payload.length < UInt32.size) ∧
    calls 2 ⟨([[7], [1, 0, 0, 0, 42], [8, 9]] : List Bytes).flatMap delimited, 4⟩ =
      ([.ok (some [7]), .error (ChannelError.messageTooLong 5 4)],
        ⟨[1, 0, 0, 0, 42] ++ [[8, 9]].flatMap delimited, 4⟩) := by
  have hfits : ∀ payload ∈ ([[7], [1, 0, 0, 0, 42], [8, 9]] : List Bytes),
      payload.length < UInt32.size := by decide
  obtain ⟨-, hrefused, -⟩ := published_until_refusal hfits 4 0
  exact ⟨hfits, hrefused [[7]] [1, 0, 0, 0, 42] [[8, 9]] rfl (by decide) (by decide)⟩

/-- A payload of five bytes under a limit of four: the second call returns its last byte, behind the
four that it took for a length. -/
theorem refused_payload_read_into :
    calls 2 ⟨([[1, 0, 0, 0, 42]] : List Bytes).flatMap delimited, 4⟩ =
      ([.error (ChannelError.messageTooLong 5 4), .ok (some [42])], ⟨[], 4⟩) ∧
    ¬ (returned (calls 2 ⟨([[1, 0, 0, 0, 42]] : List Bytes).flatMap delimited, 4⟩).1).Sublist
      [[1, 0, 0, 0, 42]] := by
  decide

end LiveLayout.Receiver
