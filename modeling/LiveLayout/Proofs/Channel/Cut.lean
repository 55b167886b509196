import LiveLayout.Proofs.Channel.Receiver

/-!
# Connections that are cut off

A connection may end at any byte. Up to there the receiver returns the payloads that came whole, and
then how the connection ended tells whether it was cut between two payloads, inside a length or
inside a payload.
-/

namespace LiveLayout

namespace Receiver

/-- What so many calls return, one after another, and the receiver behind them. -/
def calls : Nat → Receiver → List (Except StreamError (Option Bytes)) × Receiver
  | 0, receiver => ([], receiver)
  | count + 1, receiver =>
    let (answer, receiver) := receiver.next
    let (answers, receiver) := calls count receiver
    (answer :: answers, receiver)

/-- What a call returns at the end of a connection that holds so many more bytes, which are not a
whole payload with its length. -/
def ending (held : Nat) : Except StreamError (Option Bytes) :=
  if held = 0 then .ok none
  else if held < 4 then
    .error ⟨.codec .truncated, ["connection closed inside a length prefix"]⟩
  else .error LinkError.unfilled

variable {limit : Nat}

/-- A connection that ends before a whole length was read. -/
theorem next_short {front : Bytes} (hshort : front.length < 4) :
    next ⟨front, limit⟩ = (ending front.length, ⟨[], limit⟩) := by
  by_cases hempty : front = []
  · subst hempty
    rfl
  have hpos : front.length ≠ 0 := by
    intro hzero
    exact hempty (List.length_eq_zero_iff.mp hzero)
  have hsome : front.isEmpty = false := by
    apply List.isEmpty_eq_false_iff.mpr
    exact hempty
  have htaken : (front.take 4).length < 4 := by
    rw [List.length_take]
    omega
  simp only [next, ending, hsome, Bool.false_eq_true, if_false, List.splitAt_eq, if_pos htaken,
    if_neg hpos, if_pos hshort]

theorem ending_of_four_le {held : Nat} (h : 4 ≤ held) :
    ending held = .error LinkError.unfilled := by
  have hpos : held ≠ 0 := by omega
  rw [ending, if_neg hpos, if_neg (Nat.not_lt.mpr h)]

theorem next_within {payload front : Bytes} (h : Deliverable limit payload)
    (hfront : front <+: delimited payload) (hproper : front.length < (delimited payload).length) :
    next ⟨front, limit⟩ = (ending front.length, ⟨[], limit⟩) := by
  by_cases hshort : front.length < 4
  · exact next_short hshort
  · have hfour : 4 ≤ front.length := Nat.not_lt.mp hshort
    have hlacks : (front.drop 4).length < payload.length := by
      rw [length_delimited] at hproper
      rw [List.length_drop]
      omega
    rw [next_eq limit hfour, value_take_of_isPrefix h hfront hfour,
      if_neg (Nat.not_lt.mpr h.allowed), if_pos hlacks, ending_of_four_le hfour]

theorem calls_delimited {whole : List Bytes} (h : ∀ payload ∈ whole, Deliverable limit payload)
    (count : Nat) (rest : Bytes) :
    calls (whole.length + count) ⟨whole.flatMap delimited ++ rest, limit⟩ =
      (whole.map (fun payload => .ok (some payload)) ++ (calls count ⟨rest, limit⟩).1,
        (calls count ⟨rest, limit⟩).2) := by
  induction whole with
  | nil => simp
  | cons payload others ih =>
      obtain ⟨hpayload, hothers⟩ := List.forall_mem_cons.mp h
      have hcount : (payload :: others).length + count = (others.length + count) + 1 := by
        rw [List.length_cons]
        omega
      rw [hcount, calls, List.flatMap_cons, List.append_assoc, next_delimited hpayload]
      simp only [ih hothers, List.map_cons, List.cons_append]

end Receiver

/-- Every place in a connection is behind the last payload that is whole in front of it. -/
theorem exists_whole_before {messages : List Bytes} {cut : Nat}
    (h : cut ≤ (messages.flatMap delimited).length) :
    ∃ whole later, messages = whole ++ later ∧ (whole.flatMap delimited).length ≤ cut ∧
      ∀ payload ∈ later.head?, cut < ((whole ++ [payload]).flatMap delimited).length := by
  -- Either the cut is inside the first payload, or the rest is cut that much earlier.
  induction messages generalizing cut with
  | nil => exact ⟨[], [], rfl, Nat.zero_le _, nofun⟩
  | cons payload rest ih =>
      rw [List.flatMap_cons, List.length_append] at h
      by_cases hinside : cut < (delimited payload).length
      · refine ⟨[], payload :: rest, rfl, Nat.zero_le _, ?_⟩
        rintro _ ⟨⟩
        simpa using hinside
      · have hrest : cut - (delimited payload).length ≤ (rest.flatMap delimited).length := by
          omega
        obtain ⟨whole, later, rfl, hwhole, hlater⟩ := ih hrest
        refine ⟨payload :: whole, later, rfl, ?_, ?_⟩
        · rw [List.flatMap_cons, List.length_append]
          omega
        · intro next hnext
          have hcut := hlater next hnext
          rw [List.cons_append, List.flatMap_cons, List.length_append]
          omega

namespace Receiver

/-- A connection that was cut off anywhere gives the payloads that are whole in front of the cut, in
order, and then says how it ended: with no payload if nothing follows them, as truncated if a part
of a length does, and as unfilled if a whole length does. By then all of its bytes were read. -/
theorem whole_before_cut {limit : Nat} {messages : List Bytes}
    (h : ∀ payload ∈ messages, Deliverable limit payload) {cut : Nat}
    (hcut : cut ≤ (messages.flatMap delimited).length) :
    ∃ whole later, messages = whole ++ later ∧
      (whole.flatMap delimited).length ≤ cut ∧
      (∀ payload ∈ later.head?, cut < ((whole ++ [payload]).flatMap delimited).length) ∧
      calls (whole.length + 1) ⟨(messages.flatMap delimited).take cut, limit⟩ =
        (whole.map (fun payload => .ok (some payload)) ++
          [ending (cut - (whole.flatMap delimited).length)], ⟨[], limit⟩) := by
  obtain ⟨whole, later, rfl, hwhole, hlater⟩ := exists_whole_before hcut
  refine ⟨whole, later, rfl, hwhole, hlater, ?_⟩
  have hsplit : ((whole ++ later).flatMap delimited).take cut = whole.flatMap delimited ++
      (later.flatMap delimited).take (cut - (whole.flatMap delimited).length) := by
    rw [List.flatMap_append, List.take_append, List.take_of_length_le hwhole]
  have hbefore := calls_delimited
    (fun payload hpayload => h payload (List.mem_append_left later hpayload)) 1
    ((later.flatMap delimited).take (cut - (whole.flatMap delimited).length))
  -- What is left behind the whole payloads is a part of the next one that lacks its end.
  have hlast : next ⟨(later.flatMap delimited).take (cut - (whole.flatMap delimited).length), limit⟩ =
      (ending (cut - (whole.flatMap delimited).length), ⟨[], limit⟩) := by
    cases later with
    | nil =>
        have hend : cut - (whole.flatMap delimited).length = 0 := by
          rw [List.append_nil] at hcut
          omega
        rw [hend]
        rfl
    | cons payload rest =>
        have hpayload := h payload (List.mem_append_right whole List.mem_cons_self)
        have hinside := hlater payload rfl
        rw [List.flatMap_append, List.length_append, List.flatMap_singleton] at hinside
        have hheld : cut - (whole.flatMap delimited).length < (delimited payload).length := by
          omega
        have hlength := List.length_take_of_le hheld.le
        have hwithin := next_within hpayload (List.take_prefix _ (delimited payload))
          (hlength.trans_lt hheld)
        rw [hlength] at hwithin
        rw [List.flatMap_cons, List.take_append_of_le_length hheld.le]
        exact hwithin
  rw [hsplit, hbefore]
  simp only [calls, hlast]

/-- An empty payload and one of three bytes, cut inside the second length. -/
theorem whole_before_cut_second :
    ((∀ payload ∈ ([[], [7, 8, 9]] : List Bytes), Deliverable 3 payload) ∧
      6 ≤ (([[], [7, 8, 9]] : List Bytes).flatMap delimited).length) ∧
    ∃ whole later, ([[], [7, 8, 9]] : List Bytes) = whole ++ later ∧
      (whole.flatMap delimited).length ≤ 6 ∧
      (∀ payload ∈ later.head?, 6 < ((whole ++ [payload]).flatMap delimited).length) ∧
      calls (whole.length + 1) ⟨([[], [7, 8, 9]].flatMap delimited).take 6, 3⟩ =
        (whole.map (fun payload => .ok (some payload)) ++
          [ending (6 - (whole.flatMap delimited).length)], ⟨[], 3⟩) := by
  have hdeliverable : ∀ payload ∈ ([[], [7, 8, 9]] : List Bytes), Deliverable 3 payload :=
    List.forall_mem_cons.mpr ⟨⟨by decide, by decide⟩,
      List.forall_mem_singleton.mpr ⟨by decide, by decide⟩⟩
  have hcut : 6 ≤ (([[], [7, 8, 9]] : List Bytes).flatMap delimited).length := by decide
  exact ⟨⟨hdeliverable, hcut⟩, whole_before_cut hdeliverable hcut⟩

/-- A connection that ends inside its first length, one that ends behind a payload and one that ends
inside a payload. -/
example :
    (calls 1 ⟨[7, 0], 3⟩).1 =
      [.error ⟨.codec .truncated, ["connection closed inside a length prefix"]⟩] ∧
    (calls 2 ⟨[3, 0, 0, 0, 1, 2, 3], 3⟩).1 = [.ok (some [1, 2, 3]), .ok none] ∧
    (calls 2 ⟨([[], [7, 8, 9]].flatMap delimited).take 8, 3⟩).1 =
      [.ok (some []), .error LinkError.unfilled] := by
  decide

end Receiver

end LiveLayout
