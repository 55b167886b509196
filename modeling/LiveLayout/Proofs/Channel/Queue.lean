import LiveLayout.Channel.Queue
import LiveLayout.Proofs.Channel.Observed

/-!
# Queues and contacts

What a queue takes is told by its answer: a payload is added at the end exactly if the contact by
which it was put there says that it was delivered.
-/

namespace LiveLayout.Queue

theorem push_cases (queue : Queue) (payload : Bytes) :
    (∃ reason, queue.push payload = (.dropped reason, queue)) ∨
      queue.producing = true ∧
        queue.push payload =
          (.delivered, { queue with waiting := queue.waiting ++ [payload] }) := by
  unfold push
  split_ifs with hproducing hconsuming hfull
  · exact .inl ⟨_, rfl⟩
  · exact .inl ⟨_, rfl⟩
  · exact .inl ⟨_, rfl⟩
  · exact .inr ⟨by simpa using hproducing, rfl⟩

/-- The queue grows by what was delivered. -/
theorem waiting_push (queue : Queue) (payload : Bytes) :
    (queue.push payload).2.waiting =
      queue.waiting ++
        [Contact.offer payload (queue.push payload).1].filterMap Contact.taken? := by
  rcases queue.push_cases payload with ⟨reason, hpush⟩ | ⟨-, hpush⟩
  · rw [hpush]
    exact (List.append_nil _).symm
  · rw [hpush]
    rfl

theorem producing_push (queue : Queue) (payload : Bytes) :
    (queue.push payload).2.producing = queue.producing := by
  rcases queue.push_cases payload with ⟨reason, hpush⟩ | ⟨-, hpush⟩ <;> rw [hpush]

/-- Nothing is taken once the producer has hung up. -/
theorem taken?_push_of_hungUp {queue : Queue} (h : queue.producing = false) (payload : Bytes) :
    (Contact.offer payload (queue.push payload).1).taken? = none := by
  rcases queue.push_cases payload with ⟨reason, hpush⟩ | ⟨hproducing, -⟩
  · rw [hpush]
    rfl
  · rw [h] at hproducing
    cases hproducing

end LiveLayout.Queue
