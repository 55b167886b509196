import LiveLayout.Proofs.Channel.Watched

/-!
# Passage through a transport

What a transport has become is told by the payloads that were put to it, from the transport that it
was at first. A channel only ever puts payloads to its transport until it closes it, so of a closed
channel it is known that its transport was closed once and what went through it before.
-/

namespace LiveLayout

variable {τ : Type} [Transport τ]

/-- Payloads are put to a transport one after another, each with its answer. It is not closed. -/
inductive Transport.Passes (first : τ) : List (Bytes × SendResult) → τ → Prop where
  | nothing : Passes first [] first
  | trySend {last : τ} {offers : List (Bytes × SendResult)} (h : Passes first offers last)
      (payload : Bytes) :
      Passes first (offers ++ [(payload, (Transport.trySend last payload).1)])
        (Transport.trySend last payload).2
  | sendTimeout {last : τ} {offers : List (Bytes × SendResult)} (h : Passes first offers last)
      (payload : Bytes) (timeout : Nat) :
      Passes first (offers ++ [(payload, (Transport.sendTimeout last payload timeout).1)])
        (Transport.sendTimeout last payload timeout).2

theorem Transport.Passes.eq_of_nothing {first last : τ} (h : Passes first [] last) :
    last = first := by
  generalize hnone : ([] : List (Bytes × SendResult)) = offers at h
  cases h with
  | nothing => rfl
  | _ => simp at hnone

theorem Transport.Passes.trans {first middle last : τ} {offers later : List (Bytes × SendResult)}
    (h : Passes first offers middle) (hlater : Passes middle later last) :
    Passes first (offers ++ later) last := by
  induction hlater with
  | nothing =>
      rw [List.append_nil]
      exact h
  | trySend _ payload ih =>
      rw [← List.append_assoc]
      exact ih.trySend payload
  | sendTimeout _ payload timeout ih =>
      rw [← List.append_assoc]
      exact ih.sendTimeout payload timeout

/-- Every contact with a transport keeps what it has to do with the contacts so far. -/
structure Transport.Keeps (Holds : List Contact → τ → Prop) : Prop where
  trySend {journal : List Contact} {transport : τ} (h : Holds journal transport)
    (payload : Bytes) :
    Holds (journal ++ [.offer payload (Transport.trySend transport payload).1])
      (Transport.trySend transport payload).2
  sendTimeout {journal : List Contact} {transport : τ} (h : Holds journal transport)
    (payload : Bytes) (timeout : Nat) :
    Holds (journal ++ [.offer payload (Transport.sendTimeout transport payload timeout).1])
      (Transport.sendTimeout transport payload timeout).2
  close {journal : List Contact} {transport : τ} (h : Holds journal transport) :
    Holds (journal ++ [.close]) (Transport.close transport)

namespace Endpoint

/-- Payloads are put to the transport at the far end, if there is one and it is not released. -/
inductive Passes : Endpoint τ → List (Bytes × SendResult) → Endpoint τ → Prop where
  | attached {first last : τ} {offers : List (Bytes × SendResult)}
      (h : Transport.Passes first offers last) : Passes (.attached first) offers (.attached last)
  | absent : Passes .absent [] .absent
  | released (transport : τ) : Passes (.released transport) [] (.released transport)

theorem Passes.refl (endpoint : Endpoint τ) : Passes endpoint [] endpoint := by
  cases endpoint with
  | absent => exact .absent
  | attached transport => exact .attached .nothing
  | released transport => exact .released transport

theorem Passes.trans {first middle last : Endpoint τ} {offers later : List (Bytes × SendResult)}
    (h : Passes first offers middle) (hlater : Passes middle later last) :
    Passes first (offers ++ later) last := by
  cases h with
  | attached h =>
      cases hlater with
      | attached hlater => exact .attached (h.trans hlater)
  | absent => exact hlater
  | released transport => exact hlater

/-- Nothing passes a far end that takes nothing, and closing it changes nothing. -/
theorem Passes.close_of_isClosed {channel : Channel τ} {last : Endpoint τ}
    {offers : List (Bytes × SendResult)} (h : channel.endpoint.Passes offers last)
    (hclosed : channel.isClosed = true) : Transport.close last = channel.endpoint := by
  rcases channel with ⟨endpoint, stats⟩
  cases h with
  | attached h => cases hclosed
  | absent => rfl
  | released transport => rfl

@[simp] theorem close_close (endpoint : Endpoint τ) :
    Transport.close (Transport.close endpoint) = Transport.close endpoint := by
  cases endpoint <;> rfl

end Endpoint

namespace Channel

theorem passes_send (channel : Channel τ) (payload : Bytes) :
    ∃ offers, channel.endpoint.Passes offers (channel.send payload).2.endpoint := by
  rcases channel with ⟨endpoint, stats⟩
  cases endpoint with
  | absent => exact ⟨[], .absent⟩
  | attached transport => exact ⟨_, .attached (.trySend .nothing payload)⟩
  | released transport => exact ⟨[], .released transport⟩

theorem passes_sendFinal (channel : Channel τ) (payload : Bytes) (timeout : Nat) :
    ∃ offers, channel.endpoint.Passes offers (channel.sendFinal payload timeout).2.endpoint := by
  rcases channel with ⟨endpoint, stats⟩
  cases endpoint with
  | absent => exact ⟨[], .absent⟩
  | attached transport =>
      exact ⟨_, .attached (.sendTimeout .nothing payload timeout)⟩
  | released transport => exact ⟨[], .released transport⟩

theorem endpoint_close (channel : Channel τ) :
    channel.close.endpoint = Transport.close channel.endpoint := by
  rcases channel with ⟨endpoint, stats⟩
  cases endpoint <;> rfl

/-- A channel that was closed stays as it is. -/
theorem close_eq_of_endpoint {channel : Channel τ} {endpoint : Endpoint τ}
    (h : channel.endpoint = Transport.close endpoint) : channel.close = channel := by
  rcases channel with ⟨own, stats⟩
  obtain rfl : own = Transport.close endpoint := h
  cases endpoint <;> rfl

end Channel

end LiveLayout
