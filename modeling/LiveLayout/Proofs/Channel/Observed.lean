import LiveLayout.Channel.Basic
import LiveLayout.Proofs.Outcome

/-!
# Observed transports

A transport that also keeps a journal of what is put to it, each payload with its answer. It
answers as the transport it observes would, so what holds of every journal holds of what any
transport is offered.
-/

namespace LiveLayout

/-- What a channel did with its transport: it put a payload to it and was answered, or closed it. -/
inductive Contact where
  | offer (payload : Bytes) (answer : SendResult)
  | close
  deriving DecidableEq, Repr

namespace Contact

/-- The payload that was put to the transport, if one was. -/
def offered? : Contact → Option Bytes
  | offer payload _ => some payload
  | close => none

/-- The payload that the transport took, if it took one. -/
def taken? : Contact → Option Bytes
  | offer payload .delivered => some payload
  | _ => none

end Contact

/-- A transport with a journal of its contacts so far. -/
structure Observed (τ : Type) where
  transport : τ
  journal : List Contact

instance {τ : Type} [Transport τ] : Transport (Observed τ) where
  name observed := Transport.name observed.transport
  trySend observed payload :=
    let (answer, transport) := Transport.trySend observed.transport payload
    (answer, ⟨transport, observed.journal ++ [.offer payload answer]⟩)
  sendTimeout observed payload timeout :=
    let (answer, transport) := Transport.sendTimeout observed.transport payload timeout
    (answer, ⟨transport, observed.journal ++ [.offer payload answer]⟩)
  close observed :=
    ⟨Transport.close observed.transport, observed.journal ++ [.close]⟩

/-- A function between transports that keeps their answers. -/
structure Transport.Faithful {σ τ : Type} [Transport σ] [Transport τ] (f : σ → τ) : Prop where
  trySend (transport : σ) (payload : Bytes) :
    Transport.trySend (f transport) payload =
      ((Transport.trySend transport payload).1, f (Transport.trySend transport payload).2)
  sendTimeout (transport : σ) (payload : Bytes) (timeout : Nat) :
    Transport.sendTimeout (f transport) payload timeout =
      ((Transport.sendTimeout transport payload timeout).1,
        f (Transport.sendTimeout transport payload timeout).2)
  close (transport : σ) : Transport.close (f transport) = f (Transport.close transport)

/-- Keeping a journal changes no answer. -/
theorem Observed.faithful (τ : Type) [Transport τ] :
    Transport.Faithful (Observed.transport : Observed τ → τ) :=
  ⟨fun _ _ => rfl, fun _ _ _ => rfl, fun _ => rfl⟩

/-- The endpoint over another transport. -/
def Endpoint.map {σ τ : Type} (f : σ → τ) : Endpoint σ → Endpoint τ
  | absent => .absent
  | attached transport => .attached (f transport)
  | released transport => .released (f transport)

namespace Channel

/-- The channel over another transport. -/
def map {σ τ : Type} (f : σ → τ) (channel : Channel σ) : Channel τ :=
  ⟨channel.endpoint.map f, channel.stats⟩

section Faithful

variable {σ τ : Type} [Transport σ] [Transport τ] {f : σ → τ}

/-- A function between channels that keeps their answers and their counters. -/
structure Faithful (g : Channel σ → Channel τ) : Prop where
  unopened : g .unopened = .unopened
  stats (channel : Channel σ) : (g channel).stats = channel.stats
  send (channel : Channel σ) (payload : Bytes) :
    (g channel).send payload = ((channel.send payload).1, g (channel.send payload).2)
  sendFinal (channel : Channel σ) (payload : Bytes) (timeout : Nat) :
    (g channel).sendFinal payload timeout =
      ((channel.sendFinal payload timeout).1, g (channel.sendFinal payload timeout).2)
  close (channel : Channel σ) : (g channel).close = g channel.close

theorem map_send (hf : Transport.Faithful f) (channel : Channel σ) (payload : Bytes) :
    (channel.map f).send payload =
      ((channel.send payload).1, (channel.send payload).2.map f) := by
  rcases channel with ⟨endpoint, stats⟩
  cases endpoint with
  | absent => rfl
  | attached transport => simp [map, Endpoint.map, send, offer, hf.trySend]
  | released transport => rfl

theorem map_sendFinal (hf : Transport.Faithful f) (channel : Channel σ) (payload : Bytes)
    (timeout : Nat) :
    (channel.map f).sendFinal payload timeout =
      ((channel.sendFinal payload timeout).1, (channel.sendFinal payload timeout).2.map f) := by
  rcases channel with ⟨endpoint, stats⟩
  cases endpoint with
  | absent => rfl
  | attached transport => simp [map, Endpoint.map, sendFinal, offer, hf.sendTimeout]
  | released transport => rfl

theorem map_close (hf : Transport.Faithful f) (channel : Channel σ) :
    (channel.map f).close = channel.close.map f := by
  rcases channel with ⟨endpoint, stats⟩
  cases endpoint with
  | absent => rfl
  | attached transport => simp [map, Endpoint.map, close, hf.close]
  | released transport => rfl

/-- A channel over a transport with the same answers has the same answers. -/
theorem map_faithful (hf : Transport.Faithful f) : Faithful (map f) :=
  ⟨rfl, fun _ => rfl, map_send hf, map_sendFinal hf, map_close hf⟩

end Faithful

variable {τ : Type}

/-- The channel with an empty journal beside its transport. -/
def observe (channel : Channel τ) : Channel (Observed τ) :=
  channel.map fun transport => ⟨transport, []⟩

theorem map_transport_observe (channel : Channel τ) :
    channel.observe.map Observed.transport = channel := by
  rcases channel with ⟨endpoint, stats⟩
  cases endpoint <;> rfl

/-- The contacts of a channel with its transport so far. -/
def journal (channel : Channel (Observed τ)) : List Contact :=
  match channel.endpoint with
  | .absent => []
  | .attached observed => observed.journal
  | .released observed => observed.journal

@[simp] theorem isClosed_observe (channel : Channel τ) :
    channel.observe.isClosed = channel.isClosed := by
  rcases channel with ⟨endpoint, stats⟩
  cases endpoint <;> rfl

variable [Transport τ]

@[simp] theorem isClosed_send (channel : Channel τ) (payload : Bytes) :
    (channel.send payload).2.isClosed = channel.isClosed := by
  rcases channel with ⟨endpoint, stats⟩
  cases endpoint <;> rfl

/-- The contacts by which a channel sends a payload: none without a transport. -/
def sending (channel : Channel (Observed τ)) (payload : Bytes) : List Contact :=
  if channel.isClosed then [] else [.offer payload (channel.send payload).1]

@[simp] theorem journal_send (channel : Channel (Observed τ)) (payload : Bytes) :
    (channel.send payload).2.journal = channel.journal ++ channel.sending payload := by
  rcases channel with ⟨endpoint, stats⟩
  cases endpoint with
  | absent => rfl
  | attached observed => rfl
  | released observed => exact (List.append_nil _).symm

theorem journal_sendFinal_extends (channel : Channel (Observed τ)) (payload : Bytes)
    (timeout : Nat) : channel.journal <+: (channel.sendFinal payload timeout).2.journal := by
  rcases channel with ⟨endpoint, stats⟩
  cases endpoint with
  | absent => exact List.prefix_rfl
  | attached observed => exact List.prefix_append _ _
  | released observed => exact List.prefix_rfl

theorem journal_close_extends (channel : Channel (Observed τ)) :
    channel.journal <+: channel.close.journal := by
  rcases channel with ⟨endpoint, stats⟩
  cases endpoint with
  | absent => exact List.prefix_rfl
  | attached observed => exact List.prefix_append _ _
  | released observed => exact List.prefix_rfl

end Channel

end LiveLayout
