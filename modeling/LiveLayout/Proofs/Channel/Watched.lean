import LiveLayout.Proofs.Channel.Observed

/-!
# Watched channels

The far end of a channel is itself a transport: one that is absent or released takes nothing. So
every channel is one over its far end, and a journal of that also shows what a channel without a
transport was given to send.
-/

namespace LiveLayout

variable {τ : Type}

namespace Endpoint

/-- The endpoint once nothing can be put to it any more. -/
def detached : Endpoint τ → Endpoint τ
  | attached transport => .released transport
  | endpoint => endpoint

instance [Transport τ] : Transport (Endpoint τ) where
  name
    | absent => "absent"
    | attached transport => Transport.name transport
    | released transport => Transport.name transport
  trySend endpoint payload :=
    match endpoint with
    | attached transport => Prod.map id attached (Transport.trySend transport payload)
    | endpoint => (.dropped .closed, endpoint)
  sendTimeout endpoint payload timeout :=
    match endpoint with
    | attached transport => Prod.map id attached (Transport.sendTimeout transport payload timeout)
    | endpoint => (.dropped .closed, endpoint)
  close
    | attached transport => .released (Transport.close transport)
    | endpoint => endpoint

end Endpoint

namespace Channel

/-- The channel over its far end, with an empty journal beside it. -/
def watch (channel : Channel τ) : Channel (Observed (Endpoint τ)) :=
  ⟨.attached ⟨channel.endpoint, []⟩, channel.stats⟩

/-- The channel whose far end is watched. -/
def unwatch (channel : Channel (Observed (Endpoint τ))) : Channel τ :=
  match channel.endpoint with
  | .absent => ⟨.absent, channel.stats⟩
  | .attached observed => ⟨observed.transport, channel.stats⟩
  | .released observed => ⟨observed.transport.detached, channel.stats⟩

@[simp] theorem isClosed_watch (channel : Channel τ) : channel.watch.isClosed = false := rfl

@[simp] theorem journal_watch (channel : Channel τ) : channel.watch.journal = [] := rfl

variable [Transport τ]

/-- Watching a channel changes none of its answers. -/
theorem unwatch_faithful : Faithful (unwatch : Channel (Observed (Endpoint τ)) → Channel τ) where
  unopened := rfl
  stats := by
    rintro ⟨_ | observed | observed, stats⟩ <;> rfl
  send := by
    rintro ⟨_ | observed | observed, stats⟩ payload
    · rfl
    · rcases observed with ⟨_ | _ | _, journal⟩ <;> rfl
    · rcases observed with ⟨_ | _ | _, journal⟩ <;> rfl
  sendFinal := by
    rintro ⟨_ | observed | observed, stats⟩ payload timeout
    · rfl
    · rcases observed with ⟨_ | _ | _, journal⟩ <;> rfl
    · rcases observed with ⟨_ | _ | _, journal⟩ <;> rfl
  close := by
    rintro ⟨_ | observed | observed, stats⟩
    · rfl
    · rcases observed with ⟨_ | _ | _, journal⟩ <;> rfl
    · rcases observed with ⟨_ | _ | _, journal⟩ <;> rfl

end Channel

end LiveLayout
