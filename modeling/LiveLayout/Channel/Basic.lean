import LiveLayout.Text.Utf8

/-!
# Channels

A channel hands payloads to a transport without ever waiting for it, counts what becomes of them,
and closes the transport once. Closing is final: every later payload is turned away.
-/

namespace LiveLayout

/-- Why a payload was not taken. -/
inductive DropReason where
  | wouldBlock
  | disconnected
  | closed
  deriving DecidableEq, Repr

/-- The name of a reason. -/
def DropReason.name : DropReason → String
  | wouldBlock => "would block"
  | disconnected => "disconnected"
  | closed => "closed"

/-- What became of a payload. -/
inductive SendResult where
  | delivered
  | dropped (reason : DropReason)
  deriving DecidableEq, Repr

/-- The payload was taken. -/
def SendResult.isDelivered : SendResult → Bool
  | delivered => true
  | dropped _ => false

/-- What carries payloads away. A timed send may wait some milliseconds for room. -/
class Transport (τ : Type) where
  name : τ → String
  trySend : τ → Bytes → SendResult × τ
  sendTimeout : τ → Bytes → Nat → SendResult × τ
  close : τ → τ

/-- Payloads by what became of them, and the bytes of those that were taken. -/
structure ChannelStats where
  sent : Nat
  dropped : Nat
  rejected : Nat
  bytesSent : Nat
  deriving DecidableEq, Repr

namespace ChannelStats

/-- Nothing was sent yet. -/
def zero : ChannelStats := ⟨0, 0, 0, 0⟩

/-- The number of payloads that were not taken, in a machine word. -/
def missed (stats : ChannelStats) : Nat := (stats.dropped + stats.rejected) % UInt64.size

/-- The number of payloads sent, in a machine word: past the largest it starts at zero again. -/
def attempts (stats : ChannelStats) : Nat :=
  (stats.sent + stats.dropped + stats.rejected) % UInt64.size

/-- One more payload of `length` bytes. -/
def record (stats : ChannelStats) (result : SendResult) (length : Nat) : ChannelStats :=
  match result with
  | .delivered => { stats with sent := stats.sent + 1, bytesSent := stats.bytesSent + length }
  | .dropped .wouldBlock => { stats with dropped := stats.dropped + 1 }
  | .dropped _ => { stats with rejected := stats.rejected + 1 }

end ChannelStats

/-- The far end of a channel. A released transport takes nothing more, but what it took before can
still be read from it. -/
inductive Endpoint (τ : Type) where
  | absent
  | attached (transport : τ)
  | released (transport : τ)
  deriving Repr

/-- A transport with a count of what was sent. -/
structure Channel (τ : Type) where
  endpoint : Endpoint τ
  stats : ChannelStats
  deriving Repr

namespace Channel

variable {τ : Type}

/-- A channel without a transport. -/
def unopened : Channel τ := ⟨.absent, .zero⟩

/-- A channel over a transport. -/
def onto (transport : τ) : Channel τ := ⟨.attached transport, .zero⟩

/-- The transport, released or not. -/
def transport? (channel : Channel τ) : Option τ :=
  match channel.endpoint with
  | .absent => none
  | .attached transport => some transport
  | .released transport => some transport

/-- The channel takes nothing more. -/
def isClosed (channel : Channel τ) : Bool :=
  match channel.endpoint with
  | .attached _ => false
  | _ => true

/-- Changes the transport where it can still be reached, as its consumer does. -/
def mapTransport (channel : Channel τ) (change : τ → τ) : Channel τ :=
  match channel.endpoint with
  | .absent => channel
  | .attached transport => ⟨.attached (change transport), channel.stats⟩
  | .released transport => ⟨.released (change transport), channel.stats⟩

variable [Transport τ]

/-- Puts a payload to the transport in the given way and counts what became of it. -/
def offer (channel : Channel τ) (payload : Bytes) (put : τ → SendResult × τ) :
    SendResult × Channel τ :=
  match channel.endpoint with
  | .attached transport =>
    let (result, transport) := put transport
    (result, ⟨.attached transport, channel.stats.record result payload.length⟩)
  | endpoint =>
    let result := SendResult.dropped .closed
    (result, ⟨endpoint, channel.stats.record result payload.length⟩)

/-- Sends a payload if there is room for it now. -/
def send (channel : Channel τ) (payload : Bytes) : SendResult × Channel τ :=
  channel.offer payload fun transport => Transport.trySend transport payload

/-- Sends a payload, waiting up to `timeout` milliseconds for room. -/
def sendFinal (channel : Channel τ) (payload : Bytes) (timeout : Nat) : SendResult × Channel τ :=
  channel.offer payload fun transport => Transport.sendTimeout transport payload timeout

/-- Closes the transport, if that has not been done. -/
def close (channel : Channel τ) : Channel τ :=
  match channel.endpoint with
  | .attached transport => ⟨.released (Transport.close transport), channel.stats⟩
  | _ => channel

end Channel

end LiveLayout
