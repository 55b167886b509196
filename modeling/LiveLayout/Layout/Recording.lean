import LiveLayout.Layout.Algorithm

/-!
# Recordings

A callback that keeps what a layout reports, and may refuse a batch once it holds enough of them.
-/

namespace LiveLayout

/-- What a layout reported so far: its batches, the last one first, and its closing calls. -/
structure Recording where
  reversed : List PositionBuffer
  closings : Nat
  deriving DecidableEq, Repr

namespace Recording

/-- A recording before the first report. -/
def blank : Recording := ⟨[], 0⟩

/-- The batches in the order they were reported in. -/
def batches (recording : Recording) : List PositionBuffer := recording.reversed.reverse

/-- Keeps every batch, except those that arrive while exactly `limit?` of them are held. -/
def callback (limit? : Option Nat) : Callback Recording where
  onIteration batch recording :=
    if limit?.any (· = recording.reversed.length) then
      (.error (ChannelError.described "callback refused"), recording)
    else (.ok (), { recording with reversed := batch :: recording.reversed })
  onClose recording := (.ok (), { recording with closings := recording.closings + 1 })

end Recording

end LiveLayout
