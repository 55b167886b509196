import LiveLayout.Error
import LiveLayout.Position.Buffer

/-!
# Layouts

A layout reports batches of positions to a callback and may react to each answer. It is a finite
tree: a report or a closing call, each with what follows every possible answer, or an end.
-/

namespace LiveLayout

/-- What a layout reports to. -/
structure Callback (σ : Type) where
  onIteration : PositionBuffer → σ → Except StreamError Unit × σ
  onClose : σ → Except StreamError Unit × σ

/-- What is left of a layout. -/
inductive Layout where
  | finish (outcome : Except StreamError Unit)
  | report (batch : PositionBuffer) (next : Except StreamError Unit → Layout)
  | close (next : Except StreamError Unit → Layout)

namespace Layout

/-- Runs a layout against a callback. -/
def run {σ : Type} (callback : Callback σ) : Layout → σ → Except StreamError Unit × σ
  | finish outcome, state => (outcome, state)
  | report batch next, state =>
    let (answer, state) := callback.onIteration batch state
    run callback (next answer) state
  | close next, state =>
    let (answer, state) := callback.onClose state
    run callback (next answer) state

/-- Goes on only after a good answer; an error ends the layout. -/
def whenOk (next : Unit → Layout) : Except StreamError Unit → Layout
  | .ok () => next ()
  | .error error => finish (.error error)

/-- Reports batches in order until one is refused, then goes on. -/
def reportAll (batches : List PositionBuffer) (next : Layout) : Layout :=
  match batches with
  | [] => next
  | batch :: rest => report batch (whenOk fun _ => reportAll rest next)

end Layout

end LiveLayout
