import LiveLayout.Position.Mapper
import LiveLayout.Proofs.Outcome

/-!
# Interleaved coordinates

An interleaved list is gone through twice: every other item from the first on is the first of a
pair, and every other item from the second on is the second of one. So a buffer of pairs is read as
those pairs, whatever the coordinates are.
-/

namespace LiveLayout

/-- Pairs one behind the other. -/
def interleave {α : Type} (pairs : List (α × α)) : List α :=
  pairs.flatMap fun pair => [pair.1, pair.2]

theorem interleave_cons {α : Type} (pair : α × α) (rest : List (α × α)) :
    interleave (pair :: rest) = pair.1 :: pair.2 :: interleave rest := rfl

theorem drop_interleave_cons {α : Type} (pair : α × α) (rest : List (α × α)) :
    (interleave (pair :: rest)).drop 1 = pair.2 :: interleave rest := rfl

@[simp] theorem length_interleave {α : Type} (pairs : List (α × α)) :
    (interleave pairs).length = 2 * pairs.length := by
  induction pairs with
  | nil => rfl
  | cons pair rest ih =>
      simp only [interleave_cons, List.length_cons, ih]
      omega

/-- From the first item on, every other item is the first of its pair. -/
theorem everyOther_interleave {α : Type} (taken : List α) (pairs : List (α × α)) :
    everyOther taken (interleave pairs) = taken.reverse ++ pairs.map Prod.fst := by
  induction pairs generalizing taken with
  | nil => exact (List.append_nil _).symm
  | cons pair rest ih =>
      rw [interleave_cons, everyOther, ih]
      simp

/-- From the second item on, every other item is the second of its pair. -/
theorem everyOther_drop_interleave {α : Type} (taken : List α) (pairs : List (α × α)) :
    everyOther taken ((interleave pairs).drop 1) = taken.reverse ++ pairs.map Prod.snd := by
  induction pairs generalizing taken with
  | nil => exact (List.append_nil _).symm
  | cons pair rest ih =>
      rw [drop_interleave_cons]
      cases rest with
      | nil => simp [interleave, everyOther]
      | cons next others =>
          have hrest := ih (pair.2 :: taken)
          rw [drop_interleave_cons] at hrest
          rw [interleave_cons, everyOther, hrest]
          simp

namespace PositionBuffer

theorem pairs_interleave {α : Type} (pairs : List (α × α)) :
    PositionBuffer.pairs (interleave pairs).length = .ok pairs.length := by
  have heven : ¬ 2 * pairs.length % 2 ≠ 0 := by omega
  rw [length_interleave, PositionBuffer.pairs, if_neg heven,
    Nat.mul_div_cancel_left _ Nat.two_pos]

theorem rows_singles (pairs : List (UInt32 × UInt32)) :
    (singles (interleave pairs)).rows = .ok pairs.length :=
  pairs_interleave pairs

theorem positions_singles (pairs : List (UInt32 × UInt32)) :
    (singles (interleave pairs)).positions =
      .ok ⟨pairs.map Prod.fst, pairs.map Prod.snd⟩ := by
  rw [positions, pairs_interleave, everyOther_interleave, everyOther_drop_interleave]
  rfl

end PositionBuffer

end LiveLayout
