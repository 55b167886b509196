import LiveLayout.Proofs.Layout.Buffers
import LiveLayout.Proofs.Numeric.Single

/-!
# The nudges of a jitter layout

The generator of the nudges adds shifts of its state to it, without carry. A word that is its own
shift is zero, so nothing is lost by that and no state but zero leads to zero. A seed is made odd
before the first draw, hence the generator never comes to rest. Each draw is a word of 24 bits,
which a single holds, and so is each step from there to the nudge: nothing is ever rounded.
-/

namespace LiveLayout

/-! ## Shifted words -/

section Shifts

variable {width places : Nat}

/-- Only zero is its own shift to the right. -/
theorem eq_zero_of_eq_ushiftRight (hplaces : 0 < places) {word : BitVec width}
    (h : word = word >>> places) : word = BitVec.ofNat width 0 := by
  have hquotient : word.toNat = word.toNat / 2 ^ places := by
    conv_lhs => rw [h, BitVec.toNat_ushiftRight, Nat.shiftRight_eq_div_pow]
  apply BitVec.eq_of_toNat_eq
  by_contra hne
  have hpos : 0 < word.toNat := Nat.pos_of_ne_zero hne
  have hlt := Nat.div_lt_self hpos (Nat.one_lt_two_pow hplaces.ne')
  omega

/-- Only zero is its own shift to the left: shifted as often as it has bits, nothing is left. -/
theorem eq_zero_of_eq_shiftLeft (hplaces : 0 < places) {word : BitVec width}
    (h : word = word <<< places) : word = BitVec.ofNat width 0 := by
  have hshifted : ∀ times : Nat, word = word <<< (places * times) := by
    intro times
    induction times with
    | zero => rw [Nat.mul_zero, BitVec.shiftLeft_zero]
    | succ times ih =>
        rw [Nat.mul_succ, BitVec.shiftLeft_add, ← ih]
        exact h
  rw [hshifted width]
  exact BitVec.shiftLeft_eq_zero (Nat.le_mul_of_pos_left width hplaces)

/-- Words that agree after something was added to each differ by what was added. -/
theorem xor_eq_xor_of_eq {a b c d : BitVec width} (h : a ^^^ c = b ^^^ d) : a ^^^ b = c ^^^ d := by
  calc a ^^^ b = (a ^^^ c) ^^^ (c ^^^ b) := by
        rw [BitVec.xor_assoc, ← BitVec.xor_assoc c, BitVec.xor_self, BitVec.zero_xor]
    _ = (b ^^^ d) ^^^ (c ^^^ b) := by rw [h]
    _ = c ^^^ d := by
        rw [BitVec.xor_comm b d, BitVec.xor_assoc, BitVec.xor_comm c b, ← BitVec.xor_assoc b,
          BitVec.xor_self, BitVec.zero_xor, BitVec.xor_comm]

/-- Adding a shift to the right without carry loses nothing. -/
theorem injective_xor_ushiftRight (hplaces : 0 < places) :
    Function.Injective fun word : BitVec width => word ^^^ (word >>> places) := by
  intro a b hsame
  have hshift : a ^^^ b = (a ^^^ b) >>> places :=
    (xor_eq_xor_of_eq hsame).trans (BitVec.ushiftRight_xor_distrib a b places).symm
  exact BitVec.xor_eq_zero_iff.mp (eq_zero_of_eq_ushiftRight hplaces hshift)

/-- Adding a shift to the left without carry loses nothing. -/
theorem injective_xor_shiftLeft (hplaces : 0 < places) :
    Function.Injective fun word : BitVec width => word ^^^ (word <<< places) := by
  intro a b hsame
  have hshift : a ^^^ b = (a ^^^ b) <<< places :=
    (xor_eq_xor_of_eq hsame).trans (BitVec.shiftLeft_xor_distrib a b places).symm
  exact BitVec.xor_eq_zero_iff.mp (eq_zero_of_eq_shiftLeft hplaces hshift)

end Shifts

namespace Jitter

/-! ## States -/

theorem toBitVec_scramble (state : UInt64) :
    (scramble state).toBitVec =
      ((fun word : BitVec 64 => word ^^^ (word >>> 27)) ∘
        (fun word : BitVec 64 => word ^^^ (word <<< 25)) ∘
        fun word : BitVec 64 => word ^^^ (word >>> 12)) state.toBitVec := rfl

/-- No two states lead to the same. -/
theorem injective_scramble : Function.Injective scramble := by
  intro a b hsame
  apply UInt64.toBitVec_inj.mp
  apply (injective_xor_ushiftRight (show 0 < 27 by decide)).comp
    ((injective_xor_shiftLeft (show 0 < 25 by decide)).comp
      (injective_xor_ushiftRight (show 0 < 12 by decide)))
  rw [← toBitVec_scramble, ← toBitVec_scramble, hsame]

theorem scramble_eq_zero_iff (state : UInt64) : scramble state = 0 ↔ state = 0 :=
  injective_scramble.eq_iff' rfl

/-- A generator that starts from an odd seed does not come to rest. -/
theorem iterate_scramble_ne_zero (seed : UInt64) (count : Nat) :
    scramble^[count] (seed ||| 1) ≠ 0 := by
  induction count with
  | zero =>
      intro hzero
      exact absurd (UInt64.or_eq_zero_iff.mp hzero).2 (by decide)
  | succ count ih =>
      rw [Function.iterate_succ_apply']
      exact (scramble_eq_zero_iff _).not.mpr ih

/-- The nudges of some draws in a row. -/
def nextUnits : Nat → StateM UInt64 (List Float32)
  | 0 => pure []
  | count + 1 => do
    let nudge ← nextUnit
    let later ← nextUnits count
    return nudge :: later

theorem run_nextUnits (count : Nat) (state : UInt64) :
    (nextUnits count).run state =
      ((List.range count).map fun k => unit (draw (scramble^[k + 1] state)),
        scramble^[count] state) := by
  induction count generalizing state with
  | zero => rfl
  | succ count ih =>
      have hrun : (nextUnits (count + 1)).run state =
          (unit (draw (scramble state)) :: ((nextUnits count).run (scramble state)).1,
            ((nextUnits count).run (scramble state)).2) := rfl
      rw [hrun, ih, map_range_succ]
      rfl

/-! ## Draws -/

/-- Each value between a draw and its nudge is the exact one. -/
structure Exact (word : UInt64) : Prop where
  bits : word.toNat < 2 ^ 24
  single : Single.value? word.toFloat32 = some (word.toNat : Rat)
  fraction : Single.value? (word.toFloat32 / Float32.ofBits 0x4B800000) =
    some ((word.toNat : Rat) / 2 ^ 24)
  doubled : Single.value? (word.toFloat32 / Float32.ofBits 0x4B800000 *
    Float32.ofBits 0x40000000) = some ((word.toNat : Rat) / 2 ^ 23)
  nudge : Single.value? (unit word) = some ((word.toNat : Rat) / 2 ^ 23 - 1)

theorem toNat_draw_lt (state : UInt64) : (draw state).toNat < 2 ^ 24 := by
  have hproduct := (state * 0x2545F4914F6CDD1D).toNat_lt
  rw [draw, UInt64.toNat_shiftRight, Nat.shiftRight_eq_div_pow]
  exact Nat.div_lt_of_lt_mul hproduct

/-- From a word of 24 bits to its nudge nothing is rounded. -/
theorem exact_of_bits {word : UInt64} (h : word.toNat < 2 ^ 24) : Exact word := by
  have hsize : Single.IsScaled (Float32.ofBits 0x4B800000) 1 24 := rfl
  have htwo : Single.IsScaled (Float32.ofBits 0x40000000) 1 1 := rfl
  have hone : Single.IsScaled (Float32.ofBits 0x3F800000) (2 ^ 23) (-23) := rfl
  have hword := Single.isScaled_toFloat32 h
  have hfraction := hword.div hsize ⟨h, by decide, by decide⟩
  have hdoubled := hfraction.mul htwo ⟨h, by decide, by decide⟩
  have hnudge := hdoubled.sub hone ⟨by omega, by decide, by decide⟩
  have hhalves : (2 : Rat) ^ (0 - 24 + 1 : Int) = 1 / 2 ^ 23 := by norm_num
  refine ⟨h, ?_, ?_, ?_, ?_⟩
  · rw [hword.value?_eq, zpow_zero, mul_one, Int.cast_natCast]
  · have hsmallest : (2 : Rat) ^ (0 - 24 : Int) = 1 / 2 ^ 24 := by norm_num
    rw [hfraction.value?_eq, hsmallest, mul_one_div, Int.cast_natCast]
  · rw [hdoubled.value?_eq, hhalves, mul_one_div, Int.cast_natCast]
  · have hdifference := hnudge.value?_eq
    rw [hhalves, mul_one_div, Int.cast_sub, sub_div, Int.cast_natCast] at hdifference
    rw [unit, hdifference]
    norm_num

/-- A nudge is a whole number of steps of `2 ^ -23` above -1, and stays below 1. -/
theorem Exact.exists_steps {word : UInt64} (h : Exact word) :
    ∃ k : Nat, k < 2 ^ 24 ∧ Single.value? (unit word) = some ((k : Rat) / 2 ^ 23 - 1) ∧
      (-1 : Rat) ≤ (k : Rat) / 2 ^ 23 - 1 ∧ (k : Rat) / 2 ^ 23 - 1 < 1 := by
  have hbits : (word.toNat : Rat) < 2 ^ 24 := by exact_mod_cast h.bits
  refine ⟨word.toNat, h.bits, h.nudge, ?_, ?_⟩
  · have hnonneg : (0 : Rat) ≤ (word.toNat : Rat) / 2 ^ 23 := by positivity
    linarith
  · have hbelow : (word.toNat : Rat) / 2 ^ 23 < 2 := by
      rw [div_lt_iff₀ (by positivity)]
      linarith
    linarith

/-! ## Iterations -/

section Iterations

variable {n : Nat} (jitter : Jitter)

/-- Each value is nudged by a draw of its own. -/
theorem run_nudgeFlat (values shifts : List Float32) (h : values.length = shifts.length)
    (state : UInt64) :
    ((jitter.nudgeFlat values shifts).run state).2 = scramble^[values.length] state := by
  induction values generalizing shifts state with
  | nil => rfl
  | cons value values ih =>
      cases shifts with
      | nil => cases h
      | cons shift shifts => exact ih shifts (Nat.succ.inj h) (scramble state)

/-- An iteration makes two draws a node. -/
theorem run_step (links : List (Fin n × Fin n)) (places : Vector Point n) (state : UInt64) :
    ((jitter.step links places).run state).2 = scramble^[2 * n] state := by
  have hflat := congrArg (fun step => (step.run state).2) (jitter.step_flat links places)
  have hdraws := jitter.run_nudgeFlat (coordinates places.toList)
    (coordinates (jitter.shifts links places).toList) (by simp) state
  rw [length_coordinates, Vector.length_toList] at hdraws
  exact hflat.symm.trans hdraws

/-- An iteration, as a step from places and a state of the generator to the next. -/
def advance (links : List (Fin n × Fin n)) (held : Vector Point n × UInt64) :
    Vector Point n × UInt64 :=
  (jitter.step links held.1).run held.2

/-- A batch shows the places after its iteration. -/
theorem batchAt_eq (links : List (Fin n × Fin n)) (k : Nat) (held : Vector Point n × UInt64) :
    jitter.batchAt links k held.1 held.2 = batch ((jitter.advance links)^[k + 1] held).1 := by
  induction k generalizing held with
  | zero => rfl
  | succ k ih =>
      rw [Function.iterate_succ_apply]
      exact ih (jitter.advance links held)

theorem state_iterate_advance (links : List (Fin n × Fin n)) (iterations : Nat)
    (held : Vector Point n × UInt64) :
    ((jitter.advance links)^[iterations] held).2 = scramble^[iterations * (2 * n)] held.2 := by
  induction iterations with
  | zero => rw [Nat.zero_mul]; rfl
  | succ iterations ih =>
      rw [Function.iterate_succ_apply', advance, run_step, ih, ← Function.iterate_add_apply,
        Nat.succ_mul iterations, Nat.add_comm]

end Iterations

/-- The generator never comes to rest and its nudges stay in range. No two states lead to the same,
and only zero leads to zero; so from a seed that was made odd no number of draws leads to zero.
Those of a layout are of this kind: its batches show the places after each iteration, and by then
there were two draws a node and iteration. A nudge is drawn with 24 bits. From there on each value
is the exact one, so the nudge is a whole number of steps of `2 ^ -23` above -1, and less than 1. -/
theorem nudges_in_range :
    Function.Injective scramble ∧ (∀ state, scramble state = 0 ↔ state = 0) ∧
    (∀ seed count, ((nextUnits count).run (seed ||| 1)).2 ≠ 0) ∧
    (∀ {n : Nat} (jitter : Jitter) (links : List (Fin n × Fin n)) (iterations : Nat),
      let start := (circle n, jitter.seed ||| 1)
      jitter.batchAt links iterations start.1 start.2 =
        batch ((jitter.advance links)^[iterations + 1] start).1 ∧
      ((jitter.advance links)^[iterations] start).2 =
        ((nextUnits (iterations * (2 * n))).run start.2).2) ∧
    (∀ state, nextUnit.run state = (unit (draw (scramble state)), scramble state) ∧
      Exact (draw (scramble state))) ∧
    ∀ seed count, ∀ nudge ∈ ((nextUnits count).run (seed ||| 1)).1,
      ∃ k : Nat, k < 2 ^ 24 ∧ Single.value? nudge = some ((k : Rat) / 2 ^ 23 - 1) ∧
        (-1 : Rat) ≤ (k : Rat) / 2 ^ 23 - 1 ∧ (k : Rat) / 2 ^ 23 - 1 < 1 := by
  refine ⟨injective_scramble, scramble_eq_zero_iff, fun seed count => ?_,
    fun jitter links iterations => ⟨jitter.batchAt_eq links iterations _, ?_⟩,
    fun state => ⟨rfl, exact_of_bits (toNat_draw_lt _)⟩, fun seed count nudge hnudge => ?_⟩
  · rw [run_nextUnits]
    exact iterate_scramble_ne_zero seed count
  · rw [run_nextUnits]
    exact jitter.state_iterate_advance links iterations _
  · rw [run_nextUnits] at hnudge
    obtain ⟨k, -, rfl⟩ := List.mem_map.mp hnudge
    exact (exact_of_bits (toNat_draw_lt _)).exists_steps

/-- The first nudge of seed 0. -/
theorem nudges_in_range_first :
    ((nextUnits 2).run (0 ||| 1)).2 ≠ 0 ∧
      Single.value? (nextUnit.run (0 ||| 1)).1 = some (4711630 / 2 ^ 23 - 1) := by
  obtain ⟨-, -, hstates, -, hexact, -⟩ := nudges_in_range
  obtain ⟨hrun, hdraw⟩ := hexact (0 ||| 1)
  have hword : (draw (scramble (0 ||| 1))).toNat = 4711630 := by decide
  have hnudge := hdraw.nudge
  rw [hword] at hnudge
  refine ⟨hstates 0 2, ?_⟩
  rw [hrun]
  exact hnudge

end Jitter

end LiveLayout
