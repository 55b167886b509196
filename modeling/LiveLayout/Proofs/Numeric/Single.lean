import Mathlib

/-!
# Singles without rounding

A single is a significand of 24 bits, scaled by a power of two. Where an operation has a result of
that form it gives just this result, since nothing is rounded away. So integers of up to 24 bits
that share a scale can be divided and multiplied by powers of two and subtracted, all without an
error.
-/

namespace LiveLayout.Single

open Float.Model (Format UnpackedFloat totalExponent)
open Float.Model.UnpackedFloat

/-- The number that a single stands for, if it is finite. -/
def value? (x : Float32) : Option Rat :=
  match x.toModel.unpack with
  | .zero _ => some 0
  | .finite sign significand exponent _ => some (sign.apply significand * 2 ^ exponent)
  | _ => none

/-! ## Scaled integers -/

/-- The number of places that an integer is moved up by to fill 24 bits. -/
def lead (n : Nat) : Nat := 23 - n.log2

/-- The sign of an integer. -/
def signOf (z : Int) : Sign := if z < 0 then .negative else .positive

/-- The float `z * 2 ^ e`, with a significand that fills 24 bits unless it is zero. -/
def scaled (z e : Int) : UnpackedFloat :=
  if h : z = 0 then .zero .positive
  else .finite (signOf z) (z.natAbs * 2 ^ lead z.natAbs) (e - lead z.natAbs)
    (Nat.mul_pos (Int.natAbs_pos.mpr h) (Nat.two_pow_pos _))

/-- The integer has at most 24 bits, and the scale is within what exponents allow. -/
structure Fits (z e : Int) : Prop where
  bits : z.natAbs < 2 ^ 24
  low : -126 ≤ e
  high : e ≤ 104

section Scaled

variable {n a : Nat} {z e : Int}

theorem scaled_zero (e : Int) : scaled 0 e = .zero .positive := rfl

theorem scaled_of_ne_zero (h : z ≠ 0) (e : Int) :
    scaled z e = .finite (signOf z) (z.natAbs * 2 ^ lead z.natAbs) (e - lead z.natAbs)
      (Nat.mul_pos (Int.natAbs_pos.mpr h) (Nat.two_pow_pos _)) := dif_neg h

theorem signOf_apply (z : Int) (n : Nat) : (signOf z).apply (z.natAbs * n : Nat) = z * n := by
  unfold signOf
  split_ifs with h
  · rw [Sign.apply, Nat.cast_mul, Int.ofNat_natAbs_of_nonpos h.le, neg_mul, neg_neg]
  · rw [Sign.apply, Nat.cast_mul, Int.natAbs_of_nonneg (not_lt.mp h)]

theorem signOf_neg (h : z ≠ 0) : signOf (-z) = -signOf z := by
  rcases h.lt_or_gt with hz | hz
  · rw [signOf, signOf, if_neg (by omega), if_pos hz]
    rfl
  · rw [signOf, signOf, if_pos (by omega), if_neg hz.not_gt]
    rfl

theorem log2_mul_two_pow (hn : 0 < n) (a : Nat) : (n * 2 ^ a).log2 = n.log2 + a := by
  have hn' : n ≠ 0 := hn.ne'
  obtain ⟨hlow, hhigh⟩ := (Nat.log2_eq_iff hn').mp rfl
  apply (Nat.log2_eq_iff (Nat.mul_pos hn (Nat.two_pow_pos a)).ne').mpr
  constructor
  · rw [pow_add]
    exact Nat.mul_le_mul_right _ hlow
  · rw [add_right_comm, pow_add]
    exact Nat.mul_lt_mul_of_pos_right hhigh (Nat.two_pow_pos a)

theorem log2_le_of_lt (hn : 0 < n) (hbits : n < 2 ^ 24) : n.log2 ≤ 23 :=
  Nat.lt_succ_iff.mp ((Nat.log2_lt hn.ne').mpr hbits)

theorem log2_mul_lead (hn : 0 < n) (hbits : n < 2 ^ 24) : (n * 2 ^ lead n).log2 = 23 := by
  rw [log2_mul_two_pow hn, lead]
  exact Nat.add_sub_of_le (log2_le_of_lt hn hbits)

/-- The exponent at which the lowest of 24 bits stands. -/
theorem targetExponent_eq (total : Int) :
    Format.binary32.targetExponent total = max (total - 24) (-149) := rfl

end Scaled

/-! ## Rounding -/

section Rounding

variable {n a : Nat} {e : Int} {sign : Sign}

/-- Zeros that are shifted out leave no trace. -/
theorem shiftRight_exact (m j : Nat) :
    ExtendedMantissa.ofMantissaAndAccuracy (m * 2 ^ j) .exact >>> j = ⟨m, false, false⟩ := by
  change Nat.repeat ExtendedMantissa.shiftRightOne j ⟨m * 2 ^ j, false, false⟩ = _
  induction j generalizing m with
  | zero => simp [Nat.repeat]
  | succ j ih =>
      have hshifted : m * 2 ^ (j + 1) = m * 2 * 2 ^ j := by rw [pow_succ']; ring
      rw [Nat.repeat, hshifted, ih]
      simp [ExtendedMantissa.shiftRightOne]

/-- A significand that ends in enough zeros is brought to 24 bits as it is. -/
theorem shiftToTargetExponent_eq (hn : 0 < n) (hbits : n < 2 ^ 24) (hlow : -126 ≤ e)
    (ha : lead n ≤ a) :
    shiftToTargetExponent .binary32 (n * 2 ^ a) (e - a) .exact =
      (⟨n * 2 ^ lead n, false, false⟩, e - lead n) := by
  have hlog := log2_le_of_lt hn hbits
  have htarget : Format.binary32.targetExponent (totalExponent (n * 2 ^ a) (e - a)) =
      e - lead n := by
    rw [targetExponent_eq, totalExponent, log2_mul_two_pow hn, lead]
    omega
  have hshift : (e - lead n - (e - a)).toNat = a - lead n := by omega
  have hsplit : n * 2 ^ a = n * 2 ^ lead n * 2 ^ (a - lead n) := by
    rw [mul_assoc, ← pow_add, Nat.add_sub_of_le ha]
  rw [shiftToTargetExponent, htarget, shiftToExponent, hshift]
  simp only [hsplit, shiftRight_exact, Prod.mk.injEq, true_and]
  omega

/-- Rounding keeps what has 24 bits up to zeros behind them. -/
theorem roundWithAccuracy_eq (hn : 0 < n) (hbits : n < 2 ^ 24) (hlow : -126 ≤ e)
    (ha : lead n ≤ a) :
    roundWithAccuracy .binary32 sign (n * 2 ^ a) (e - a) .exact =
      .finite sign (n * 2 ^ lead n) (e - lead n) (Nat.mul_pos hn (Nat.two_pow_pos _)) := by
  have hne : n * 2 ^ lead n ≠ 0 := (Nat.mul_pos hn (Nat.two_pow_pos _)).ne'
  have hrounded : (ExtendedMantissa.mk (n * 2 ^ lead n) false false).roundedMantissa =
      n * 2 ^ lead n := rfl
  simp only [roundWithAccuracy, shiftToTargetExponent_eq hn hbits hlow ha, hrounded,
    shiftToTargetExponent_eq hn hbits hlow le_rfl, dif_neg hne]

theorem round_eq (hn : 0 < n) (hbits : n < 2 ^ 24) (hlow : -126 ≤ e) (a : Nat) :
    UnpackedFloat.round .binary32 sign (n * 2 ^ a) (e - a) =
      .finite sign (n * 2 ^ lead n) (e - lead n) (Nat.mul_pos hn (Nat.two_pow_pos _)) := by
  have hlog := log2_le_of_lt hn hbits
  have htarget : Format.binary32.targetExponent (totalExponent (n * 2 ^ a) (e - a)) =
      e - lead n := by
    rw [targetExponent_eq, totalExponent, log2_mul_two_pow hn, lead]
    omega
  have hshift : (e - a - (e - lead n)).toNat = lead n - a := by omega
  have hmoved : (n * 2 ^ a) <<< (lead n - a) = n * 2 ^ max a (lead n) := by
    rw [Nat.shiftLeft_eq, mul_assoc, ← pow_add]
    congr 2
    omega
  have hexponent : e - a - (lead n - a : Nat) = e - (max a (lead n) : Nat) := by omega
  rw [UnpackedFloat.round, htarget, decreaseExponent, hshift, hmoved]
  simp only [hexponent]
  exact roundWithAccuracy_eq hn hbits hlow (le_max_right _ _)

end Rounding

theorem normalize_eq {z e : Int} (h : Fits z e) (a : Nat) :
    UnpackedFloat.normalize .binary32 (z * 2 ^ a) (e - a) .positive = scaled z e := by
  have hpow : (0 : Int) < 2 ^ a := by positivity
  unfold UnpackedFloat.normalize
  rcases lt_trichotomy z 0 with hz | rfl | hz
  · have habs : (-(z * 2 ^ a)).toNat = z.natAbs * 2 ^ a := by
      zify
      rw [Int.toNat_of_nonneg (by nlinarith), abs_of_neg hz]
      ring
    have hsign : signOf z = .negative := if_pos hz
    rw [Int.compare_eq_lt.mpr (mul_neg_of_neg_of_pos hz hpow), scaled_of_ne_zero hz.ne]
    simp only [habs, round_eq (Int.natAbs_pos.mpr hz.ne) h.bits h.low, hsign]
  · rw [zero_mul, scaled_zero]
    rfl
  · have habs : (z * 2 ^ a).toNat = z.natAbs * 2 ^ a := by
      zify
      rw [Int.toNat_of_nonneg (by positivity), abs_of_pos hz]
    have hsign : signOf z = .positive := if_neg hz.not_gt
    rw [Int.compare_eq_gt.mpr (mul_pos hz hpow), scaled_of_ne_zero hz.ne']
    simp only [habs, round_eq (Int.natAbs_pos.mpr hz.ne') h.bits h.low, hsign]

/-! ## Bits -/

/-- The bit in front of a fraction of 23 bits. -/
theorem toNat_leading (fraction : BitVec 23) :
    (1#1 ++ fraction).toNat = 2 ^ 23 + fraction.toNat := by
  rw [BitVec.toNat_append, ← Nat.shiftLeft_add_eq_or_of_lt fraction.isLt]
  rfl

/-- A significand of 24 bits is kept by the 32 bits of a single, if the exponent is. -/
theorem unpack_pack_finite (sign : Sign) {m : Nat} {e : Int} (hm : 0 < m) (hfull : 2 ^ 23 ≤ m)
    (hbits : m < 2 ^ 24) (hlow : -149 ≤ e) (hhigh : e ≤ 104) :
    (Float32.Model.pack (.finite sign m e hm)).unpack = .finite sign m e hm := by
  have hlog : m.log2 = 23 := (Nat.log2_eq_iff hm.ne').mpr ⟨hfull, hbits⟩
  obtain ⟨biased, hbiased, hone, hmost⟩ : ∃ biased : Nat, e = biased - 150 ∧ 1 ≤ biased ∧
      biased ≤ 254 := ⟨(e + 150).toNat, by omega, by omega, by omega⟩
  have hpacked : UnpackedFloat.pack .binary32 (.finite sign m e hm) =
      packComponents .binary32 sign (BitVec.ofNat 8 biased) (BitVec.ofNat 23 m) := by
    have hstored : (e + Format.binary32.exponentBias +
        Format.binary32.mantissaBitsWithoutImplicit).toNat = biased := by
      change (e + 127 + 23).toNat = biased
      omega
    have hinside : ¬ 2 ^ 8 ≤ biased + 1 := by omega
    have hleading : m.log2 + 1 = Format.binary32.mantissaBits := by rw [hlog]; rfl
    rw [UnpackedFloat.pack]
    simp only [hstored, if_neg hinside, if_pos hleading]
  have hexponent : (BitVec.ofNat 8 biased).toNat = biased := by
    rw [BitVec.toNat_ofNat]
    omega
  have hnotAll : BitVec.ofNat 8 biased ≠ -1#8 := by
    intro hall
    have hall := congrArg BitVec.toNat hall
    rw [hexponent] at hall
    change biased = 255 at hall
    omega
  have hnotZero : BitVec.ofNat 8 biased ≠ 0#8 := by
    intro hzero
    have hzero := congrArg BitVec.toNat hzero
    rw [hexponent] at hzero
    change biased = 0 at hzero
    omega
  have hfraction : (1#1 ++ BitVec.ofNat 23 m).toNat = m := by
    rw [toNat_leading, BitVec.toNat_ofNat]
    omega
  change unpack .binary32 (UnpackedFloat.pack .binary32 (.finite sign m e hm)) = _
  rw [hpacked, unpack]
  simp only [unpackExponent_packComponents, unpackMantissa_packComponents,
    unpackSign_packComponents, Sign.ofBitVec_toBitVec, if_neg hnotAll, if_neg hnotZero, hexponent,
    hfraction]
  congr 1
  change (biased : Int) - (127 + 23) = e
  omega

/-- Scaled integers are kept by the 32 bits of a single. -/
theorem unpack_pack_scaled {z e : Int} (h : Fits z e) :
    (Float32.Model.pack (scaled z e)).unpack = scaled z e := by
  rcases eq_or_ne z 0 with rfl | hz
  · rw [scaled_zero]
    rfl
  have hpos := Int.natAbs_pos.mpr hz
  have hlog := log2_mul_lead hpos h.bits
  have hlead : lead z.natAbs ≤ 23 := Nat.sub_le _ _
  have hmoved : 0 < z.natAbs * 2 ^ lead z.natAbs := Nat.mul_pos hpos (Nat.two_pow_pos _)
  obtain ⟨hfull, hbits⟩ := (Nat.log2_eq_iff hmoved.ne').mp hlog
  rw [scaled_of_ne_zero hz]
  have hlow := h.low
  have hhigh := h.high
  exact unpack_pack_finite _ hmoved hfull hbits (by omega) (by omega)

/-! ## Operations -/

/-- The single is an integer times a power of two. -/
def IsScaled (x : Float32) (z e : Int) : Prop := x.toModel.unpack = scaled z e

section Operations

variable {x y : Float32} {z w e k : Int}

theorem scaled_one (k : Int) : scaled 1 k = .finite .positive (2 ^ 23) (k - 23) (by decide) := rfl

theorem IsScaled.value?_eq (h : IsScaled x z e) : value? x = some ((z : Rat) * 2 ^ e) := by
  rw [value?, h]
  rcases eq_or_ne z 0 with rfl | hz
  · simp [scaled_zero]
  · rw [scaled_of_ne_zero hz]
    have hscale : (2 : Rat) ^ lead z.natAbs * 2 ^ (e - lead z.natAbs) = 2 ^ e := by
      rw [← zpow_natCast, ← zpow_add₀ two_ne_zero, add_sub_cancel]
    simp only [signOf_apply]
    push_cast
    rw [mul_assoc, hscale]

/-- A word of up to 24 bits becomes the single that is equal to it. -/
theorem isScaled_toFloat32 {word : UInt64} (h : word.toNat < 2 ^ 24) :
    IsScaled word.toFloat32 word.toNat 0 := by
  have hfits : Fits word.toNat 0 := ⟨h, by decide, by decide⟩
  have hnormal := normalize_eq hfits 0
  rw [pow_zero, mul_one, Nat.cast_zero, sub_zero] at hnormal
  change (Float32.Model.pack (UnpackedFloat.normalize .binary32 word.toNat 0 .positive)).unpack = _
  rw [hnormal, unpack_pack_scaled hfits]

/-- Division by the significand of a power of two leaves no remainder: the quotient is what was
divided, with at least as many zeros behind it as it takes to fill 24 bits. -/
theorem exists_divCore_eq {n : Nat} (hn : 0 < n) (hbits : n < 2 ^ 24) (hlow : -126 ≤ e - k) :
    ∃ a, lead n ≤ a ∧
      divCore .binary32 (n * 2 ^ lead n) (e - lead n) (2 ^ 23) (k - 23) =
        (n * 2 ^ a, e - k - a, .exact) := by
  have hlead : lead n ≤ 23 := Nat.sub_le _ _
  have hlog : (2 ^ 23 : Nat).log2 = 23 := Nat.log2_two_pow
  obtain ⟨j, hj, htarget⟩ : ∃ j : Nat, 23 ≤ j ∧
      min (e - lead n - (k - 23)) (Format.binary32.targetExponent
        (totalExponent (n * 2 ^ lead n) (e - lead n) - totalExponent (2 ^ 23) (k - 23))) =
        e - lead n - (k - 23) - j := by
    rw [targetExponent_eq, totalExponent, totalExponent, log2_mul_lead hn hbits, hlog]
    exact ⟨(min 24 (e - lead n - k + 172)).toNat, by omega, by omega⟩
  have hshift : (e - lead n - (k - 23) - (e - lead n - (k - 23) - j)).toNat = j := by omega
  have hmoved : (n * 2 ^ lead n) <<< j = n * 2 ^ (lead n + (j - 23)) * 2 ^ 23 := by
    rw [Nat.shiftLeft_eq, mul_assoc, mul_assoc, ← pow_add, ← pow_add]
    congr 2
    omega
  refine ⟨lead n + (j - 23), Nat.le_add_right _ _, ?_⟩
  simp only [divCore, htarget, hshift, hmoved, Nat.mul_div_cancel _ (Nat.two_pow_pos 23),
    Nat.mul_mod_left, accuracyOfFraction, if_true, Prod.mk.injEq, true_and, and_true]
  omega

theorem unpack_div (x y : Float32) : (x / y).toModel.unpack =
    (Float32.Model.pack (.div .binary32 x.toModel.unpack y.toModel.unpack)).unpack := rfl

theorem unpack_mul (x y : Float32) : (x * y).toModel.unpack =
    (Float32.Model.pack (.mul .binary32 x.toModel.unpack y.toModel.unpack)).unpack := rfl

theorem unpack_sub (x y : Float32) : (x - y).toModel.unpack =
    (Float32.Model.pack (.sub .binary32 x.toModel.unpack y.toModel.unpack)).unpack := rfl

/-- Dividing by a power of two moves the scale down. -/
theorem IsScaled.div (hx : IsScaled x z e) (hy : IsScaled y 1 k) (h : Fits z (e - k)) :
    IsScaled (x / y) z (e - k) := by
  have hexact : UnpackedFloat.div .binary32 (scaled z e) (scaled 1 k) = scaled z (e - k) := by
    rw [scaled_one]
    rcases eq_or_ne z 0 with rfl | hz
    · rfl
    have hpos := Int.natAbs_pos.mpr hz
    have hsign : signOf z / .positive = signOf z := by cases signOf z <;> rfl
    obtain ⟨a, ha, hquotient⟩ := exists_divCore_eq hpos h.bits h.low
    rw [scaled_of_ne_zero hz, scaled_of_ne_zero hz]
    simp only [UnpackedFloat.div, hquotient, hsign]
    exact roundWithAccuracy_eq hpos h.bits h.low ha
  rw [IsScaled, unpack_div, hx, hy, hexact, unpack_pack_scaled h]

/-- Multiplying by a power of two moves the scale up. -/
theorem IsScaled.mul (hx : IsScaled x z e) (hy : IsScaled y 1 k) (h : Fits z (e + k)) :
    IsScaled (x * y) z (e + k) := by
  have hexact : UnpackedFloat.mul .binary32 (scaled z e) (scaled 1 k) = scaled z (e + k) := by
    rw [scaled_one]
    rcases eq_or_ne z 0 with rfl | hz
    · rfl
    have hpos := Int.natAbs_pos.mpr hz
    have hsign : signOf z * .positive = signOf z := by cases signOf z <;> rfl
    have hproduct :
        z.natAbs * 2 ^ lead z.natAbs * 2 ^ 23 = z.natAbs * 2 ^ (lead z.natAbs + 23) := by
      rw [mul_assoc, ← pow_add]
    have hexponent : e - lead z.natAbs + (k - 23) = e + k - (lead z.natAbs + 23 : Nat) := by
      push_cast
      ring
    rw [scaled_of_ne_zero hz, scaled_of_ne_zero hz]
    simp only [UnpackedFloat.mul, hsign, hproduct, hexponent]
    exact roundWithAccuracy_eq hpos h.bits h.low (Nat.le_add_right _ _)
  rw [IsScaled, unpack_mul, hx, hy, hexact, unpack_pack_scaled h]

/-- A significand that is moved down to a lower exponent. -/
theorem decreaseExponent_eq (n : Nat) (e : Int) {a b : Nat} (h : a ≤ b) :
    (decreaseExponent (n * 2 ^ a) (e - a) (e - b)).1 = n * 2 ^ b := by
  have hshift : (e - a - (e - b)).toNat = b - a := by omega
  rw [decreaseExponent, hshift]
  simp only [Nat.shiftLeft_eq]
  rw [mul_assoc, ← pow_add, Nat.add_sub_of_le h]

/-- A difference on one scale stays on it, if it has no more than 24 bits. -/
theorem IsScaled.sub (hx : IsScaled x z e) (hy : IsScaled y w e) (h : Fits (z - w) e) :
    IsScaled (x - y) (z - w) e := by
  have hexact : UnpackedFloat.sub .binary32 (scaled z e) (scaled w e) = scaled (z - w) e := by
    rcases eq_or_ne z 0 with rfl | hz
    · rcases eq_or_ne w 0 with rfl | hw
      · rfl
      · rw [scaled_zero, scaled_of_ne_zero hw, zero_sub, scaled_of_ne_zero (neg_ne_zero.mpr hw)]
        simp only [UnpackedFloat.sub, signOf_neg hw, Int.natAbs_neg]
    rcases eq_or_ne w 0 with rfl | hw
    · rw [scaled_zero, sub_zero, scaled_of_ne_zero hz]
      rfl
    have hmin : min (e - lead z.natAbs) (e - lead w.natAbs) =
        e - (max (lead z.natAbs) (lead w.natAbs) : Nat) := by
      omega
    rw [scaled_of_ne_zero hz, scaled_of_ne_zero hw]
    simp only [UnpackedFloat.sub, hmin, decreaseExponent_eq _ _ (le_max_left _ _),
      decreaseExponent_eq _ _ (le_max_right _ _), signOf_apply, ← sub_mul]
    rw [Nat.cast_pow, Nat.cast_ofNat]
    exact normalize_eq h _
  rw [IsScaled, unpack_sub, hx, hy, hexact, unpack_pack_scaled h]

end Operations

end LiveLayout.Single
