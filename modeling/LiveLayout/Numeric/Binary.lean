import LiveLayout.Numeric.Power

/-!
# Binary floating point by bits

Single and double precision values are their IEEE 754 bits. Conversions between them and from
integers go to the nearest value, a half to the even one, and keep the payload of a value that is
not a number, made quiet.
-/

namespace LiveLayout

/-- `n / 2 ^ k` to the nearest integer, a half to the even one. -/
def roundShift (n k : Nat) : Nat :=
  let quotient := n / twoPow k
  let twice := 2 * (n % twoPow k)
  if twoPow k < twice ∨ (twice = twoPow k ∧ quotient % 2 = 1) then quotient + 1 else quotient

namespace Binary64

/-- The sign bit. -/
def signBit : Nat := twoPow 63

/-- The double nearest to an integer. A rounding that carries past the significand moves into the
exponent, which lies just above it. -/
def ofInt (n : Int) : UInt64 :=
  let size := n.natAbs
  let sign := if n < 0 then signBit else 0
  if size = 0 then 0
  else
    let top := size.log2
    let significand := if top ≤ 52 then size * twoPow (52 - top) else roundShift size (top - 52)
    UInt64.ofNat (sign + (top + 1022) * twoPow 52 + significand)

/-- The double equal to a single. -/
def ofBinary32 (bits : UInt32) : UInt64 :=
  let n := bits.toNat
  let sign := if twoPow 31 ≤ n then signBit else 0
  let exponent := n / twoPow 23 % 256
  let fraction := n % twoPow 23
  if exponent = 255 then
    let quiet := if fraction = 0 ∨ twoPow 22 ≤ fraction then 0 else twoPow 51
    UInt64.ofNat (sign + 2047 * twoPow 52 + quiet + fraction * twoPow 29)
  else if exponent = 0 then
    if fraction = 0 then UInt64.ofNat sign
    else
      let top := fraction.log2
      UInt64.ofNat (sign + (top + 873) * twoPow 52 + fraction * twoPow (52 - top))
  else UInt64.ofNat (sign + (exponent + 896) * twoPow 52 + fraction * twoPow 29)

end Binary64

namespace Binary32

/-- The sign bit. -/
def signBit : Nat := twoPow 31

/-- The bits of positive infinity. -/
def infinity : Nat := 255 * twoPow 23

/-- The single nearest to a double. -/
def ofBinary64 (bits : UInt64) : UInt32 :=
  let n := bits.toNat
  let sign := if twoPow 63 ≤ n then signBit else 0
  let exponent := n / twoPow 52 % 2048
  let fraction := n % twoPow 52
  if exponent = 2047 then
    let payload := fraction / twoPow 29
    if fraction = 0 then UInt32.ofNat (sign + infinity)
    else UInt32.ofNat (sign + infinity + twoPow 22 + payload % twoPow 22)
  else if exponent = 0 then UInt32.ofNat sign
  else
    let significand := twoPow 52 + fraction
    if exponent < 897 then UInt32.ofNat (sign + roundShift significand (29 + (897 - exponent)))
    else
      let magnitude := (exponent - 897) * twoPow 23 + roundShift significand 29
      UInt32.ofNat (sign + min magnitude infinity)

end Binary32

end LiveLayout
