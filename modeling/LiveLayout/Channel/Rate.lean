import LiveLayout.Channel.Basic
import LiveLayout.Numeric.Binary

/-!
# Loss

The share of payloads that were not taken, in double precision and as a percentage.
-/

namespace LiveLayout

/-- A natural number in double precision. -/
def doubleOfNat (n : Nat) : Float := Float.ofBits (Binary64.ofInt n)

/-- The share of payloads that were not taken; none of none. -/
def ChannelStats.dropRate (stats : ChannelStats) : Float :=
  if stats.attempts = 0 then 0
  else doubleOfNat stats.missed / doubleOfNat stats.attempts

/-- A finite double at or above zero with one decimal, a half to the even one. -/
def oneDecimal (value : Float) : String :=
  let bits := value.toBits.toNat
  let exponent := bits / twoPow 52 % 2048
  let fraction := bits % twoPow 52
  let significand := if exponent = 0 then fraction else twoPow 52 + fraction
  let scale := max exponent 1
  let tenths :=
    if scale ≤ 1075 then roundShift (significand * 10) (1075 - scale)
    else significand * 10 * twoPow (scale - 1075)
  toString (tenths / 10) ++ "." ++ toString (tenths % 10)

/-- The share of payloads that were not taken, as a percentage with one decimal. -/
def ChannelStats.lossPercent (stats : ChannelStats) : String :=
  oneDecimal (stats.dropRate * 100) ++ "%"

end LiveLayout
