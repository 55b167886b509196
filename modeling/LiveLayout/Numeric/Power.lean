/-!
# Powers of two and ten

The powers that binary and decimal scales are made of.
-/

namespace LiveLayout

/-- The power of two of an exponent: one bit, shifted. -/
def twoPow (k : Nat) : Nat := 1 <<< k

/-- The power of ten of an exponent. -/
def tenPow (k : Nat) : Nat := Nat.pow 10 k

end LiveLayout
