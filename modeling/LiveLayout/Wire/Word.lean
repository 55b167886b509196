import LiveLayout.Text.Utf8

/-!
# Little-endian words

A word of `width` bytes carries a natural number below `256 ^ width`, low byte first.
-/

namespace LiveLayout.Word

/-- The low `width` bytes of a number, lowest first. -/
def encode : Nat → Nat → Bytes
  | 0, _ => []
  | width + 1, value => UInt8.ofNat value :: encode width (value / 256)

/-- The number that bytes spell, lowest first. -/
def value (bytes : Bytes) : Nat :=
  bytes.foldr (fun byte high => byte.toNat + 256 * high) 0

@[simp] theorem length_encode (width n : Nat) : (encode width n).length = width := by
  induction width generalizing n with
  | zero => rfl
  | succ width ih => simp [encode, ih]

end LiveLayout.Word
