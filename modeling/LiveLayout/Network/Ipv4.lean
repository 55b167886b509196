import LiveLayout.Numeric.Power
import LiveLayout.Text.Digits
import LiveLayout.Text.Pieces

/-!
# Addresses of four bytes

Such an address is written as one to four numbers between dots. Each but the last stands for one
byte, and the last for all bytes that are left.
-/

namespace LiveLayout

/-- An address of four bytes. -/
structure Ipv4 where
  value : Nat
  deriving DecidableEq, Repr

namespace Ipv4

/-- A number in base ten, after a zero in base eight, after a zero and an `x` in base sixteen. -/
def part? : List Char → Option Nat
  | '0' :: 'x' :: digits => numberIn? 16 digits
  | '0' :: 'X' :: digits => numberIn? 16 digits
  | '0' :: digits => numberIn? 8 ('0' :: digits)
  | digits => numberIn? 10 digits

/-- The value of numbers that fill some bytes. -/
def fill? (room : Nat) : List Nat → Option Nat
  | [] => none
  | [last] => if 0 < room ∧ last < twoPow (8 * room) then some last else none
  | first :: rest =>
    if first < 256 then (fill? (room - 1) rest).map (first * twoPow (8 * (room - 1)) + ·)
    else none

/-- The address that a text spells. -/
def parse? (text : List Char) : Option Ipv4 := do
  let parts ← (pieces '.' text).mapM part?
  return ⟨← fill? 4 parts⟩

/-- A byte in base ten, which starts with zero only if it is zero. -/
def plainByte? (text : List Char) : Option Nat := do
  let n ← numberIn? 10 text
  if n < 256 ∧ (text.head? = some '0' → text.length = 1) then some n else none

/-- The address that a text spells by its four bytes. -/
def parsePlain? (text : List Char) : Option Ipv4 := do
  let bytes ← (pieces '.' text).mapM plainByte?
  if bytes.length = 4 then return ⟨← fill? 4 bytes⟩ else none

end Ipv4

end LiveLayout
