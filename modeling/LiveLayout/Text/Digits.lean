/-!
# Digits

Numbers spelled by digits in a base up to sixteen.
-/

namespace LiveLayout

/-- The value of a digit; letters of either case stand for ten and more. -/
def digitValue? (c : Char) : Option Nat :=
  if c.isDigit then some (c.toNat - '0'.toNat)
  else if 'a' ≤ c ∧ c ≤ 'f' then some (c.toNat - 'a'.toNat + 10)
  else if 'A' ≤ c ∧ c ≤ 'F' then some (c.toNat - 'A'.toNat + 10)
  else none

/-- The number that digits spell in a base. -/
def valueInBase (base : Nat) (digits : List Char) : Nat :=
  digits.foldl (fun n digit => base * n + (digitValue? digit).getD 0) 0

/-- The character is a digit of a base. -/
def isDigitOf (base : Nat) (c : Char) : Bool :=
  match digitValue? c with
  | some value => value < base
  | none => false

/-- The number that a text spells, if it holds digits of the base and nothing else. -/
def numberIn? (base : Nat) (text : List Char) : Option Nat :=
  if !text.isEmpty && text.all (isDigitOf base) then some (valueInBase base text) else none

end LiveLayout
