import LiveLayout.Network.Ipv4

/-!
# Addresses of sixteen bytes

Such an address is written as eight numbers in base sixteen between colons. Two colons stand for
as many zeros as are missing, and an address of four bytes may stand for the last two numbers.
-/

namespace LiveLayout

/-- An address of sixteen bytes, as its eight numbers, and the interface that it is meant on. -/
structure Ipv6 where
  groups : List Nat
  interface? : Option Nat
  deriving DecidableEq, Repr

namespace Ipv6

/-- One to four digits. -/
def group? (text : List Char) : Option Nat :=
  if text.length ≤ 4 then numberIn? 16 text else none

/-- Numbers between colons. -/
def plainGroups? (text : List Char) : Option (List Nat) :=
  if text.isEmpty then some [] else (pieces ':' text).mapM group?

/-- Numbers between colons, the last two perhaps as an address of four bytes. -/
def lastGroups? (text : List Char) : Option (List Nat) :=
  match (pieces ':' text).getLast?.bind Ipv4.parsePlain? with
  | none => plainGroups? text
  | some ⟨value⟩ => do
    let before ← (pieces ':' text).dropLast.mapM group?
    some (before ++ [value / 65536, value % 65536])

/-- The text in front of the first two colons and the text behind them. -/
def splitGap? (before : List Char) : List Char → Option (List Char × List Char)
  | ':' :: ':' :: after => some (before.reverse, after)
  | c :: rest => splitGap? (c :: before) rest
  | [] => none

/-- The eight numbers that a text spells. -/
def groups? (text : List Char) : Option (List Nat) := do
  match splitGap? [] text with
  | none =>
    let groups ← lastGroups? text
    if groups.length = 8 then some groups else none
  | some (before, after) =>
    let front ← plainGroups? before
    let back ← lastGroups? after
    let length := front.length + back.length
    if length < 8 then some (front ++ List.replicate (8 - length) 0 ++ back) else none

/-- The address that a text spells, with the number of an interface after a percent sign. -/
def parse? (text : List Char) : Option Ipv6 :=
  match pieces '%' text with
  | [address] => (groups? address).map (⟨·, none⟩)
  | [address, interface] => do
    let groups ← groups? address
    let number ← numberIn? 10 interface
    if number < UInt32.size then some ⟨groups, if number = 0 then none else some number⟩ else none
  | _ => none

/-- The address stands for any of the machine. -/
def isUnspecified (address : Ipv6) : Bool := address.groups.all (· == 0)

/-- The address stands for one of four bytes. -/
def isMapped (address : Ipv6) : Bool := address.groups.take 6 == [0, 0, 0, 0, 0, 0xFFFF]

/-- The address stands for a group of machines. -/
def isMulticast (address : Ipv6) : Bool := 0xFF00 ≤ address.groups.headD 0

/-- The address has a meaning only on an interface. -/
def isLinkLocal (address : Ipv6) : Bool := address.groups.headD 0 / 64 == 0xFE80 / 64

end Ipv6

end LiveLayout
