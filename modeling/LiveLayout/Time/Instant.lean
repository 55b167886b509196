import LiveLayout.Numeric.Power
import LiveLayout.Text.Blank

/-!
# Instants

A point in universal time, to the nanosecond. An instant is written in the Internet date format
with as few fraction digits as lose nothing, in groups of three, and read from that format with
any offset. A second may be a leap second, which shares the number of the second before it and
has nanoseconds from one billion on.
-/

namespace LiveLayout

/-- A day, counted from 1970-01-01, a second of that day and the nanoseconds since. -/
structure Instant where
  day : Int
  second : Nat
  nanos : Nat
  deriving DecidableEq, Repr

namespace Instant

/-- The start of 1970. -/
def epoch : Instant := ⟨0, 0, 0⟩

/-- A leap year has 366 days. -/
def isLeapYear (year : Int) : Bool := year % 4 = 0 && (year % 100 ≠ 0 || year % 400 = 0)

/-- The number of days of a month, from 1 to 12. -/
def monthLength (year : Int) (month : Nat) : Nat :=
  if month = 2 then (if isLeapYear year then 29 else 28)
  else if month = 4 ∨ month = 6 ∨ month = 9 ∨ month = 11 then 30
  else 31

/-- The number of a date, counted in years that start in March. -/
def dayOfDate (year : Int) (month day : Nat) : Int :=
  let shifted := if month ≤ 2 then year - 1 else year
  let era := shifted / 400
  let yearOfEra := shifted % 400
  let dayOfYear : Int := (153 * ((month + 9) % 12) + 2) / 5 + day - 1
  era * 146097 + (yearOfEra * 365 + yearOfEra / 4 - yearOfEra / 100 + dayOfYear) - 719468

/-- The year, month and day of the month of a day. -/
def dateOfDay (day : Int) : Int × Nat × Nat :=
  let shifted := day + 719468
  let era := shifted / 146097
  let dayOfEra := (shifted % 146097).toNat
  let yearOfEra := (dayOfEra - dayOfEra / 1460 + dayOfEra / 36524 - dayOfEra / 146096) / 365
  let dayOfYear := dayOfEra - (365 * yearOfEra + yearOfEra / 4 - yearOfEra / 100)
  let monthFromMarch := (5 * dayOfYear + 2) / 153
  let month := if monthFromMarch < 10 then monthFromMarch + 3 else monthFromMarch - 9
  let year := (yearOfEra : Int) + era * 400
  (if month ≤ 2 then year + 1 else year, month, dayOfYear - (153 * monthFromMarch + 2) / 5 + 1)

/-- The nanoseconds from one instant to a later one. A leap second between them counts. -/
def nanosBetween (start stop : Instant) : Int :=
  let adjust : Int :=
    if start.second < stop.second then (if 1000000000 ≤ start.nanos then 1 else 0)
    else if stop.second < start.second then (if 1000000000 ≤ stop.nanos then -1 else 0)
    else 0
  ((stop.day - start.day) * 86400 + ((stop.second : Int) - start.second) + adjust) * 1000000000 +
    ((stop.nanos : Int) - start.nanos)

/-- The whole milliseconds from one instant to a later one. -/
def millisBetween (start stop : Instant) : Int := (nanosBetween start stop).tdiv 1000000

/-! ## Writing -/

/-- A number with at least `width` digits. -/
def padded (width n : Nat) : String :=
  let digits := toString n
  String.ofList (List.replicate (width - digits.length) '0') ++ digits

/-- A year, with four digits where they do and with a sign otherwise. -/
def yearText (year : Int) : String :=
  if 0 ≤ year ∧ year ≤ 9999 then padded 4 year.toNat
  else (if year < 0 then "-" else "+") ++ padded 4 year.natAbs

/-- The fraction of a second, in as few groups of three digits as lose nothing. -/
def fractionText (nanos : Nat) : String :=
  if nanos = 0 then ""
  else if nanos % 1000000 = 0 then "." ++ padded 3 (nanos / 1000000)
  else if nanos % 1000 = 0 then "." ++ padded 6 (nanos / 1000)
  else "." ++ padded 9 nanos

/-- An instant in the Internet date format. -/
def render (instant : Instant) : String :=
  let (year, month, day) := dateOfDay instant.day
  let leap := instant.nanos / 1000000000
  let hour := instant.second / 3600
  let minute := instant.second / 60 % 60
  let second := instant.second % 60 + leap
  yearText year ++ "-" ++ padded 2 month ++ "-" ++ padded 2 day ++ "T" ++ padded 2 hour ++ ":" ++
    padded 2 minute ++ ":" ++ padded 2 second ++ fractionText (instant.nanos % 1000000000) ++ "Z"

/-! ## Reading -/

/-- Drops blanks in front. -/
def skipBlanks (text : List Char) : List Char := text.dropWhile isBlank

/-- The number that digits spell. -/
def digitsValue (digits : List Char) : Nat :=
  digits.foldl (fun n digit => 10 * n + (digit.toNat - '0'.toNat)) 0

/-- One to `most` digits. -/
def number? (most : Nat) (text : List Char) : Option (Nat × List Char) :=
  let digits := (text.take most).takeWhile Char.isDigit
  if digits.isEmpty then none else some (digitsValue digits, text.drop digits.length)

/-- A number within bounds, after any blanks. -/
def field? (low high : Nat) (text : List Char) : Option (Nat × List Char) := do
  let (n, rest) ← number? 2 (skipBlanks text)
  if low ≤ n ∧ n ≤ high then some (n, rest) else none

/-- A mark, after any blanks. -/
def mark? (mark : Char) (text : List Char) : Option (List Char) :=
  match skipBlanks text with
  | c :: rest => if c = mark then some rest else none
  | [] => none

/-- A year: up to four digits, or any number of them after a sign. -/
def year? (text : List Char) : Option (Int × List Char) :=
  match skipBlanks text with
  | '-' :: rest => (number? rest.length rest).map fun (n, rest) => (-(n : Int), rest)
  | '+' :: rest => (number? rest.length rest).map fun (n, rest) => ((n : Int), rest)
  | rest => (number? 4 rest).map fun (n, rest) => ((n : Int), rest)

/-- The years that instants have. -/
def yearInRange (year : Int) : Bool := -262143 ≤ year && year ≤ 262142

/-- A date as the number of its day. -/
def date? (text : List Char) : Option (Int × List Char) := do
  let (year, rest) ← year? text
  let (month, rest) ← field? 1 12 (← mark? '-' rest)
  let (day, rest) ← field? 1 31 (← mark? '-' rest)
  if yearInRange year && day ≤ monthLength year month then
    some (dayOfDate year month day, rest)
  else none

/-- A fraction of a second in nanoseconds; digits past the ninth are dropped. -/
def fraction? (text : List Char) : Option (Nat × List Char) :=
  match text with
  | '.' :: rest => do
    let (n, after) ← number? 9 rest
    let digits := rest.length - after.length
    some (n * tenPow (9 - digits), after.dropWhile Char.isDigit)
  | _ => some (0, text)

/-- A time of day as its second and nanoseconds. -/
def time? (text : List Char) : Option (Nat × Nat × List Char) := do
  let (hour, rest) ← field? 0 23 text
  let (minute, rest) ← field? 0 59 (← mark? ':' rest)
  let (second, rest) ← field? 0 60 (← mark? ':' rest)
  let (nanos, rest) ← fraction? rest
  if second = 60 then some (hour * 3600 + minute * 60 + 59, nanos + 1000000000, rest)
  else some (hour * 3600 + minute * 60 + second, nanos, rest)

/-- Exactly two digits. -/
def twoDigits? : List Char → Option (Nat × List Char)
  | a :: b :: rest => if a.isDigit && b.isDigit then some (digitsValue [a, b], rest) else none
  | _ => none

/-- An offset from universal time in minutes. -/
def offset? (text : List Char) : Option (Int × List Char) :=
  let signed (sign : Int) (text : List Char) : Option (Int × List Char) := do
    let (hours, rest) ← twoDigits? text
    let (minutes, rest) ← twoDigits? (rest.dropWhile fun c => c == ':' || isBlank c)
    if minutes < 60 ∧ hours < 24 then some (sign * (hours * 60 + minutes), rest) else none
  match text with
  | 'U' :: 'T' :: 'C' :: rest => some (0, rest)
  | 'Z' :: rest => some (0, rest)
  | 'z' :: rest => some (0, rest)
  | '+' :: rest => signed 1 rest
  | '-' :: rest => signed (-1) rest
  | '\u2212' :: rest => signed (-1) rest
  | a :: b :: c :: rest =>
    if [a, b, c].map Char.toUpper = ['U', 'T', 'C'] then some (0, rest) else none
  | _ => none

/-- A local time moved to universal time. -/
def shift (day : Int) (second nanos : Nat) (offset : Int) : Instant :=
  let moved := (second : Int) - offset * 60
  ⟨day + moved / 86400, (moved % 86400).toNat, nanos⟩

/-- The instant that a text in the Internet date format names. -/
def parse? (text : String) : Option Instant := do
  let (day, rest) ← date? text.toList
  let rest ← match rest with
    | 't' :: rest => some rest
    | 'T' :: rest => some rest
    | ' ' :: rest => some rest
    | _ => none
  let (second, nanos, rest) ← time? rest
  let (offset, rest) ← offset? (skipBlanks rest)
  let instant := shift day second nanos offset
  if (skipBlanks rest).isEmpty && yearInRange (dateOfDay instant.day).1 then some instant else none

end Instant

end LiveLayout
