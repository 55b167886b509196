import LiveLayout.Document.Datum
import LiveLayout.Document.Toml.Lexical
import LiveLayout.Time.Instant

/-!
# TOML: numbers and dates

Integers have 64 bits. Underscores may stand between digits, and only an integer in base ten may
have a sign or must not start with zero.
-/

namespace LiveLayout.Toml

/-- The digits of a number, in reverse after those of `done`, with single underscores between. -/
def digitRun (isDigit : Char → Bool) (done : List Char) : List Char → List Char × List Char
  | c :: rest =>
    if isDigit c then digitRun isDigit (c :: done) rest
    else if c = '_' && !done.isEmpty && (rest.head?.map isDigit).getD false then
      digitRun isDigit done rest
    else (done.reverse, c :: rest)
  | [] => (done.reverse, [])

/-- One digit or more. -/
def digits? (isDigit : Char → Bool) : Scan (List Char) := fun text =>
  let (digits, rest) := digitRun isDigit [] text
  if digits.isEmpty then none else some (digits, rest)

/-- The digits of an integer in base ten, which starts with zero only if it is zero. -/
def decimalDigits? : Scan (List Char)
  | '0' :: rest => some (['0'], rest)
  | text => digits? Char.isDigit text

/-- An integer of 64 bits. -/
def int64? (n : Int) : Option Int :=
  if Int64.minValue.toInt ≤ n ∧ n ≤ Int64.maxValue.toInt then some n else none

/-- An integer after the mark of its base. -/
def basedInt? (base : Nat) (isDigit : Char → Bool) : Scan Datum := fun text => do
  let (digits, rest) ← digits? isDigit text
  let n ← int64? (valueInBase base digits)
  some (.int n, rest)

/-- The sign of a number, if it has one. -/
def sign : List Char → Option Char × List Char
  | '+' :: rest => (some '+', rest)
  | '-' :: rest => (some '-', rest)
  | text => (none, text)

/-- The exponent of a float, with its sign. -/
def exponent? : Scan Int
  | e :: rest =>
    if e = 'e' || e = 'E' then do
      let (sign?, rest) := sign rest
      let (digits, rest) ← digits? Char.isDigit rest
      let n : Int := valueInBase 10 digits
      some (if sign? = some '-' then -n else n, rest)
    else none
  | [] => none

/-- `digits` scaled by `10 ^ scale` is too large for a double. The least such number is halfway
from the largest double to the next power of two. -/
def overflows (digits : List Char) (scale : Int) : Bool :=
  let significant := digits.dropWhile (· = '0')
  let size := (significant.length : Int) + scale
  if significant.isEmpty || size < 309 then false
  else if 310 < size then true
  else
    let value := valueInBase 10 significant
    let bound := twoPow 1024 - twoPow 970
    if 0 ≤ scale then bound ≤ value * tenPow scale.toNat
    else bound * tenPow scale.natAbs ≤ value

/-- A float of some digits, unless it is too large. Too small a negative one is kept. -/
def float? (sign? : Option Char) (whole fraction : List Char) (exponent : Int)
    (rest : List Char) : Option (Datum × List Char) :=
  if sign? ≠ some '-' && overflows (whole ++ fraction) (exponent - fraction.length) then none
  else
    let spelling := sign?.toList ++ whole ++ ['.'] ++ fraction ++ 'e' :: (toString exponent).toList
    some (.float (String.ofList spelling), rest)

/-- A number in base ten. -/
def decimal? : Scan Datum := fun text =>
  let (sign?, unsigned) := sign text
  match unsigned with
  | 'i' :: 'n' :: 'f' :: rest => some (.float "inf", rest)
  | 'n' :: 'a' :: 'n' :: rest => some (.float "nan", rest)
  | _ => do
    let (whole, rest) ← decimalDigits? unsigned
    match rest with
    | '.' :: rest => do
      let (fraction, rest) ← digits? Char.isDigit rest
      match rest.head? with
      | some 'e' | some 'E' => do
        let (exponent, rest) ← exponent? rest
        float? sign? whole fraction exponent rest
      | _ => float? sign? whole fraction 0 rest
    | 'e' :: _ | 'E' :: _ => do
      let (exponent, rest) ← exponent? rest
      float? sign? whole [] exponent rest
    | _ => do
      let size : Int := valueInBase 10 whole
      let n ← int64? (if sign? = some '-' then -size else size)
      some (.int n, rest)

/-- A number. -/
def number? : Scan Datum
  | '0' :: 'x' :: rest => basedInt? 16 (fun c => (digitValue? c).isSome) rest
  | '0' :: 'o' :: rest => basedInt? 8 (fun c => '0' ≤ c && c ≤ '7') rest
  | '0' :: 'b' :: rest => basedInt? 2 (fun c => c = '0' || c = '1') rest
  | text => decimal? text

/-! ## Dates -/

/-- Two digits of a number within bounds. -/
def twoDigits? (low high : Nat) : Scan Nat := fun text => do
  let (n, rest) ← Instant.twoDigits? text
  if low ≤ n ∧ n ≤ high then some (n, rest) else none

/-- The rest after a mark. -/
def mark? (mark : Char) : List Char → Option (List Char)
  | c :: rest => if c = mark then some rest else none
  | [] => none

/-- The rest after a time of day, with a fraction of a second if there is one. -/
def time? (text : List Char) : Option (List Char) := do
  let (_, rest) ← twoDigits? 0 23 text
  let (_, rest) ← twoDigits? 0 59 (← mark? ':' rest)
  let (_, rest) ← twoDigits? 0 60 (← mark? ':' rest)
  match rest with
  | '.' :: c :: after => some (if c.isDigit then after.dropWhile Char.isDigit else rest)
  | _ => some rest

/-- The rest after an offset, if there is one; a sign must be followed by hours and minutes. -/
def offset? (text : List Char) : Option (List Char) :=
  let hours (rest : List Char) : Option (List Char) := do
    let (_, rest) ← twoDigits? 0 23 rest
    let (_, rest) ← twoDigits? 0 59 (← mark? ':' rest)
    some rest
  match text with
  | 'Z' :: rest => some rest
  | 'z' :: rest => some rest
  | '+' :: rest => hours rest
  | '-' :: rest => hours rest
  | _ => some text

/-- The rest after a date. -/
def date? : List Char → Option (List Char)
  | a :: b :: c :: d :: '-' :: rest =>
    if [a, b, c, d].all Char.isDigit then do
      let year : Int := valueInBase 10 [a, b, c, d]
      let (month, rest) ← twoDigits? 1 12 rest
      let (day, rest) ← twoDigits? 1 31 (← mark? '-' rest)
      if day ≤ Instant.monthLength year month then some rest else none
    else none
  | _ => none

/-- A date starts with four digits and a dash, a time of day with two digits and a colon. -/
def looksLikeDate : List Char → Bool
  | a :: b :: ':' :: _ => a.isDigit && b.isDigit
  | a :: b :: c :: d :: '-' :: _ => [a, b, c, d].all Char.isDigit
  | _ => false

/-- The rest after a date, a time of day, or both with an offset. -/
def dateTimeRest? (text : List Char) : Option (List Char) :=
  match text with
  | _ :: _ :: ':' :: _ => time? text
  | _ => do
    let rest ← date? text
    match rest with
    | delimiter :: after =>
      if (delimiter = 'T' || delimiter = 't' || delimiter = ' ') && looksLikeDate after then do
        offset? (← time? after)
      else some rest
    | [] => some rest

/-- A date or time, kept as it is spelled. -/
def dateTime? : Scan Datum := fun text => do
  let rest ← dateTimeRest? text
  some (.date (String.ofList (text.take (text.length - rest.length))), rest)

end LiveLayout.Toml
