/-!
# UTF-8 text

Characters are written one to four bytes at a time and read back by a machine that takes one byte
per step. A reading that fails names the first byte of the character at fault, and how many bytes
of it were seen before the fault.
-/

namespace LiveLayout

/-- Wire data, first byte first. -/
abbrev Bytes := List UInt8

namespace Utf8

/-- The bytes of a text, character by character. -/
def encode (text : String) : Bytes :=
  text.toList.flatMap String.utf8EncodeChar

/-- Why bytes are not text: where the character at fault starts, and how many of its bytes were
good. A character that the bytes end inside has no count. -/
structure Defect where
  start : Nat
  seen? : Option Nat
  deriving DecidableEq, Repr

/-- The wording of a defect. -/
def Defect.message : Defect → String
  | ⟨start, some seen⟩ => s!"invalid utf-8 sequence of {seen} bytes from index {start}"
  | ⟨start, none⟩ => s!"incomplete utf-8 byte sequence from index {start}"

/-- A character whose last bytes are still to come: `left` of them, the next one between `low`
and `high`. -/
structure Partial where
  start : Nat
  seen : Nat
  left : Nat
  low : UInt8
  high : UInt8
  value : Nat
  deriving DecidableEq, Repr

/-- What the first byte of a character says about the rest of it. The bounds on the second byte
leave out overlong forms, surrogates and values past the last code point. -/
def lead (start : Nat) (byte : UInt8) : Option Partial :=
  if byte < 0x80 then some ⟨start, 1, 0, 0x80, 0xBF, byte.toNat⟩
  else if byte < 0xC2 then none
  else if byte < 0xE0 then some ⟨start, 1, 1, 0x80, 0xBF, byte.toNat - 0xC0⟩
  else if byte = 0xE0 then some ⟨start, 1, 2, 0xA0, 0xBF, 0⟩
  else if byte = 0xED then some ⟨start, 1, 2, 0x80, 0x9F, 0xD⟩
  else if byte < 0xF0 then some ⟨start, 1, 2, 0x80, 0xBF, byte.toNat - 0xE0⟩
  else if byte = 0xF0 then some ⟨start, 1, 3, 0x90, 0xBF, 0⟩
  else if byte < 0xF4 then some ⟨start, 1, 3, 0x80, 0xBF, byte.toNat - 0xF0⟩
  else if byte = 0xF4 then some ⟨start, 1, 3, 0x80, 0x8F, 4⟩
  else none

/-- A character one byte further on, if that byte is one it can go on with. -/
def Partial.take? (pending : Partial) (byte : UInt8) : Option Partial :=
  if pending.low ≤ byte ∧ byte ≤ pending.high then
    some ⟨pending.start, pending.seen + 1, pending.left - 1, 0x80, 0xBF,
      pending.value * 64 + (byte.toNat - 0x80)⟩
  else none

/-- Reads bytes from position `index` on, with the characters read so far in reverse. -/
def scan (index : Nat) (pending? : Option Partial) (chars : List Char) :
    Bytes → Except Defect (List Char)
  | [] =>
    match pending? with
    | none => .ok chars.reverse
    | some pending => .error ⟨pending.start, none⟩
  | byte :: rest =>
    match pending? with
    | none =>
      match lead index byte with
      | none => .error ⟨index, some 1⟩
      | some next =>
        if next.left = 0 then scan (index + 1) none (Char.ofNat next.value :: chars) rest
        else scan (index + 1) (some next) chars rest
    | some pending =>
      match pending.take? byte with
      | none => .error ⟨pending.start, some pending.seen⟩
      | some next =>
        if next.left = 0 then scan (index + 1) none (Char.ofNat next.value :: chars) rest
        else scan (index + 1) (some next) chars rest

/-- The text that bytes spell, or the first defect in them. -/
def decode (bytes : Bytes) : Except Defect String :=
  (scan 0 none [] bytes).map String.ofList

end Utf8

end LiveLayout
