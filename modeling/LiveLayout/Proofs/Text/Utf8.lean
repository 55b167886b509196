import LiveLayout.Text.Utf8
import Mathlib

/-!
# Reading UTF-8 back

The reading machine takes one byte per step, while the written form is given character by
character. Both are compared through the code point: a character that is read halfway already
holds the high digits of its code point in base 64, and the bytes still to come are the low digits.
-/

namespace LiveLayout.Utf8

/-- The last `left` bytes of a character: the low digits of its code point in base 64. -/
def continuation : Nat → Nat → Bytes
  | 0, _ => []
  | left + 1, point => UInt8.ofNat (point / 64 ^ left % 64 + 0x80) :: continuation left point

/-- The code point agrees with what was read of it and with the bounds on the next byte. -/
structure Partial.Begins (pending : Partial) (point : Nat) : Prop where
  value : point / 64 ^ pending.left = pending.value
  bounds : pending.left ≠ 0 →
    pending.low.toNat ≤ point / 64 ^ (pending.left - 1) % 64 + 0x80 ∧
      point / 64 ^ (pending.left - 1) % 64 + 0x80 ≤ pending.high.toNat

theorem digit_toNat (point left : Nat) :
    (UInt8.ofNat (point / 64 ^ left % 64 + 0x80)).toNat = point / 64 ^ left % 64 + 0x80 := by
  have h : point / 64 ^ left % 64 < 64 := Nat.mod_lt _ (by decide)
  exact UInt8.toNat_ofNat_of_lt (by simp only [UInt8.size]; omega)

theorem div_pow_split (point left : Nat) :
    point / 64 ^ (left + 1) * 64 + point / 64 ^ left % 64 = point / 64 ^ left := by
  rw [Nat.pow_succ, ← Nat.div_div_eq_div_mul]
  omega

/-- A byte that a character goes on with is the next digit of its code point. -/
theorem Partial.take?_digit {pending : Partial} {point left : Nat}
    (h : pending.Begins point) (hleft : pending.left = left + 1) :
    pending.take? (UInt8.ofNat (point / 64 ^ left % 64 + 0x80)) =
      some ⟨pending.start, pending.seen + 1, left, 0x80, 0xBF, point / 64 ^ left⟩ := by
  have hvalue := h.value
  rw [hleft] at hvalue
  have hbounds : pending.low ≤ UInt8.ofNat (point / 64 ^ left % 64 + 0x80) ∧
      UInt8.ofNat (point / 64 ^ left % 64 + 0x80) ≤ pending.high := by
    rw [UInt8.le_iff_toNat_le, UInt8.le_iff_toNat_le, digit_toNat]
    have hnext := h.bounds (by omega)
    rwa [hleft, Nat.add_sub_cancel] at hnext
  have hnext : pending.value * 64 + (point / 64 ^ left % 64 + 0x80 - 0x80) =
      point / 64 ^ left := by
    rw [← hvalue, Nat.add_sub_cancel]
    exact div_pow_split point left
  rw [Partial.take?, if_pos hbounds, digit_toNat, hnext, hleft, Nat.add_sub_cancel]

theorem begins_of_value {pending : Partial} {point : Nat}
    (hvalue : point / 64 ^ pending.left = pending.value)
    (hlow : pending.low = 0x80) (hhigh : pending.high = 0xBF) : pending.Begins point := by
  refine ⟨hvalue, ?_⟩
  intro _
  have h : point / 64 ^ (pending.left - 1) % 64 < 64 := Nat.mod_lt _ (by decide)
  rw [hlow, hhigh]
  constructor
  · show 0x80 ≤ _
    omega
  · show _ ≤ 0xBF
    omega

/-- Reading goes through the remaining bytes of a character and adds it to those read. -/
theorem scan_continuation {pending : Partial} {point : Nat} (h : pending.Begins point)
    (hleft : pending.left ≠ 0) (index : Nat) (chars : List Char) (rest : Bytes) :
    scan index (some pending) chars (continuation pending.left point ++ rest) =
      scan (index + pending.left) none (Char.ofNat point :: chars) rest := by
  obtain ⟨left, hl⟩ := Nat.exists_eq_succ_of_ne_zero hleft
  induction left generalizing pending index with
  | zero =>
      simp only [hl, continuation, List.cons_append, List.nil_append, scan,
        Partial.take?_digit h hl]
      simp
  | succ left ih =>
      have hnext : Partial.Begins ⟨pending.start, pending.seen + 1, left + 1, 0x80, 0xBF,
          point / 64 ^ (left + 1)⟩ point := begins_of_value rfl rfl rfl
      have hrest := ih hnext (Nat.succ_ne_zero left) (index + 1) rfl
      simp only [Nat.succ_eq_add_one] at hl
      rw [hl, continuation, List.cons_append]
      simp only [scan, Partial.take?_digit h hl, if_neg (Nat.succ_ne_zero left)]
      rw [hrest, Nat.add_assoc, Nat.add_comm 1]

theorem Partial.take?_fields {pending next : Partial} {byte : UInt8}
    (h : pending.take? byte = some next) :
    next.left = pending.left - 1 ∧ next.low = 0x80 ∧ next.high = 0xBF := by
  unfold Partial.take? at h
  split_ifs at h
  cases h
  exact ⟨rfl, rfl, rfl⟩

/-- A step within a character fixes one more digit of its code point. -/
theorem Partial.begins_of_take? {pending next : Partial} {byte : UInt8} {point left : Nat}
    (hleft : pending.left = left + 1)
    (hlow : 0x80 ≤ pending.low.toNat) (hhigh : pending.high.toNat ≤ 0xBF)
    (h : pending.take? byte = some next) (hnext : next.Begins point) :
    pending.Begins point ∧
      continuation pending.left point = byte :: continuation next.left point := by
  unfold Partial.take? at h
  split_ifs at h with hbyte
  cases h
  rw [UInt8.le_iff_toNat_le, UInt8.le_iff_toNat_le] at hbyte
  have hvalue := hnext.value
  simp only [hleft, Nat.add_sub_cancel] at hvalue
  have hsplit := div_pow_split point left
  have hmod : point / 64 ^ left % 64 < 64 := Nat.mod_lt _ (by decide)
  have hdigit : point / 64 ^ left % 64 + 0x80 = byte.toNat := by omega
  refine ⟨⟨?_, ?_⟩, ?_⟩
  · rw [hleft]
    omega
  · intro _
    rw [hleft, Nat.add_sub_cancel, hdigit]
    exact hbyte
  · simp only [hleft, continuation, hdigit, UInt8.ofNat_toNat, Nat.add_sub_cancel]

/-- A machine that gets to the end from within a character has read all of its bytes. -/
theorem scan_pending_ok {pending : Partial} (hleft : pending.left ≠ 0)
    (hlow : 0x80 ≤ pending.low.toNat) (hhigh : pending.high.toNat ≤ 0xBF)
    {index : Nat} {chars read : List Char} {bytes : Bytes}
    (h : scan index (some pending) chars bytes = .ok read) :
    ∃ point rest, pending.Begins point ∧ bytes = continuation pending.left point ++ rest ∧
      scan (index + pending.left) none (Char.ofNat point :: chars) rest = .ok read := by
  obtain ⟨left, hl⟩ := Nat.exists_eq_succ_of_ne_zero hleft
  induction left generalizing pending index bytes with
  | zero =>
      obtain ⟨byte, rest, rfl⟩ : ∃ byte rest, bytes = byte :: rest := by
        cases bytes with
        | nil => simp [scan] at h
        | cons byte rest => exact ⟨byte, rest, rfl⟩
      cases htake : pending.take? byte with
      | none => simp [scan, htake] at h
      | some next =>
          obtain ⟨hnl, hnlow, hnhigh⟩ := Partial.take?_fields htake
          have hzero : next.left = 0 := by omega
          have hbegins : next.Begins next.value :=
            begins_of_value (by rw [hzero, Nat.pow_zero, Nat.div_one]) hnlow hnhigh
          obtain ⟨hpoint, hcont⟩ := Partial.begins_of_take? hl hlow hhigh htake hbegins
          refine ⟨next.value, rest, hpoint, ?_, ?_⟩
          · rw [hcont, hzero]
            rfl
          · simpa [scan, htake, hzero, hl] using h
  | succ left ih =>
      obtain ⟨byte, rest, rfl⟩ : ∃ byte rest, bytes = byte :: rest := by
        cases bytes with
        | nil => simp [scan] at h
        | cons byte rest => exact ⟨byte, rest, rfl⟩
      cases htake : pending.take? byte with
      | none => simp [scan, htake] at h
      | some next =>
          obtain ⟨hnl, hnlow, hnhigh⟩ := Partial.take?_fields htake
          have hsucc : next.left = left + 1 := by omega
          simp only [scan, htake, if_neg (show next.left ≠ 0 by omega)] at h
          obtain ⟨point, tail, hbegins, hbytes, hscan⟩ :=
            ih (show next.left ≠ 0 by omega) (by rw [hnlow]; decide) (by rw [hnhigh]; decide)
              h hsucc
          obtain ⟨hpoint, hcont⟩ := Partial.begins_of_take? hl hlow hhigh htake hbegins
          refine ⟨point, tail, hpoint, ?_, ?_⟩
          · rw [hcont, hbytes]
            rfl
          · rw [← hscan]
            congr 1
            omega

/-- The number of bytes of a character behind its first. -/
def followers (point : Nat) : Nat :=
  if point < 0x80 then 0 else if point < 0x800 then 1 else if point < 0x10000 then 2 else 3

/-- The first byte of a character: the high digits of its code point under a mark of the length. -/
def header (point : Nat) : Nat :=
  if point < 0x80 then point
  else if point < 0x800 then point / 64 % 0x20 + 0xC0
  else if point < 0x10000 then point / 4096 % 0x10 + 0xE0
  else point / 262144 % 0x08 + 0xF0

theorem encodeChar_eq (c : Char) :
    String.utf8EncodeChar c =
      UInt8.ofNat (header c.toNat) :: continuation (followers c.toNat) c.toNat := by
  rw [String.utf8EncodeChar.eq_def]
  simp only [Char.toNat_val, header, followers, Nat.lt_succ_iff.symm, Nat.succ_eq_add_one]
  generalize c.toNat = point
  split_ifs <;> simp [continuation]

theorem lead_eq (start : Nat) (byte : UInt8) :
    lead start byte =
      if byte.toNat < 0x80 then some ⟨start, 1, 0, 0x80, 0xBF, byte.toNat⟩
      else if byte.toNat < 0xC2 then none
      else if byte.toNat < 0xE0 then some ⟨start, 1, 1, 0x80, 0xBF, byte.toNat - 0xC0⟩
      else if byte.toNat = 0xE0 then some ⟨start, 1, 2, 0xA0, 0xBF, 0⟩
      else if byte.toNat = 0xED then some ⟨start, 1, 2, 0x80, 0x9F, 0xD⟩
      else if byte.toNat < 0xF0 then some ⟨start, 1, 2, 0x80, 0xBF, byte.toNat - 0xE0⟩
      else if byte.toNat = 0xF0 then some ⟨start, 1, 3, 0x90, 0xBF, 0⟩
      else if byte.toNat < 0xF4 then some ⟨start, 1, 3, 0x80, 0xBF, byte.toNat - 0xF0⟩
      else if byte.toNat = 0xF4 then some ⟨start, 1, 3, 0x80, 0x8F, 4⟩
      else none := by
  simp only [lead, UInt8.lt_iff_toNat_lt, ← UInt8.toNat_inj]
  rfl

/-- Only the first byte of a character starts the machine. -/
theorem lead_ok {start : Nat} {byte : UInt8} {pending : Partial} {point : Nat}
    (h : lead start byte = some pending) (hbegins : pending.Begins point) :
    pending.left = followers point ∧ byte.toNat = header point ∧ point.isValidChar := by
  have hvalue := hbegins.value
  have hnext := hbegins.bounds
  have hbyte : byte.toNat < 256 := UInt8.toNat_lt byte
  rw [lead_eq] at h
  unfold followers header Nat.isValidChar
  split_ifs at h <;> cases h <;> simp at hvalue hnext <;> grind

/-- The machine starts on the first byte of each character and then waits for the others. -/
theorem lead_char (start : Nat) {byte : UInt8} {point : Nat} (hvalid : point.isValidChar)
    (hbyte : byte.toNat = header point) :
    ∃ pending, lead start byte = some pending ∧ pending.left = followers point ∧
      pending.Begins point := by
  unfold Nat.isValidChar at hvalid
  unfold header at hbyte
  unfold followers
  rw [lead_eq]
  split_ifs at hbyte ⊢ <;> try omega
  all_goals
    refine ⟨_, rfl, rfl, ?_, ?_⟩ <;> simp <;> omega
theorem lead_bounds {start : Nat} {byte : UInt8} {pending : Partial}
    (h : lead start byte = some pending) :
    0x80 ≤ pending.low.toNat ∧ pending.high.toNat ≤ 0xBF := by
  rw [lead_eq] at h
  split_ifs at h <;> cases h <;> simp

/-- One character is read through to its end. -/
theorem scan_char (index : Nat) (chars : List Char) (c : Char) (rest : Bytes) :
    ∃ next, scan index none chars (String.utf8EncodeChar c ++ rest) =
      scan next none (c :: chars) rest := by
  have hsize : header c.toNat < 256 := by
    unfold header
    split_ifs <;> omega
  have hbyte : (UInt8.ofNat (header c.toNat)).toNat = header c.toNat :=
    UInt8.toNat_ofNat_of_lt hsize
  have hvalid : c.toNat.isValidChar := c.valid
  obtain ⟨pending, hlead, hleft, hbegins⟩ := lead_char index hvalid hbyte
  rw [encodeChar_eq, ← hleft, List.cons_append]
  by_cases hzero : pending.left = 0
  · refine ⟨index + 1, ?_⟩
    have hvalue := hbegins.value
    rw [hzero, Nat.pow_zero, Nat.div_one] at hvalue
    simp [scan, hlead, hzero, continuation, ← hvalue]
  · refine ⟨index + 1 + pending.left, ?_⟩
    have hscan := scan_continuation hbegins hzero (index + 1) chars rest
    rw [Char.ofNat_toNat] at hscan
    simp only [scan, hlead, if_neg hzero, hscan]

/-- A first byte and the bytes it calls for are a character. -/
theorem lead_spells {start : Nat} {byte : UInt8} {pending : Partial} {point : Nat}
    (h : lead start byte = some pending) (hbegins : pending.Begins point) :
    String.utf8EncodeChar (Char.ofNat point) = byte :: continuation pending.left point := by
  obtain ⟨hleft, hbyte, hvalid⟩ := lead_ok h hbegins
  have hpoint : (Char.ofNat point).toNat = point := by
    rw [Char.toNat_ofNat, if_pos hvalid]
  rw [encodeChar_eq, hpoint, ← hleft, ← hbyte, UInt8.ofNat_toNat]

/-- What the machine reads from between two characters starts with a whole character. -/
theorem scan_ok {index : Nat} {chars read : List Char} {byte : UInt8} {bytes : Bytes}
    (h : scan index none chars (byte :: bytes) = .ok read) :
    ∃ c rest next, byte :: bytes = String.utf8EncodeChar c ++ rest ∧
      scan next none (c :: chars) rest = .ok read := by
  cases hlead : lead index byte with
  | none => simp [scan, hlead] at h
  | some pending =>
      by_cases hzero : pending.left = 0
      · have hbegins : pending.Begins pending.value :=
          ⟨by rw [hzero, Nat.pow_zero, Nat.div_one], fun hne => absurd hzero hne⟩
        simp only [scan, hlead, if_pos hzero] at h
        refine ⟨Char.ofNat pending.value, bytes, index + 1, ?_, h⟩
        rw [lead_spells hlead hbegins, hzero]
        rfl
      · obtain ⟨hlow, hhigh⟩ := lead_bounds hlead
        simp only [scan, hlead, if_neg hzero] at h
        obtain ⟨point, rest, hbegins, hbytes, hscan⟩ := scan_pending_ok hzero hlow hhigh h
        refine ⟨Char.ofNat point, rest, index + 1 + pending.left, ?_, hscan⟩
        rw [lead_spells hlead hbegins, hbytes, List.cons_append]

theorem scan_chars (text : List Char) (index : Nat) (chars : List Char) :
    scan index none chars (text.flatMap String.utf8EncodeChar) =
      .ok (chars.reverse ++ text) := by
  induction text generalizing index chars with
  | nil => simp [scan]
  | cons c rest ih =>
      obtain ⟨next, hnext⟩ := scan_char index chars c (rest.flatMap String.utf8EncodeChar)
      rw [List.flatMap_cons, hnext, ih next (c :: chars)]
      simp

theorem scan_none_ok {index : Nat} {chars read : List Char} {bytes : Bytes}
    (h : scan index none chars bytes = .ok read) :
    ∃ text, read = chars.reverse ++ text ∧ bytes = text.flatMap String.utf8EncodeChar := by
  -- Every character takes at least one byte, so the induction is on the number of bytes.
  induction hn : bytes.length using Nat.strongRecOn generalizing index chars bytes with
  | _ n ih =>
      cases bytes with
      | nil =>
          refine ⟨[], ?_, rfl⟩
          simp only [scan, Except.ok.injEq] at h
          rw [← h, List.append_nil]
      | cons byte bytes =>
          obtain ⟨c, rest, next, hbytes, hscan⟩ := scan_ok h
          have hlength : rest.length < n := by
            have hlen := congrArg List.length hbytes
            have hpos := Char.utf8Size_pos c
            rw [List.length_append, String.length_utf8EncodeChar] at hlen
            omega
          obtain ⟨text, hread, hrest⟩ := ih rest.length hlength hscan rfl
          refine ⟨c :: text, ?_, ?_⟩
          · rw [hread]
            simp
          · rw [hbytes, hrest, List.flatMap_cons]

/-- A text is read back from its bytes. -/
theorem decode_encode (text : String) : decode (encode text) = .ok text := by
  rw [decode, encode, scan_chars]
  simp [Except.map]

/-- Bytes that are read as a text are the bytes of that text. -/
theorem encode_of_decode {bytes : Bytes} {text : String} (h : decode bytes = .ok text) :
    encode text = bytes := by
  unfold decode at h
  cases hscan : scan 0 none [] bytes with
  | error defect => simp [hscan, Except.map] at h
  | ok chars =>
      obtain ⟨read, hread, hbytes⟩ := scan_none_ok hscan
      simp only [hscan, Except.map, Except.ok.injEq] at h
      rw [← h, hbytes, encode, hread]
      simp

end LiveLayout.Utf8
