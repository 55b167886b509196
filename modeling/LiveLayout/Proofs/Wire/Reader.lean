import LiveLayout.Proofs.Outcome
import LiveLayout.Proofs.Text.Utf8
import LiveLayout.Wire.Decode
import LiveLayout.Wire.Encode

/-!
# Readers against written forms

A reader inverts a written form when it accepts exactly the written forms of what it returns,
whatever comes behind them. Each reader of the frame layout inverts the writer of the same item.
-/

namespace LiveLayout

namespace Word

theorem value_cons (byte : UInt8) (rest : Bytes) :
    value (byte :: rest) = byte.toNat + 256 * value rest := rfl

theorem value_lt (bytes : Bytes) : value bytes < 256 ^ bytes.length := by
  induction bytes with
  | nil => exact Nat.one_pos
  | cons byte rest ih =>
      have hbyte : byte.toNat < 256 := UInt8.toNat_lt byte
      rw [value_cons, List.length_cons, Nat.pow_succ]
      omega

theorem value_encode {width n : Nat} (h : n < 256 ^ width) : value (encode width n) = n := by
  induction width generalizing n with
  | zero =>
      rw [Nat.pow_zero] at h
      have hn : n = 0 := by omega
      rw [hn]
      rfl
  | succ width ih =>
      have hdiv : n / 256 < 256 ^ width := by
        rw [Nat.pow_succ] at h
        omega
      have hbyte : (UInt8.ofNat n).toNat = n % 256 := UInt8.toNat_ofNat'
      rw [encode, value_cons, ih hdiv, hbyte]
      omega

theorem encode_value (bytes : Bytes) : encode bytes.length (value bytes) = bytes := by
  induction bytes with
  | nil => rfl
  | cons byte rest ih =>
      have hbyte : byte.toNat < 256 := UInt8.toNat_lt byte
      have hlow : UInt8.ofNat (byte.toNat + 256 * value rest) = byte := by
        apply UInt8.toNat_inj.mp
        rw [UInt8.toNat_ofNat']
        omega
      have hhigh : (byte.toNat + 256 * value rest) / 256 = value rest := by omega
      rw [List.length_cons, encode, value_cons, hlow, hhigh, ih]

end Word

namespace Reader

variable {α : Type}

/-- The reader accepts exactly the written forms of what it returns, and leaves what follows. -/
def Inverts (reader : Reader α) (Spells : α → Bytes → Prop) : Prop :=
  ∀ bytes value rest, reader bytes = .ok (value, rest) ↔
    ∃ wire, Spells value wire ∧ bytes = wire ++ rest

/-- A step behind a reader goes on from what was read and what was left. -/
theorem Inverts.bind_ok {β : Type} {reader : Reader α} {Spells : α → Bytes → Prop}
    (h : Inverts reader Spells) {bytes : Bytes} {next : α × Bytes → Except CodecError β} {out : β}
    (hout : (reader bytes >>= next) = .ok out) :
    ∃ value wire rest, Spells value wire ∧ bytes = wire ++ rest ∧ next (value, rest) = .ok out := by
  obtain ⟨⟨value, rest⟩, hread, hnext⟩ := bind_eq_ok_iff.mp hout
  obtain ⟨wire, hspells, hbytes⟩ := (h bytes value rest).mp hread
  exact ⟨value, wire, rest, hspells, hbytes, hnext⟩

theorem Inverts.bind_append {β : Type} {reader : Reader α} {Spells : α → Bytes → Prop}
    (h : Inverts reader Spells) {value : α} {wire : Bytes} (hspells : Spells value wire)
    (rest : Bytes) (next : α × Bytes → Except CodecError β) :
    (reader (wire ++ rest) >>= next) = next (value, rest) := by
  rw [(h (wire ++ rest) value rest).mpr ⟨wire, hspells, rfl⟩, ok_bind]

theorem Inverts.congr {reader : Reader α} {Spells Spells' : α → Bytes → Prop}
    (h : Inverts reader Spells) (hiff : ∀ value wire, Spells value wire ↔ Spells' value wire) :
    Inverts reader Spells' := by
  intro bytes value rest
  simp only [← hiff]
  exact h bytes value rest

/-- A value built from what was read is written as what it was built from. -/
theorem Inverts.map {β : Type} {reader : Reader α} {Spells : α → Bytes → Prop}
    (h : Inverts reader Spells) (build : α → β) :
    Inverts (fun bytes => do
      let (value, rest) ← reader bytes
      return (build value, rest)) fun out wire => ∃ value, Spells value wire ∧ build value = out := by
  intro bytes out rest
  constructor
  · intro hout
    obtain ⟨value, wire, tail, hspells, rfl, hpure⟩ := h.bind_ok hout
    cases hpure
    exact ⟨wire, ⟨value, hspells, rfl⟩, rfl⟩
  · rintro ⟨wire, ⟨value, hspells, rfl⟩, rfl⟩
    simp only [h.bind_append hspells]
    rfl

theorem take_eq (count : Nat) (bytes : Bytes) :
    take count bytes =
      if bytes.length < count then .error .truncated
      else .ok (bytes.take count, bytes.drop count) := by
  have hshort : (bytes.take count).length < count ↔ bytes.length < count := by
    rw [List.length_take]
    omega
  simp only [take, List.splitAt_eq, hshort]

theorem take_inverts (count : Nat) :
    Inverts (take count) fun front wire => front = wire ∧ wire.length = count := by
  intro bytes value rest
  rw [take_eq]
  constructor
  · intro h
    split_ifs at h with hlength
    simp only [Except.ok.injEq, Prod.mk.injEq] at h
    obtain ⟨rfl, rfl⟩ := h
    exact ⟨bytes.take count, ⟨rfl, List.length_take_of_le (Nat.not_lt.mp hlength)⟩,
      (List.take_append_drop count bytes).symm⟩
  · rintro ⟨wire, ⟨rfl, rfl⟩, rfl⟩
    simp

theorem take_ok {count : Nat} {bytes front rest : Bytes}
    (h : take count bytes = .ok (front, rest)) : bytes = front ++ rest ∧ front.length = count := by
  obtain ⟨wire, ⟨rfl, hlength⟩, hbytes⟩ := (take_inverts count bytes front rest).mp h
  exact ⟨hbytes, hlength⟩

theorem byte_eq (bytes : Bytes) :
    byte bytes = (take 1 bytes >>= fun found => .ok (found.1.headD 0, found.2)) := by
  rw [take_eq]
  cases bytes with
  | nil => rfl
  | cons first rest => simp [byte]

theorem byte_inverts : Inverts byte fun first wire => wire = [first] := by
  intro bytes value rest
  cases bytes with
  | nil => simp [byte]
  | cons first tail => simp [byte]

theorem word_inverts (width : Nat) :
    Inverts (word width) fun n wire => n < 256 ^ width ∧ wire = Word.encode width n := by
  intro bytes value rest
  constructor
  · intro h
    obtain ⟨front, _, tail, ⟨rfl, rfl⟩, hbytes, hout⟩ := (take_inverts width).bind_ok h
    cases hout
    exact ⟨front, ⟨Word.value_lt front, (Word.encode_value front).symm⟩, hbytes⟩
  · rintro ⟨_, ⟨hlt, rfl⟩, rfl⟩
    rw [word, (take_inverts width).bind_append ⟨rfl, Word.length_encode width value⟩]
    simp only [Word.value_encode hlt]
    rfl

theorem text_inverts (width : Nat) (fault : Utf8.Defect → Malformation) :
    Inverts (text width fault) fun value wire =>
      (Utf8.encode value).length < 256 ^ width ∧ wire = encodeText width (Utf8.encode value) := by
  intro bytes value rest
  constructor
  · intro h
    obtain ⟨length, _, tail, ⟨hlt, rfl⟩, rfl, hfront⟩ := (word_inverts width).bind_ok h
    obtain ⟨front, _, others, ⟨rfl, rfl⟩, rfl, hout⟩ := (take_inverts length).bind_ok hfront
    cases hdecode : Utf8.decode front with
    | error defect => simp [hdecode] at hout
    | ok read =>
        simp only [hdecode] at hout
        cases hout
        rw [← Utf8.encode_of_decode hdecode] at hlt ⊢
        exact ⟨_, ⟨hlt, rfl⟩, by rw [encodeText, List.append_assoc]⟩
  · rintro ⟨_, ⟨hlt, rfl⟩, rfl⟩
    rw [text, encodeText, List.append_assoc, (word_inverts width).bind_append ⟨hlt, rfl⟩]
    simp only [(take_inverts _).bind_append ⟨rfl, rfl⟩, Utf8.decode_encode]
    rfl

/-- The written forms of a run of items are those of the items, back to back. -/
def Run (Spells : α → Bytes → Prop) (count : Nat) (values : List α) (wire : Bytes) : Prop :=
  values.length = count ∧ ∃ wires, List.Forall₂ Spells values wires ∧ wire = wires.flatten

theorem many_succ (item : Reader α) (items : List α) (count : Nat) (bytes : Bytes) :
    many item items (count + 1) bytes =
      (item bytes >>= fun found => many item (found.1 :: items) count found.2) := by
  rw [many]
  cases item bytes <;> rfl

theorem many_map {β : Type} {item : Reader α} (f : α → β) (items : List α) (count : Nat)
    (bytes : Bytes) :
    many (fun bytes => do
      let (value, rest) ← item bytes
      return (f value, rest)) (items.map f) count bytes =
      (many item items count bytes >>= fun found => .ok (found.1.map f, found.2)) := by
  induction count generalizing items bytes with
  | zero => simp [many]
  | succ count ih =>
      rw [many_succ, many_succ]
      cases item bytes with
      | error error => rfl
      | ok found => exact ih (found.1 :: items) found.2

/-- What is done to each item as it is read may be done to all of them at the end. -/
theorem rows_map {β : Type} {item : Reader α} (f : α → β) (width count : Nat) (bytes : Bytes) :
    rows width count (fun bytes => do
      let (value, rest) ← item bytes
      return (f value, rest)) bytes =
      (rows width count item bytes >>= fun found => .ok (found.1.map f, found.2)) := by
  rw [rows, rows]
  split_ifs with hshort
  · rfl
  · exact many_map f [] count bytes

theorem many_ok_iff {item : Reader α} {Spells : α → Bytes → Prop} (h : Inverts item Spells)
    (count : Nat) (items : List α) (bytes : Bytes) (values : List α) (rest : Bytes) :
    many item items count bytes = .ok (values, rest) ↔
      ∃ read wire, Run Spells count read wire ∧ values = items.reverse ++ read ∧
        bytes = wire ++ rest := by
  induction count generalizing items bytes with
  | zero =>
      simp only [many, Except.ok.injEq, Prod.mk.injEq]
      constructor
      · rintro ⟨rfl, rfl⟩
        exact ⟨[], [], ⟨rfl, [], .nil, rfl⟩, (List.append_nil _).symm, rfl⟩
      · rintro ⟨read, wire, ⟨hlength, wires, hwires, rfl⟩, rfl, rfl⟩
        obtain rfl := List.length_eq_zero_iff.mp hlength
        obtain rfl := List.forall₂_nil_left_iff.mp hwires
        exact ⟨(List.append_nil _).symm, rfl⟩
  | succ count ih =>
      constructor
      · intro hmany
        rw [many] at hmany
        cases hitem : item bytes with
        | error error => simp [hitem] at hmany
        | ok found =>
            obtain ⟨next, tail⟩ := found
            obtain ⟨wire, hspells, rfl⟩ := (h bytes next tail).mp hitem
            simp only [hitem] at hmany
            obtain ⟨read, wires, ⟨hlength, parts, hparts, rfl⟩, rfl, rfl⟩ :=
              (ih (next :: items) tail).mp hmany
            refine ⟨next :: read, wire ++ parts.flatten, ⟨?_, wire :: parts, ?_, ?_⟩, ?_, ?_⟩
            · rw [List.length_cons, hlength]
            · exact .cons hspells hparts
            · rw [List.flatten_cons]
            · rw [List.reverse_cons, List.append_assoc, List.singleton_append]
            · rw [List.append_assoc]
      · rintro ⟨read, wire, ⟨hlength, wires, hwires, rfl⟩, rfl, rfl⟩
        obtain ⟨next, read, rfl⟩ := List.exists_cons_of_length_eq_add_one hlength
        obtain ⟨wire, wires, hspells, hrest, rfl⟩ := List.forall₂_cons_left_iff.mp hwires
        rw [List.length_cons, Nat.add_right_cancel_iff] at hlength
        rw [many, List.flatten_cons, List.append_assoc,
          (h _ next _).mpr ⟨wire, hspells, rfl⟩]
        refine (ih (next :: items) _).mpr ⟨read, _, ⟨hlength, wires, hrest, rfl⟩, ?_, rfl⟩
        rw [List.reverse_cons, List.append_assoc, List.singleton_append]

theorem Run.length_le {Spells : α → Bytes → Prop} {width : Nat}
    (hwidth : ∀ value wire, Spells value wire → width ≤ wire.length)
    {count : Nat} {values : List α} {wire : Bytes} (h : Run Spells count values wire) :
    count * width ≤ wire.length := by
  obtain ⟨rfl, wires, hwires, rfl⟩ := h
  induction hwires with
  | nil => simp
  | cons hspells hrest ih =>
      have hle := hwidth _ _ hspells
      rw [List.length_cons, List.flatten_cons, List.length_append, Nat.add_mul, Nat.one_mul]
      omega

/-- Rows are read as a run of items; the length that is asked for first is one every run has. -/
theorem rows_inverts {item : Reader α} {Spells : α → Bytes → Prop} (h : Inverts item Spells)
    (width : Nat) (hwidth : ∀ value wire, Spells value wire → width ≤ wire.length) (count : Nat) :
    Inverts (rows width count item) (Run Spells count) := by
  intro bytes value rest
  rw [rows]
  constructor
  · intro hrows
    split_ifs at hrows
    obtain ⟨read, wire, hrun, rfl, rfl⟩ := (many_ok_iff h count [] bytes value rest).mp hrows
    exact ⟨wire, hrun, rfl⟩
  · rintro ⟨wire, hrun, rfl⟩
    have hle := hrun.length_le hwidth
    rw [if_neg (by rw [List.length_append]; omega)]
    exact (many_ok_iff h count [] _ value rest).mpr ⟨value, wire, hrun, rfl, rfl⟩

end Reader

namespace FrameKind

theorem ofTag?_eq_some_iff {tag : UInt8} {kind : FrameKind} :
    ofTag? tag = some kind ↔ tag = kind.tag := by
  unfold ofTag?
  cases kind with
  | nodes => split_ifs <;> simp_all [FrameKind.tag]
  | edges => split_ifs <;> simp_all [FrameKind.tag]

end FrameKind

namespace ColumnType

theorem ofTag?_eq_some_iff {tag : UInt8} {type : ColumnType} :
    ofTag? tag = some type ↔ tag = type.tag := by
  unfold ofTag?
  cases type with
  | int => split_ifs <;> simp_all [ColumnType.tag]
  | float32 => split_ifs <;> simp_all [ColumnType.tag]
  | text => split_ifs <;> simp_all [ColumnType.tag]

end ColumnType

theorem FrameHeader.length_encode (header : FrameHeader) :
    header.encode.length = Frame.headerLength := by
  simp [FrameHeader.encode, Frame.magic, Frame.headerLength]

/-- The header of a frame inverts its twenty bytes. -/
theorem FrameHeader.read_inverts :
    Reader.Inverts FrameHeader.read fun header wire => wire = header.encode := by
  intro bytes header rest
  constructor
  · intro h
    simp only [FrameHeader.read] at h
    split_ifs at h with hlength
    · simp at h
    obtain ⟨magic, _, tail, ⟨rfl, -⟩, rfl, h₁⟩ := (Reader.take_inverts 4).bind_ok h
    split_ifs at h₁ with hmagic
    · simp at h₁
    obtain ⟨version, _, tail, rfl, rfl, h₂⟩ := Reader.byte_inverts.bind_ok h₁
    split_ifs at h₂ with hversion
    · simp at h₂
    obtain ⟨tag, _, tail, rfl, rfl, h₃⟩ := Reader.byte_inverts.bind_ok h₂
    cases hkind : FrameKind.ofTag? tag with
    | none => simp [hkind] at h₃
    | some kind =>
        simp only [hkind] at h₃
        obtain ⟨iteration, _, tail, ⟨hiteration, rfl⟩, rfl, h₄⟩ :=
          (Reader.word_inverts 8).bind_ok h₃
        obtain ⟨rows, _, tail, ⟨hrows, rfl⟩, rfl, h₅⟩ := (Reader.word_inverts 4).bind_ok h₄
        obtain ⟨columns, _, tail, ⟨hcolumns, rfl⟩, rfl, h₆⟩ := (Reader.word_inverts 2).bind_ok h₅
        cases h₆
        obtain rfl := not_not.mp hmagic
        obtain rfl := not_not.mp hversion
        obtain rfl := FrameKind.ofTag?_eq_some_iff.mp hkind
        refine ⟨_, rfl, ?_⟩
        simp only [FrameHeader.encode, UInt64.toNat_ofNat_of_lt' hiteration,
          UInt32.toNat_ofNat_of_lt' hrows, UInt16.toNat_ofNat_of_lt' hcolumns, List.append_assoc,
          List.cons_append, List.nil_append]
  · rintro ⟨_, rfl, rfl⟩
    have hlength : ¬ (header.encode ++ rest).length < Frame.headerLength := by
      rw [List.length_append, header.length_encode]
      omega
    simp only [FrameHeader.read, if_neg hlength]
    rw [FrameHeader.encode]
    simp only [List.append_assoc, List.cons_append, Reader.byte]
    rw [(Reader.take_inverts 4).bind_append ⟨rfl, rfl⟩]
    simp only [ne_eq, not_true_eq_false, if_false, ok_bind]
    rw [FrameKind.ofTag?_eq_some_iff.mpr rfl]
    simp only []
    rw [(Reader.word_inverts 8).bind_append ⟨header.iteration.toNat_lt, rfl⟩]
    simp only []
    rw [(Reader.word_inverts 4).bind_append ⟨header.rows.toNat_lt, rfl⟩]
    simp only []
    rw [(Reader.word_inverts 2).bind_append ⟨header.columns.toNat_lt, rfl⟩]
    simp only [UInt64.ofNat_toNat, UInt32.ofNat_toNat, UInt16.ofNat_toNat]
    rfl

end LiveLayout
