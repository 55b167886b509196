import LiveLayout.Proofs.Wire.Reader

/-!
# Columns on the wire

The cells of a column are a run of words or of texts, so a column is read back from what was
written for it, and a column that was read is written as the bytes that it was read from.
-/

namespace LiveLayout

namespace Reader

variable {α : Type}

/-- A word is the integer cell that is written as it. -/
theorem int_cell_spells_iff {value : Int64} {wire : Bytes} :
    (∃ n, (n < 256 ^ 8 ∧ wire = Word.encode 8 n) ∧ (UInt64.ofNat n).toInt64 = value) ↔
      wire = Word.encode 8 value.toUInt64.toNat := by
  constructor
  · rintro ⟨n, ⟨hn, rfl⟩, rfl⟩
    rw [UInt64.toUInt64_toInt64, UInt64.toNat_ofNat_of_lt' hn]
  · rintro rfl
    refine ⟨_, ⟨value.toUInt64.toNat_lt, rfl⟩, ?_⟩
    rw [UInt64.ofNat_toNat, Int64.toInt64_toUInt64]

theorem int_cell_inverts :
    Inverts (fun bytes => do
      let (n, rest) ← word 8 bytes
      return ((UInt64.ofNat n).toInt64, rest))
      fun (value : Int64) wire => wire = Word.encode 8 value.toUInt64.toNat :=
  ((word_inverts 8).map fun n => (UInt64.ofNat n).toInt64).congr fun _ _ => int_cell_spells_iff

/-- A word is the float cell that is written as it. -/
theorem float_cell_spells_iff {bits : UInt32} {wire : Bytes} :
    (∃ n, (n < 256 ^ 4 ∧ wire = Word.encode 4 n) ∧ UInt32.ofNat n = bits) ↔
      wire = Word.encode 4 bits.toNat := by
  constructor
  · rintro ⟨n, ⟨hn, rfl⟩, rfl⟩
    rw [UInt32.toNat_ofNat_of_lt' hn]
  · rintro rfl
    exact ⟨_, ⟨bits.toNat_lt, rfl⟩, UInt32.ofNat_toNat⟩

theorem float_cell_inverts :
    Inverts (fun bytes => do
      let (n, rest) ← word 4 bytes
      return (UInt32.ofNat n, rest))
      fun (bits : UInt32) wire => wire = Word.encode 4 bits.toNat :=
  ((word_inverts 4).map UInt32.ofNat).congr fun _ _ => float_cell_spells_iff

theorem run_encode_iff {encode : α → Bytes} {count : Nat} {values : List α} {wire : Bytes} :
    Run (fun value wire => wire = encode value) count values wire ↔
      values.length = count ∧ wire = values.flatMap encode := by
  have hforall (wires : List Bytes) :
      List.Forall₂ (fun value wire => wire = encode value) values wires ↔
        wires = values.map encode := by
    constructor
    · intro h
      induction h with
      | nil => rfl
      | cons hwire _ ih => rw [List.map_cons, hwire, ih]
    · rintro rfl
      rw [List.forall₂_map_right_iff, List.forall₂_same]
      intro value _
      rfl
  simp only [Run, hforall, exists_eq_left, List.flatMap]

end Reader

theorem encodeTextCell_eq_ok_iff {text : String} {wire : Bytes} :
    encodeTextCell text = .ok wire ↔
      (Utf8.encode text).length < 256 ^ 4 ∧ wire = encodeText 4 (Utf8.encode text) := by
  have hsize : UInt32.size = 256 ^ 4 := rfl
  simp only [encodeTextCell, ← hsize]
  split_ifs with h
  · simp only [Except.ok.injEq, h, true_and, eq_comm]
  · simp only [h, false_and]

theorem length_encodeText (width : Nat) (bytes : Bytes) :
    (encodeText width bytes).length = width + bytes.length := by
  rw [encodeText, List.length_append, Word.length_encode]

namespace Column

theorem encodeCells_text_eq_ok_iff {values : List String} {wire : Bytes} :
    (text values).encodeCells = .ok wire ↔
      ∃ wires, List.Forall₂ (fun value wire => encodeTextCell value = .ok wire) values wires ∧
        wire = wires.flatten := by
  rw [encodeCells, map_eq_ok_iff]
  constructor
  · rintro ⟨wires, hwires, rfl⟩
    exact ⟨wires, mapM_eq_ok_iff.mp hwires, rfl⟩
  · rintro ⟨wires, hwires, rfl⟩
    exact ⟨wires, mapM_eq_ok_iff.mpr hwires, rfl⟩

/-- A run of integer cells is the column that is written as it. -/
theorem int_spells_iff {count : Nat} {column : Column} {wire : Bytes} :
    (∃ values, Reader.Run (fun value wire => wire = Word.encode 8 value.toUInt64.toNat) count values
        wire ∧ int values = column) ↔
      column.type = .int ∧ column.length = count ∧ column.encodeCells = .ok wire := by
  simp only [Reader.run_encode_iff]
  cases column <;> simp [Column.type, Column.length, encodeCells, eq_comm]

/-- A run of float cells is the column that is written as it. -/
theorem float32_spells_iff {count : Nat} {column : Column} {wire : Bytes} :
    (∃ values, Reader.Run (fun bits wire => wire = Word.encode 4 bits.toNat) count values wire ∧
        float32 values = column) ↔
      column.type = .float32 ∧ column.length = count ∧ column.encodeCells = .ok wire := by
  simp only [Reader.run_encode_iff]
  cases column <;> simp [Column.type, Column.length, encodeCells, eq_comm]

/-- A run of text cells is the column that is written as it. -/
theorem text_spells_iff {count : Nat} {column : Column} {wire : Bytes} :
    (∃ values, Reader.Run (fun value wire => (Utf8.encode value).length < 256 ^ 4 ∧
        wire = encodeText 4 (Utf8.encode value)) count values wire ∧ text values = column) ↔
      column.type = .text ∧ column.length = count ∧ column.encodeCells = .ok wire := by
  simp only [← encodeTextCell_eq_ok_iff]
  cases column <;>
    simp [Column.type, Column.length, encodeCells_text_eq_ok_iff, Reader.Run]

/-- The cells of a column are read as that column and no other. -/
theorem read_inverts (name : String) (count : Nat) (type : ColumnType) :
    Reader.Inverts (read name count type) fun column wire =>
      column.type = type ∧ column.length = count ∧ column.encodeCells = .ok wire := by
  cases type with
  | int =>
      have hrows := Reader.rows_inverts Reader.int_cell_inverts 8
        (fun value wire h => by rw [h, Word.length_encode]) count
      exact (hrows.map int).congr fun _ _ => int_spells_iff
  | float32 =>
      have hrows := Reader.rows_inverts Reader.float_cell_inverts 4
        (fun bits wire h => by rw [h, Word.length_encode]) count
      exact (hrows.map float32).congr fun _ _ => float32_spells_iff
  | text =>
      have hrows := Reader.rows_inverts (Reader.text_inverts 4 (.cellText name)) 4
        (fun value wire h => by rw [h.2, length_encodeText]; omega) count
      exact (hrows.map text).congr fun _ _ => text_spells_iff

end Column

/-- A column is written when it fits the rows and its lengths fit their fields. -/
theorem encodeColumn_eq_ok_iff {rows : Nat} {name : String} {column : Column} {wire : Bytes} :
    encodeColumn rows (name, column) = .ok wire ↔
      column.length = rows ∧ (Utf8.encode name).length < 256 ^ 2 ∧
        ∃ cells, column.encodeCells = .ok cells ∧
          wire = encodeText 2 (Utf8.encode name) ++ column.type.tag :: cells := by
  have hsize : UInt16.size = 256 ^ 2 := rfl
  simp only [encodeColumn, ← hsize]
  split_ifs with hrows hlong hlong
  · simp [hrows]
  · simp [hrows]
  · simp [Nat.not_lt.mpr hlong]
  · simp only [bind_eq_ok_iff, pure_eq_ok_iff, not_not.mp hrows, Nat.lt_of_not_le hlong,
      true_and, @eq_comm _ wire]

theorem readColumn_inverts (count : Nat) :
    Reader.Inverts (readColumn count) fun entry wire => encodeColumn count entry = .ok wire := by
  intro bytes entry rest
  obtain ⟨name, column⟩ := entry
  simp only [encodeColumn_eq_ok_iff]
  constructor
  · intro h
    obtain ⟨name, _, tail, ⟨hname, rfl⟩, rfl, h₁⟩ := (Reader.text_inverts 2 _).bind_ok h
    obtain ⟨tag, _, tail, rfl, rfl, h₂⟩ := Reader.byte_inverts.bind_ok h₁
    cases htype : ColumnType.ofTag? tag with
    | none => simp [htype] at h₂
    | some type =>
        simp only [htype] at h₂
        obtain ⟨column, cells, tail, ⟨rfl, hlength, hcells⟩, rfl, h₃⟩ :=
          (Column.read_inverts name count type).bind_ok h₂
        cases h₃
        obtain rfl := ColumnType.ofTag?_eq_some_iff.mp htype
        refine ⟨_, ⟨hlength, hname, cells, hcells, rfl⟩, ?_⟩
        simp only [List.append_assoc, List.cons_append, List.nil_append]
  · rintro ⟨_, ⟨hlength, hname, cells, hcells, rfl⟩, rfl⟩
    rw [readColumn, List.append_assoc, (Reader.text_inverts 2 _).bind_append ⟨hname, rfl⟩]
    simp only [List.cons_append, Reader.byte, ok_bind, ColumnType.ofTag?_eq_some_iff.mpr rfl]
    rw [(Column.read_inverts name count _).bind_append ⟨rfl, hlength, hcells⟩]
    rfl

end LiveLayout
