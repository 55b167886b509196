import LiveLayout.Proofs.Table.Push
import LiveLayout.Proofs.Wire.Column

/-!
# Frames are read back

The columns of a frame are pushed onto a table as they are read, so the only written frames that
are not read back are those with a repeated name. In the other direction every byte of a frame is
accounted for, so a frame has one wire form.
-/

namespace LiveLayout

/-- The blocks of columns are those of each column in order. -/
def BlocksOf (rows : Nat) (columns : List (String × Column)) (blocks : List Bytes) : Prop :=
  List.Forall₂ (fun entry block => encodeColumn rows entry = .ok block) columns blocks

theorem encodeColumns_eq_ok_iff {kind : FrameKind} {iteration : UInt64} {rows : Nat}
    {columns : List (String × Column)} {wire : Bytes} :
    encodeColumns kind iteration rows columns = .ok wire ↔
      rows < UInt32.size ∧ columns.length < UInt16.size ∧
        ∃ blocks, BlocksOf rows columns blocks ∧
          wire = FrameHeader.encode ⟨kind, iteration, UInt32.ofNat rows,
            UInt16.ofNat columns.length⟩ ++ blocks.flatten := by
  simp only [encodeColumns]
  split_ifs with hrows hcount hcount
  · simp [Nat.not_lt.mpr hrows]
  · simp [Nat.not_lt.mpr hrows]
  · simp [Nat.not_lt.mpr hcount]
  · simp only [bind_eq_ok_iff, pure_eq_ok_iff, mapM_eq_ok_iff, Nat.lt_of_not_le hrows,
      Nat.lt_of_not_le hcount, true_and, BlocksOf, @eq_comm _ wire]

/-- Whether columns have a wire form does not depend on the iteration. -/
theorem exists_encodeColumns {kind : FrameKind} {iteration : UInt64} {rows : Nat}
    {columns : List (String × Column)} {wire : Bytes}
    (h : encodeColumns kind iteration rows columns = .ok wire) (other : UInt64) :
    ∃ wire', encodeColumns kind other rows columns = .ok wire' := by
  obtain ⟨hrows, hcount, blocks, hblocks, -⟩ := encodeColumns_eq_ok_iff.mp h
  exact ⟨_, encodeColumns_eq_ok_iff.mpr ⟨hrows, hcount, blocks, hblocks, rfl⟩⟩

/-- Whether a table has a wire form does not depend on the iteration. -/
theorem isOk_encodeColumns (kind : FrameKind) (iteration other : UInt64) (rows : Nat)
    (columns : List (String × Column)) :
    (encodeColumns kind iteration rows columns).isOk =
      (encodeColumns kind other rows columns).isOk := by
  rw [Bool.eq_iff_iff, isOk_iff, isOk_iff]
  constructor
  · rintro ⟨wire, h⟩
    exact exists_encodeColumns h other
  · rintro ⟨wire, h⟩
    exact exists_encodeColumns h iteration

theorem BlocksOf.length_eq {rows : Nat} {columns : List (String × Column)} {blocks : List Bytes}
    (h : BlocksOf rows columns blocks) : ∀ entry ∈ columns, entry.2.length = rows := by
  induction h with
  | nil => simp
  | cons hblock _ ih =>
      intro entry hentry
      rcases List.mem_cons.mp hentry with rfl | hrest
      · exact (encodeColumn_eq_ok_iff.mp hblock).1
      · exact ih entry hrest

/-- Reading the blocks of columns pushes those columns. -/
theorem readColumns_blocks {count : Nat} {columns : List (String × Column)} {blocks : List Bytes}
    (h : BlocksOf count columns blocks) (table : Table) (rest : Bytes) :
    readColumns count table columns.length (blocks.flatten ++ rest) =
      match table.pushAll columns with
      | .ok grown => .ok (grown, rest)
      | .error error => .error (.malformed (.schema error)) := by
  induction h generalizing table with
  | nil => simp [readColumns, Table.pushAll_nil]
  | @cons entry block columns blocks hblock _ ih =>
      rw [List.length_cons, readColumns, List.flatten_cons, List.append_assoc,
        (readColumn_inverts count).bind_append hblock, Table.pushAll_cons]
      simp only []
      cases hpush : table.push entry.1 entry.2 with
      | error error => rfl
      | ok grown => exact ih grown

/-- Columns that were read are written as the bytes they were read from, and were pushed. -/
theorem readColumns_ok {count left : Nat} {table grown : Table} {bytes rest : Bytes}
    (h : readColumns count table left bytes = .ok (grown, rest)) :
    ∃ columns blocks, columns.length = left ∧ BlocksOf count columns blocks ∧
      bytes = blocks.flatten ++ rest ∧ table.pushAll columns = .ok grown := by
  induction left generalizing table bytes with
  | zero =>
      cases h
      exact ⟨[], [], rfl, .nil, rfl, rfl⟩
  | succ left ih =>
      obtain ⟨entry, block, tail, hblock, rfl, hrest⟩ := (readColumn_inverts count).bind_ok h
      cases hpush : table.push entry.1 entry.2 with
      | error error => simp [hpush] at hrest
      | ok next =>
          simp only [hpush] at hrest
          obtain ⟨columns, blocks, hlength, hblocks, rfl, hall⟩ := ih hrest
          refine ⟨entry :: columns, block :: blocks, ?_, .cons hblock hblocks, ?_, ?_⟩
          · rw [List.length_cons, hlength]
          · rw [List.flatten_cons, List.append_assoc]
          · rw [Table.pushAll_cons, hpush, ok_bind, hall]

/-- A written frame is read as its columns, as far as they can be pushed onto one table. -/
theorem Frame.decode_encodeColumns {kind : FrameKind} {iteration : UInt64} {rows : Nat}
    {columns : List (String × Column)} {wire : Bytes}
    (h : encodeColumns kind iteration rows columns = .ok wire) :
    Frame.decode wire =
      match Table.empty.pushAll columns with
      | .ok _ => .ok ⟨kind, iteration, ⟨columns, rows⟩⟩
      | .error error => .error (.malformed (.schema error)) := by
  obtain ⟨hrows, hcount, blocks, hblocks, rfl⟩ := encodeColumns_eq_ok_iff.mp h
  have hread := readColumns_blocks hblocks Table.empty []
  rw [List.append_nil] at hread
  rw [Frame.decode, FrameHeader.read_inverts.bind_append rfl]
  simp only [UInt32.toNat_ofNat_of_lt' hrows, UInt16.toNat_ofNat_of_lt' hcount, hread]
  cases hpush : Table.empty.pushAll columns with
  | error error => rfl
  | ok grown =>
      obtain ⟨-, rfl⟩ := (Table.pushAll_empty_eq_ok_iff hblocks.length_eq).mp hpush
      have hzero : UInt16.ofNat columns.length = 0 ↔ columns = [] := by
        rw [← UInt16.toNat_inj, UInt16.toNat_ofNat_of_lt' hcount]
        exact List.length_eq_zero_iff
      simp only [ok_bind, List.length_nil, ne_eq, not_true_eq_false, if_false, hzero]
      by_cases hcolumns : columns = []
      · simp [hcolumns, Table.withRowCount]
      · simp [hcolumns]

/-- What was read as a frame is the wire form of that frame, and its table is a proper one. -/
theorem Frame.encode_of_decode {wire : Bytes} {frame : Frame}
    (h : Frame.decode wire = .ok frame) :
    frame.encode = .ok wire ∧ frame.table.WellFormed := by
  obtain ⟨header, _, bytes, rfl, rfl, h₁⟩ := FrameHeader.read_inverts.bind_ok h
  obtain ⟨⟨table, rest⟩, hread, h₂⟩ := bind_eq_ok_iff.mp h₁
  obtain ⟨columns, blocks, hcount, hblocks, rfl, hpush⟩ := readColumns_ok hread
  obtain ⟨hnodup, rfl⟩ := (Table.pushAll_empty_eq_ok_iff hblocks.length_eq).mp hpush
  have hzero : header.columns = 0 ↔ columns = [] := by
    rw [← UInt16.toNat_inj, ← hcount]
    exact List.length_eq_zero_iff
  simp only [hzero] at h₂
  split_ifs at h₂ with hrest hcolumns hcolumns
  · simp at h₂
  · simp at h₂
  all_goals
    obtain rfl := List.length_eq_zero_iff.mp (not_not.mp hrest)
    obtain rfl : ⟨header.kind, header.iteration, ⟨columns, header.rows.toNat⟩⟩ = frame := by
      simpa [Table.withRowCount, hcolumns] using h₂
    rw [List.append_nil]
    refine ⟨encodeColumns_eq_ok_iff.mpr ⟨?_, ?_, blocks, hblocks, ?_⟩, hnodup, hblocks.length_eq⟩
    · exact header.rows.toNat_lt
    · rw [hcount]
      exact header.columns.toNat_lt
    · rw [hcount, UInt32.ofNat_toNat, UInt16.ofNat_toNat]

theorem Frame.decode_of_nodup {kind : FrameKind} {iteration : UInt64} {rows : Nat}
    {columns : List (String × Column)} {wire : Bytes}
    (h : encodeColumns kind iteration rows columns = .ok wire)
    (hnodup : (columns.map Prod.fst).Nodup) :
    Frame.decode wire = .ok ⟨kind, iteration, ⟨columns, rows⟩⟩ := by
  obtain ⟨-, -, blocks, hblocks, -⟩ := encodeColumns_eq_ok_iff.mp h
  have hpush := (Table.pushAll_empty_eq_ok_iff hblocks.length_eq).mpr ⟨hnodup, rfl⟩
  rw [Frame.decode_encodeColumns h, hpush]

/-- The sentinel is shorter than a header, so no frame is taken for it. -/
theorem ne_closeSentinel_of_encode {kind : FrameKind} {iteration : UInt64} {rows : Nat}
    {columns : List (String × Column)} {wire : Bytes}
    (h : encodeColumns kind iteration rows columns = .ok wire) : wire ≠ closeSentinel := by
  obtain ⟨-, -, blocks, -, rfl⟩ := encodeColumns_eq_ok_iff.mp h
  intro hsentinel
  have hlength := congrArg List.length hsentinel
  rw [List.length_append, FrameHeader.length_encode] at hlength
  simp only [Frame.headerLength, closeSentinel, List.length_cons, List.length_nil] at hlength
  omega

/-- Bytes are read as the end of the stream exactly if they are the sentinel. -/
theorem decode_eq_close_iff {bytes : Bytes} :
    Message.decode bytes = .ok .close ↔ bytes = closeSentinel := by
  unfold Message.decode
  split_ifs with h
  · exact ⟨fun _ => h, fun _ => rfl⟩
  · refine ⟨fun hclose => ?_, fun hsame => absurd hsame h⟩
    obtain ⟨frame, -, hframe⟩ := map_eq_ok_iff.mp hclose
    cases hframe

theorem Message.decode_of_nodup {kind : FrameKind} {iteration : UInt64} {rows : Nat}
    {columns : List (String × Column)} {wire : Bytes}
    (h : encodeColumns kind iteration rows columns = .ok wire)
    (hnodup : (columns.map Prod.fst).Nodup) :
    Message.decode wire = .ok (.frame ⟨kind, iteration, ⟨columns, rows⟩⟩) := by
  rw [Message.decode, if_neg (ne_closeSentinel_of_encode h), Frame.decode_of_nodup h hnodup]
  rfl

/-- A written frame with a repeated name is refused at the first column that repeats one. -/
theorem Frame.decode_of_repeat {kind : FrameKind} {iteration : UInt64} {rows : Nat}
    {columns : List (String × Column)} {wire : Bytes}
    (h : encodeColumns kind iteration rows columns = .ok wire)
    (hrepeat : ¬ (columns.map Prod.fst).Nodup) :
    ∃ before entry after, columns = before ++ entry :: after ∧
      (before.map Prod.fst).Nodup ∧ entry.1 ∈ before.map Prod.fst ∧
      Frame.decode wire = .error (.malformed (.schema (.duplicateColumn entry.1))) := by
  obtain ⟨-, -, blocks, hblocks, -⟩ := encodeColumns_eq_ok_iff.mp h
  obtain ⟨before, entry, after, rfl, hbefore, hname⟩ := Table.exists_first_repeat hrepeat
  have hlength := hblocks.length_eq
  have hadmits : Table.empty.Admits rows := Or.inl rfl
  have hpush : Table.empty.pushAll (before ++ entry :: after) = .error (.duplicateColumn entry.1) :=
    Table.pushAll_of_repeat Table.empty hadmits
      (fun other hother => hlength other (List.mem_append_left _ hother))
      (hlength entry (List.mem_append_right _ List.mem_cons_self)) hbefore hname
  refine ⟨before, entry, after, rfl, hbefore, hname, ?_⟩
  rw [Frame.decode_encodeColumns h, hpush]

/-- Columns with distinct names are read back as they were written, whatever their kind, iteration
and number of rows. If a name repeats, reading names the first column that repeats one. So the
message written for a frame with a proper table is read as that frame. -/
theorem Frame.written_read_back :
    (∀ (kind : FrameKind) (iteration : UInt64) (rows : Nat) (columns : List (String × Column))
      (wire : Bytes), encodeColumns kind iteration rows columns = .ok wire →
      ((columns.map Prod.fst).Nodup →
        Frame.decode wire = .ok ⟨kind, iteration, ⟨columns, rows⟩⟩) ∧
      (¬ (columns.map Prod.fst).Nodup →
        ∃ before entry after, columns = before ++ entry :: after ∧
          (before.map Prod.fst).Nodup ∧ entry.1 ∈ before.map Prod.fst ∧
          Frame.decode wire = .error (.malformed (.schema (.duplicateColumn entry.1))))) ∧
    (∀ (frame : Frame) (wire : Bytes), frame.encode = .ok wire → frame.table.WellFormed →
      Message.decode wire = .ok (.frame frame)) := by
  constructor
  · intro kind iteration rows columns wire h
    constructor
    · exact Frame.decode_of_nodup h
    · exact Frame.decode_of_repeat h
  · intro frame wire h hwell
    exact Message.decode_of_nodup h hwell.names_nodup

/-- A text column behind a column of floats, one of them not a number; a repeated name; and rows
without columns. -/
theorem Frame.written_read_back_mixed :
    (∃ wire, encodeColumns .nodes 3 2
        [("x", .float32 [0x7fc01234, 0x80000000]), ("é", .text ["", "née"])] = .ok wire ∧
      Frame.decode wire =
        .ok ⟨.nodes, 3, ⟨[("x", .float32 [0x7fc01234, 0x80000000]), ("é", .text ["", "née"])], 2⟩⟩) ∧
    (∃ wire, encodeColumns .edges 0 1 [("a", .int [1]), ("a", .int [1])] = .ok wire ∧
      ∃ before entry after, [("a", Column.int [1]), ("a", .int [1])] = before ++ entry :: after ∧
        (before.map Prod.fst).Nodup ∧ entry.1 ∈ before.map Prod.fst ∧
        Frame.decode wire = .error (.malformed (.schema (.duplicateColumn entry.1)))) ∧
    (∃ wire, Frame.encode ⟨.edges, 9, ⟨[], 5⟩⟩ = .ok wire ∧ (Table.mk [] 5).WellFormed ∧
      Message.decode wire = .ok (.frame ⟨.edges, 9, ⟨[], 5⟩⟩)) := by
  have hwell : (Table.mk [] 5).WellFormed := ⟨List.nodup_nil, by simp⟩
  exact ⟨⟨_, rfl, (Frame.written_read_back.1 .nodes 3 2 _ _ rfl).1 (by decide)⟩,
    ⟨_, rfl, (Frame.written_read_back.1 .edges 0 1 _ _ rfl).2 (by decide)⟩,
    ⟨_, rfl, hwell, Frame.written_read_back.2 ⟨.edges, 9, ⟨[], 5⟩⟩ _ rfl hwell⟩⟩

/-- Reading accepts exactly the wire forms of frames with proper tables. So a frame has one wire
form: bytes that are read as the same frame are the same bytes. -/
theorem Frame.wire_canonical :
    (∀ (wire : Bytes) (frame : Frame), Frame.decode wire = .ok frame ↔
      frame.encode = .ok wire ∧ frame.table.WellFormed) ∧
    (∀ (wire wire' : Bytes) (frame : Frame),
      Frame.decode wire = .ok frame → Frame.decode wire' = .ok frame → wire = wire') := by
  constructor
  · intro wire frame
    constructor
    · exact Frame.encode_of_decode
    · rintro ⟨hencode, hwell⟩
      exact Frame.decode_of_nodup hencode hwell.names_nodup
  · intro wire wire' frame h h'
    have hencode := (Frame.encode_of_decode h).1
    rw [(Frame.encode_of_decode h').1] at hencode
    exact (Except.ok.inj hencode).symm

/-- One row of one text column, byte for byte. -/
theorem Frame.wire_canonical_text :
    let wire : Bytes := [71, 76, 83, 70, 1, 2, 9, 0, 0, 0, 0, 0, 0, 0, 1, 0, 0, 0, 1, 0,
      1, 0, 97, 3, 2, 0, 0, 0, 195, 169]
    let frame : Frame := ⟨.edges, 9, ⟨[("a", .text ["é"])], 1⟩⟩
    (Frame.decode wire = .ok frame ∧ frame.encode = .ok wire ∧ frame.table.WellFormed) ∧
      ∀ other, Frame.decode other = .ok frame → other = wire := by
  intro wire frame
  have hread : Frame.decode wire = .ok frame := by rfl
  have hwritten := (Frame.wire_canonical.1 wire frame).mp hread
  refine ⟨⟨hread, hwritten⟩, ?_⟩
  intro other hother
  exact Frame.wire_canonical.2 other wire frame hother hread

end LiveLayout
