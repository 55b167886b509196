import LiveLayout.Proofs.Wire.Frame

/-!
# Frames end where they say

The length fields of a frame say where it ends. So a reader that is given less than the written form
of an item runs out of bytes before it can find anything else wrong, and one that is given more
leaves the rest over.
-/

namespace LiveLayout

namespace Reader

variable {α β : Type} {reader : Reader α} {Spells Spells' : α → Bytes → Prop}

/-- The reader runs out of bytes on a written form that was cut off. -/
def Cuts (reader : Reader α) (Spells : α → Bytes → Prop) : Prop :=
  ∀ value front lost, lost ≠ [] → Spells value (front ++ lost) → reader front = .error .truncated

theorem Cuts.congr (h : Cuts reader Spells)
    (hiff : ∀ value wire, Spells value wire ↔ Spells' value wire) : Cuts reader Spells' := by
  intro value front lost hlost hspells
  exact h value front lost hlost ((hiff _ _).mpr hspells)

theorem Cuts.map (h : Cuts reader Spells) (build : α → β) :
    Cuts (fun bytes => do
      let (value, rest) ← reader bytes
      return (build value, rest)) fun out wire => ∃ value, Spells value wire ∧ build value = out := by
  rintro _ front lost hlost ⟨value, hspells, rfl⟩
  simp only [h value front lost hlost hspells, error_bind]

/-- Bytes that end inside two items run out in the first of them or, behind that, in the second. -/
theorem Cuts.bind (h : Cuts reader Spells) (hinverts : Inverts reader Spells) {value : α}
    {wire tail front lost : Bytes} {next : α × Bytes → Except CodecError β}
    (hspells : Spells value wire) (hlost : lost ≠ []) (hsplit : front ++ lost = wire ++ tail)
    (hnext : ∀ front', front' ++ lost = tail → next (value, front') = .error .truncated) :
    (reader front >>= next) = .error .truncated := by
  rcases List.append_eq_append_iff.mp hsplit with ⟨missing, rfl, rfl⟩ | ⟨front', rfl, rfl⟩
  · by_cases hmissing : missing = []
    · subst hmissing
      rw [← List.append_nil front, hinverts.bind_append (by simpa using hspells)]
      exact hnext [] rfl
    · rw [h value front missing hmissing hspells, error_bind]
  · rw [hinverts.bind_append hspells]
    exact hnext front' rfl

/-- Bytes that end inside the last item run out in it. -/
theorem Cuts.bind_last (h : Cuts reader Spells) {value : α} {front lost : Bytes}
    (hlost : lost ≠ []) (hspells : Spells value (front ++ lost))
    (next : α × Bytes → Except CodecError β) : (reader front >>= next) = .error .truncated := by
  rw [h value front lost hlost hspells, error_bind]

theorem take_cuts (count : Nat) :
    Cuts (take count) fun front wire => front = wire ∧ wire.length = count := by
  rintro value front lost hlost ⟨-, hlength⟩
  have hshort : front.length < count := by
    have hpos := List.length_pos_iff.mpr hlost
    rw [List.length_append] at hlength
    omega
  rw [take_eq, if_pos hshort]

theorem byte_cuts : Cuts byte fun first wire => wire = [first] := by
  intro first front lost hlost hspells
  rcases List.append_eq_singleton_iff.mp hspells with ⟨rfl, -⟩ | ⟨-, rfl⟩
  · rfl
  · exact absurd rfl hlost

theorem word_cuts (width : Nat) :
    Cuts (word width) fun n wire => n < 256 ^ width ∧ wire = Word.encode width n := by
  rintro n front lost hlost ⟨-, hwire⟩
  refine (take_cuts width).bind_last hlost ⟨rfl, ?_⟩ _
  rw [hwire, Word.length_encode]

theorem text_cuts (width : Nat) (fault : Utf8.Defect → Malformation) :
    Cuts (text width fault) fun value wire =>
      (Utf8.encode value).length < 256 ^ width ∧ wire = encodeText width (Utf8.encode value) := by
  rintro value front lost hlost ⟨hlength, hwire⟩
  rw [encodeText] at hwire
  refine (word_cuts width).bind (word_inverts width) ⟨hlength, rfl⟩ hlost hwire ?_
  intro front' hfront'
  exact (take_cuts _).bind_last hlost ⟨rfl, congrArg List.length hfront'⟩ _

/-- A run of items that was cut off runs out in one of them. -/
theorem many_cuts {item : Reader α} (h : Cuts item Spells) (hinverts : Inverts item Spells)
    {count : Nat} {values : List α} {front lost : Bytes} (hlost : lost ≠ [])
    (hrun : Run Spells count values (front ++ lost)) (items : List α) :
    many item items count front = .error .truncated := by
  induction count generalizing items values front with
  | zero =>
      obtain ⟨hlength, wires, hwires, hflat⟩ := hrun
      obtain rfl := List.length_eq_zero_iff.mp hlength
      obtain rfl := List.forall₂_nil_left_iff.mp hwires
      exact absurd (List.append_eq_nil_iff.mp hflat).2 hlost
  | succ count ih =>
      obtain ⟨hlength, wires, hwires, hflat⟩ := hrun
      obtain ⟨next, rest, rfl⟩ := List.exists_cons_of_length_eq_add_one hlength
      obtain ⟨wire, others, hspells, hothers, rfl⟩ := List.forall₂_cons_left_iff.mp hwires
      rw [many_succ]
      refine h.bind hinverts hspells hlost hflat ?_
      intro front' hfront'
      exact ih ⟨Nat.succ.inj hlength, others, hothers, hfront'⟩ (next :: items)

/-- Rows that were cut off run out, whether or not the bytes left would do for shorter ones. -/
theorem rows_cuts {item : Reader α} (h : Cuts item Spells) (hinverts : Inverts item Spells)
    (width count : Nat) : Cuts (rows width count item) (Run Spells count) := by
  intro values front lost hlost hrun
  rw [rows]
  split_ifs with hshort
  · rfl
  · exact many_cuts h hinverts hlost hrun []

end Reader

theorem FrameHeader.read_cuts :
    Reader.Cuts FrameHeader.read fun header wire => wire = header.encode := by
  intro header front lost hlost hwire
  have hshort : front.length < Frame.headerLength := by
    have hpos := List.length_pos_iff.mpr hlost
    have hlength := congrArg List.length hwire
    rw [List.length_append, header.length_encode] at hlength
    omega
  simp only [FrameHeader.read, if_pos hshort, error_bind]

theorem Column.read_cuts (name : String) (count : Nat) (type : ColumnType) :
    Reader.Cuts (read name count type) fun column wire =>
      column.type = type ∧ column.length = count ∧ column.encodeCells = .ok wire := by
  cases type with
  | int =>
      have hcell := ((Reader.word_cuts 8).map fun n => (UInt64.ofNat n).toInt64).congr
        fun _ _ => Reader.int_cell_spells_iff
      have hrows := Reader.rows_cuts hcell Reader.int_cell_inverts 8 count
      exact (hrows.map int).congr fun _ _ => int_spells_iff
  | float32 =>
      have hcell := ((Reader.word_cuts 4).map UInt32.ofNat).congr
        fun _ _ => Reader.float_cell_spells_iff
      have hrows := Reader.rows_cuts hcell Reader.float_cell_inverts 4 count
      exact (hrows.map float32).congr fun _ _ => float32_spells_iff
  | text =>
      have hrows := Reader.rows_cuts (Reader.text_cuts 4 (.cellText name))
        (Reader.text_inverts 4 (.cellText name)) 4 count
      exact (hrows.map text).congr fun _ _ => text_spells_iff

theorem readColumn_cuts (count : Nat) :
    Reader.Cuts (readColumn count) fun entry wire => encodeColumn count entry = .ok wire := by
  rintro ⟨name, column⟩ front lost hlost hwire
  obtain ⟨hlength, hname, cells, hcells, hsplit⟩ := encodeColumn_eq_ok_iff.mp hwire
  refine (Reader.text_cuts 2 _).bind (Reader.text_inverts 2 _) ⟨hname, rfl⟩ hlost hsplit ?_
  intro front₁ hsplit₁
  refine Reader.byte_cuts.bind Reader.byte_inverts rfl hlost hsplit₁ ?_
  intro front₂ hsplit₂
  have hspells : column.type = column.type ∧ column.length = count ∧
      column.encodeCells = .ok (front₂ ++ lost) := ⟨rfl, hlength, by rw [hsplit₂, hcells]⟩
  simp only [ColumnType.ofTag?_eq_some_iff.mpr rfl]
  exact (Column.read_cuts name count _).bind_last hlost hspells _

/-- The blocks of columns that can be pushed run out where they were cut off. -/
theorem readColumns_cut {count : Nat} {columns : List (String × Column)} {blocks : List Bytes}
    (h : BlocksOf count columns blocks) {table grown : Table}
    (hpush : table.pushAll columns = .ok grown) {front lost : Bytes} (hlost : lost ≠ [])
    (hsplit : front ++ lost = blocks.flatten) :
    readColumns count table columns.length front = .error .truncated := by
  induction h generalizing table front with
  | nil => exact absurd (List.append_eq_nil_iff.mp hsplit).2 hlost
  | @cons entry block columns blocks hblock _ ih =>
      rw [Table.pushAll_cons] at hpush
      obtain ⟨next, hnext, hrest⟩ := bind_eq_ok_iff.mp hpush
      rw [List.length_cons, readColumns]
      refine (readColumn_cuts count).bind (readColumn_inverts count) hblock hlost hsplit ?_
      intro front' hfront'
      simp only [hnext]
      exact ih hrest hfront'

namespace Frame

/-- A frame that was read has a header and blocks of columns that can be pushed. -/
theorem exists_blocks {wire : Bytes} {frame : Frame} (h : decode wire = .ok frame) :
    ∃ (header : FrameHeader) (blocks : List Bytes) (grown : Table),
      wire = header.encode ++ blocks.flatten ∧
        header.columns.toNat = frame.table.columns.length ∧
          BlocksOf header.rows.toNat frame.table.columns blocks ∧
            Table.empty.pushAll frame.table.columns = .ok grown := by
  obtain ⟨hencode, hwell⟩ := encode_of_decode h
  obtain ⟨hrows, hcount, blocks, hblocks, hwire⟩ := encodeColumns_eq_ok_iff.mp hencode
  have hpush := (Table.pushAll_empty_eq_ok_iff hblocks.length_eq).mpr ⟨hwell.names_nodup, rfl⟩
  refine ⟨_, blocks, _, hwire, UInt16.toNat_ofNat_of_lt' hcount, ?_, hpush⟩
  rw [UInt32.toNat_ofNat_of_lt' hrows]
  exact hblocks

theorem decode_cut {front lost : Bytes} {frame : Frame} (h : decode (front ++ lost) = .ok frame)
    (hlost : lost ≠ []) : decode front = .error .truncated := by
  obtain ⟨header, blocks, grown, hwire, hcount, hblocks, hpush⟩ := exists_blocks h
  rw [decode]
  refine FrameHeader.read_cuts.bind FrameHeader.read_inverts rfl hlost hwire ?_
  intro front' hfront'
  simp only [hcount, readColumns_cut hblocks hpush hlost hfront', error_bind]

theorem decode_append {wire rest : Bytes} {frame : Frame} (h : decode wire = .ok frame)
    (hrest : rest ≠ []) : decode (wire ++ rest) = .error (.trailingBytes rest.length) := by
  obtain ⟨header, blocks, grown, rfl, hcount, hblocks, hpush⟩ := exists_blocks h
  have hlength : rest.length ≠ 0 := fun hzero => hrest (List.length_eq_zero_iff.mp hzero)
  have hread := readColumns_blocks hblocks Table.empty rest
  rw [hpush] at hread
  rw [decode, List.append_assoc, FrameHeader.read_inverts.bind_append rfl]
  simp only [hcount, hread, ok_bind, if_pos hlength, error_bind]

theorem magic_prefix_of_decode {wire : Bytes} {frame : Frame} (h : decode wire = .ok frame) :
    magic <+: wire := by
  obtain ⟨header, blocks, -, rfl, -⟩ := exists_blocks h
  simp only [FrameHeader.encode, List.append_assoc]
  exact List.prefix_append _ _

end Frame

namespace Message

theorem decode_of_ne {bytes : Bytes} (h : bytes ≠ closeSentinel) :
    decode bytes = Message.frame <$> Frame.decode bytes := by
  rw [decode, if_neg h]

/-- The sentinel and a frame differ within the magic, so the sentinel is no part of a frame. -/
theorem not_magic_prefix_closeSentinel : ¬ Frame.magic <+: closeSentinel := by
  decide

theorem decode_cut {front lost : Bytes} {frame : Frame}
    (h : Frame.decode (front ++ lost) = .ok frame) (hlost : lost ≠ []) :
    decode front = .error .truncated := by
  have hne : front ≠ closeSentinel := by
    rintro rfl
    have hmagic := Frame.magic_prefix_of_decode h
    exact not_magic_prefix_closeSentinel
      (List.prefix_of_prefix_length_le hmagic (List.prefix_append _ _) (by decide))
  rw [decode_of_ne hne, Frame.decode_cut h hlost]
  rfl

theorem decode_append {wire rest : Bytes} {frame : Frame} (h : Frame.decode wire = .ok frame)
    (hrest : rest ≠ []) : decode (wire ++ rest) = .error (.trailingBytes rest.length) := by
  have hne : wire ++ rest ≠ closeSentinel := by
    intro hsentinel
    apply not_magic_prefix_closeSentinel
    rw [← hsentinel]
    exact (Frame.magic_prefix_of_decode h).trans (List.prefix_append _ _)
  rw [decode_of_ne hne, Frame.decode_append h hrest]
  rfl

end Message

/-- Bytes that are read as a frame end where the frame ends: any part of them that stops earlier is
truncated, and all bytes behind them are left over. So no frame begins with another one. -/
theorem Frame.self_delimiting {wire : Bytes} {frame : Frame} (h : Frame.decode wire = .ok frame) :
    (∀ front, front <+: wire → front ≠ wire →
      Frame.decode front = .error .truncated ∧ Message.decode front = .error .truncated) ∧
    (∀ rest, rest ≠ [] →
      Frame.decode (wire ++ rest) = .error (.trailingBytes rest.length) ∧
        Message.decode (wire ++ rest) = .error (.trailingBytes rest.length)) ∧
    (∀ longer other, Frame.decode longer = .ok other → wire <+: longer → wire = longer) := by
  refine ⟨?_, ?_, ?_⟩
  · rintro front ⟨lost, rfl⟩ hproper
    have hlost : lost ≠ [] := by
      rintro rfl
      exact hproper (List.append_nil front).symm
    exact ⟨Frame.decode_cut h hlost, Message.decode_cut h hlost⟩
  · intro rest hrest
    exact ⟨Frame.decode_append h hrest, Message.decode_append h hrest⟩
  · rintro longer other hother ⟨rest, rfl⟩
    by_contra hproper
    have hrest : rest ≠ [] := by
      rintro rfl
      exact hproper (List.append_nil wire).symm
    rw [Frame.decode_append h hrest] at hother
    cases hother

/-- One row of one text column, cut off inside a letter, and the same with a second frame behind
it. -/
theorem Frame.self_delimiting_text :
    let wire : Bytes := [71, 76, 83, 70, 1, 2, 9, 0, 0, 0, 0, 0, 0, 0, 1, 0, 0, 0, 1, 0,
      1, 0, 97, 3, 2, 0, 0, 0, 195, 169]
    Frame.decode wire = .ok ⟨.edges, 9, ⟨[("a", .text ["é"])], 1⟩⟩ ∧
      Message.decode (wire.take 29) = .error .truncated ∧
        Message.decode (wire ++ wire) = .error (.trailingBytes 30) := by
  intro wire
  have hread : Frame.decode wire = .ok ⟨.edges, 9, ⟨[("a", .text ["é"])], 1⟩⟩ := by rfl
  have hends := Frame.self_delimiting hread
  exact ⟨hread, (hends.1 _ (List.take_prefix 29 wire) (by decide)).2,
    (hends.2.1 wire (by decide)).2⟩

end LiveLayout
