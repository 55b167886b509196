import LiveLayout.Proofs.Wire.Frame

/-!
# Headers read ahead of their frames

A header is read off the first twenty bytes, so it can be looked at without the columns behind it.
It says of a frame what the frame turns out to hold, and it is refused as the frame would be.
-/

namespace LiveLayout

namespace Reader

variable {α β : Type}

/-- The reader looks at the next `width` bytes alone, and takes all of them. -/
def Fixed (width : Nat) (reader : Reader α) : Prop :=
  ∀ bytes : Bytes, width ≤ bytes.length →
    reader bytes = (fun found => (found.1, bytes.drop width)) <$> reader (bytes.take width)

theorem Fixed.error (width : Nat) (error : CodecError) :
    Fixed width fun _ => (.error error : Except CodecError (α × Bytes)) := by
  intro bytes _
  rfl

theorem Fixed.pure (value : α) : Fixed 0 fun bytes => .ok (value, bytes) := by
  intro bytes _
  rfl

/-- Items of fixed widths behind each other have a fixed width together. -/
theorem Fixed.bind {first width : Nat} {reader : Reader α}
    {next : α × Bytes → Except CodecError (β × Bytes)} (h : Fixed first reader) (second : Nat)
    (hnext : ∀ value, Fixed second fun bytes => next (value, bytes))
    (hwidth : width = first + second) : Fixed width fun bytes => reader bytes >>= next := by
  intro bytes hbytes
  subst hwidth
  have hfirst : first ≤ (bytes.take (first + second)).length := by
    rw [List.length_take_of_le hbytes]
    exact Nat.le_add_right _ _
  have hsecond : second ≤ (bytes.drop first).length := by
    rw [List.length_drop]
    omega
  dsimp only
  rw [h bytes (by omega), h _ hfirst, List.take_take, Nat.min_eq_left (Nat.le_add_right _ _),
    List.drop_take, Nat.add_sub_cancel_left]
  cases reader (bytes.take first) with
  | error error => rfl
  | ok found =>
      have hrest := hnext found.1 _ hsecond
      rw [List.drop_drop] at hrest
      exact hrest

theorem take_fixed (count : Nat) : Fixed count (take count) := by
  intro bytes hbytes
  have hlength : (bytes.take count).length = count := List.length_take_of_le hbytes
  rw [take_eq, take_eq, hlength, if_neg (Nat.not_lt.mpr hbytes), if_neg (Nat.lt_irrefl count),
    List.take_take, Nat.min_self]
  rfl

theorem byte_fixed : Fixed 1 byte := by
  rw [funext byte_eq]
  exact (take_fixed 1).bind 0 (fun front => Fixed.pure (front.headD 0)) rfl

theorem word_fixed (width : Nat) : Fixed width (word width) :=
  (take_fixed width).bind 0 (fun front => Fixed.pure (Word.value front)) rfl

end Reader

namespace FrameHeader

/-- A header is read off its twenty bytes. -/
theorem read_fixed : Reader.Fixed Frame.headerLength read := by
  intro bytes hbytes
  have htaken : ¬ (bytes.take Frame.headerLength).length < Frame.headerLength := by
    rw [List.length_take_of_le hbytes]
    exact Nat.lt_irrefl _
  simp only [read, if_neg (Nat.not_lt.mpr hbytes), if_neg htaken]
  refine (Reader.take_fixed 4).bind 16 ?_ rfl bytes hbytes
  intro magic
  dsimp only
  split_ifs with hmagic
  · exact Reader.Fixed.error _ _
  refine Reader.byte_fixed.bind 15 ?_ rfl
  intro version
  dsimp only
  split_ifs with hversion
  · exact Reader.Fixed.error _ _
  refine Reader.byte_fixed.bind 14 ?_ rfl
  intro tag
  dsimp only
  cases FrameKind.ofTag? tag with
  | none => exact Reader.Fixed.error _ _
  | some kind =>
      refine (Reader.word_fixed 8).bind 6 ?_ rfl
      intro iteration
      dsimp only
      refine (Reader.word_fixed 4).bind 2 ?_ rfl
      intro rows
      dsimp only
      refine (Reader.word_fixed 2).bind 0 ?_ rfl
      intro columns
      dsimp only
      exact Reader.Fixed.pure _

theorem peek_take {bytes : Bytes} (h : Frame.headerLength ≤ bytes.length) :
    peek bytes = peek (bytes.take Frame.headerLength) := by
  rw [peek, peek, read_fixed bytes h]
  cases read (bytes.take Frame.headerLength) with
  | error error => rfl
  | ok found => rfl

theorem peek_eq_error_iff {bytes : Bytes} {error : CodecError} :
    peek bytes = .error error ↔ read bytes = .error error := by
  rw [peek]
  cases read bytes with
  | error other =>
      constructor
      · rintro ⟨⟩
        rfl
      · rintro ⟨⟩
        rfl
  | ok found => exact ⟨nofun, nofun⟩

end FrameHeader

namespace Frame

/-- The header that a frame is written with. -/
def header (frame : Frame) : FrameHeader :=
  ⟨frame.kind, frame.iteration, UInt32.ofNat frame.table.rowCount,
    UInt16.ofNat frame.table.columns.length⟩

theorem decode_of_peek_error {wire : Bytes} {error : CodecError}
    (h : FrameHeader.peek wire = .error error) : decode wire = .error error := by
  rw [decode, FrameHeader.peek_eq_error_iff.mp h, error_bind]

theorem peek_of_decode {wire : Bytes} {frame : Frame} (h : decode wire = .ok frame) :
    FrameHeader.peek wire = .ok frame.header := by
  obtain ⟨-, -, blocks, -, rfl⟩ := encodeColumns_eq_ok_iff.mp (encode_of_decode h).1
  have hread := (FrameHeader.read_inverts (frame.header.encode ++ blocks.flatten) frame.header
    blocks.flatten).mpr ⟨_, rfl, rfl⟩
  change Prod.fst <$> FrameHeader.read (frame.header.encode ++ blocks.flatten) = _
  rw [hread]
  rfl

/-- The counts of a frame that was read are those of its header: neither was cut down to its
field. -/
theorem header_counts_of_decode {wire : Bytes} {frame : Frame} (h : decode wire = .ok frame) :
    frame.header.rows.toNat = frame.table.rowCount ∧
      frame.header.columns.toNat = frame.table.columns.length := by
  obtain ⟨hrows, hcolumns, -⟩ := encodeColumns_eq_ok_iff.mp (encode_of_decode h).1
  exact ⟨UInt32.toNat_ofNat_of_lt' hrows, UInt16.toNat_ofNat_of_lt' hcolumns⟩

/-- A payload is refused from its header on, or behind it, or not at all. -/
theorem peek_decode_cases (wire : Bytes) :
    (∃ error, FrameHeader.peek wire = .error error ∧ decode wire = .error error) ∨
    (∃ header error, FrameHeader.peek wire = .ok header ∧ decode wire = .error error) ∨
    ∃ frame, FrameHeader.peek wire = .ok frame.header ∧ decode wire = .ok frame := by
  cases hpeek : FrameHeader.peek wire with
  | error error => exact .inl ⟨error, rfl, decode_of_peek_error hpeek⟩
  | ok header =>
      cases hdecode : decode wire with
      | error error => exact .inr (.inl ⟨header, error, rfl, rfl⟩)
      | ok frame => exact .inr (.inr ⟨frame, hpeek.symm.trans (peek_of_decode hdecode), rfl⟩)

section Discarding

-- What was kept so far decides which iterations are stale.
variable (stale : List Frame → UInt64 → Bool)

/-- Keeps one more payload if it is a frame that is not stale, and reads its columns only if its
header says that it is not. -/
def keepPeeked (kept : List Frame) (wire : Bytes) : List Frame :=
  match FrameHeader.peek wire with
  | .error _ => kept
  | .ok header =>
    if stale kept header.iteration then kept
    else
      match decode wire with
      | .error _ => kept
      | .ok frame => kept ++ [frame]

/-- Reads one more payload, and keeps it if it is a frame that is not stale. -/
def keepDecoded (kept : List Frame) (wire : Bytes) : List Frame :=
  match decode wire with
  | .error _ => kept
  | .ok frame => if stale kept frame.iteration then kept else kept ++ [frame]

theorem keepPeeked_eq_keepDecoded : keepPeeked stale = keepDecoded stale := by
  funext kept wire
  rw [keepPeeked, keepDecoded]
  obtain ⟨error, hpeek, hdecode⟩ | ⟨header, error, hpeek, hdecode⟩ | ⟨frame, hpeek, hdecode⟩ :=
    peek_decode_cases wire
  · rw [hpeek, hdecode]
  · rw [hpeek, hdecode]
    exact ite_self _
  · rw [hpeek, hdecode]
    rfl

end Discarding

/-- Payloads that are sorted out by their headers leave the frames that would be left of all. -/
theorem filterMap_filter_peek (fresh : UInt64 → Bool) (wires : List Bytes) :
    (wires.filter fun wire => (FrameHeader.peek wire).toOption.any (fresh ·.iteration)).filterMap
        (fun wire => (decode wire).toOption) =
      (wires.filterMap fun wire => (decode wire).toOption).filter (fresh ·.iteration) := by
  rw [List.filterMap_filter, List.filter_filterMap]
  apply List.filterMap_congr
  intro wire _
  obtain ⟨error, hpeek, hdecode⟩ | ⟨header, error, hpeek, hdecode⟩ | ⟨frame, hpeek, hdecode⟩ :=
    peek_decode_cases wire
  · rw [hpeek, hdecode]
    rfl
  · rw [hpeek, hdecode]
    exact ite_self _
  · rw [hpeek, hdecode]
    rfl

/-- A payload whose header cannot be read is refused as a frame for the same reason, and a frame
that was read has the kind, iteration and counts that its header says. A header is read off twenty
bytes, whatever comes behind them. So payloads may be discarded by the iterations of their headers:
the frames that are left are those that would be left if each payload were read first, also where
the frames kept so far decide which iterations are stale. -/
theorem peek_agrees_with_decode :
    (∀ (wire : Bytes) (error : CodecError),
      FrameHeader.peek wire = .error error → decode wire = .error error) ∧
    (∀ (wire : Bytes) (frame : Frame), decode wire = .ok frame →
      ∃ header, FrameHeader.peek wire = .ok header ∧ header.kind = frame.kind ∧
        header.iteration = frame.iteration ∧ header.rows.toNat = frame.table.rowCount ∧
        header.columns.toNat = frame.table.columns.length) ∧
    (∀ wire wire' : Bytes, 20 ≤ wire.length → 20 ≤ wire'.length →
      wire.take 20 = wire'.take 20 → FrameHeader.peek wire = FrameHeader.peek wire') ∧
    (∀ (fresh : UInt64 → Bool) (wires : List Bytes),
      (wires.filter fun wire => (FrameHeader.peek wire).toOption.any (fresh ·.iteration)).filterMap
          (fun wire => (decode wire).toOption) =
        (wires.filterMap fun wire => (decode wire).toOption).filter (fresh ·.iteration)) ∧
    (∀ (stale : List Frame → UInt64 → Bool) (kept : List Frame) (wires : List Bytes),
      wires.foldl (keepPeeked stale) kept = wires.foldl (keepDecoded stale) kept) := by
  refine ⟨fun wire error => decode_of_peek_error, ?_, ?_, filterMap_filter_peek, ?_⟩
  · intro wire frame h
    obtain ⟨hrows, hcolumns⟩ := header_counts_of_decode h
    exact ⟨frame.header, peek_of_decode h, rfl, rfl, hrows, hcolumns⟩
  · intro wire wire' h h' htake
    calc
      FrameHeader.peek wire = FrameHeader.peek (wire.take 20) := FrameHeader.peek_take h
      _ = FrameHeader.peek (wire'.take 20) := by rw [htake]
      _ = FrameHeader.peek wire' := (FrameHeader.peek_take h').symm
  · intro stale kept wires
    rw [keepPeeked_eq_keepDecoded]

/-- One row of one text column, its header with another column behind it, and the same with a
version that is not known. -/
theorem peek_agrees_with_decode_text :
    let wire : Bytes := [71, 76, 83, 70, 1, 2, 9, 0, 0, 0, 0, 0, 0, 0, 1, 0, 0, 0, 1, 0,
      1, 0, 97, 3, 2, 0, 0, 0, 195, 169]
    let other : Bytes := wire.take 20 ++ [1, 0, 98, 9]
    let unknown : Bytes := [71, 76, 83, 70, 2] ++ wire.drop 5
    (decode wire = .ok ⟨.edges, 9, ⟨[("a", .text ["é"])], 1⟩⟩ ∧
      ∃ header, FrameHeader.peek wire = .ok header ∧ header.iteration = 9 ∧
        header.rows.toNat = 1) ∧
    FrameHeader.peek wire = FrameHeader.peek other ∧
    (FrameHeader.peek unknown = .error (.unsupportedVersion 2) ∧
      decode unknown = .error (.unsupportedVersion 2)) := by
  intro wire other unknown
  have hdecode : decode wire = .ok ⟨.edges, 9, ⟨[("a", .text ["é"])], 1⟩⟩ := by rfl
  have hunknown : FrameHeader.peek unknown = .error (.unsupportedVersion 2) := by rfl
  obtain ⟨herror, hheader, hfirst, -, -⟩ := peek_agrees_with_decode
  obtain ⟨header, hpeek, -, hiteration, hrows, -⟩ := hheader wire _ hdecode
  exact ⟨⟨hdecode, header, hpeek, hiteration, hrows⟩,
    hfirst wire other (by decide) (by decide) (by decide),
    hunknown, herror unknown _ hunknown⟩

end Frame

end LiveLayout
