import LiveLayout.Proofs.Wire.Reader
import LiveLayout.Wire.Cursor

/-!
# Reading stays inside the buffer

Whatever the bytes are, reading them in place gives what reading them off the front gives, and no
step of it leaves the buffer. Both are shown together, since what a slice may take is known from
the check in front of it, and both ways of reading make the same checks.
-/

namespace LiveLayout

/-- The step stays inside a buffer of the given length, and makes no vector that the bytes at hand
cannot fill. -/
def ReadingStep.Inside (length : Nat) (step : ReadingStep) : Prop :=
  step.position ≤ length ∧
    match step.access with
    | .measure => True
    | .slice count => step.position + count ≤ length
    | .look held count => count ≤ held
    | .reserve type count available => type.leastWidth * count ≤ available ∧ available ≤ length
    | .fill held width count => held = width * count ∧ count = held / width

theorem ReadingStep.Inside.not_crashes {length : Nat} {step : ReadingStep}
    (h : step.Inside length) : step.crashes length = false := by
  obtain ⟨position, access⟩ := step
  obtain ⟨hposition, haccess⟩ := h
  cases access with
  | measure => simpa [crashes] using hposition
  | slice count => simpa [crashes] using haccess
  | look held count => simpa [crashes] using haccess
  | reserve type count available => rfl
  | fill held width count => simpa [crashes] using haccess.1

theorem ColumnType.four_le_leastWidth (type : ColumnType) : 4 ≤ type.leastWidth := by
  cases type <;> decide

/-- A vector that is made inside a buffer has at most a quarter as many elements as that has bytes. -/
theorem ReadingStep.Inside.four_mul_le {length position count available : Nat} {type : ColumnType}
    (h : Inside length ⟨position, .reserve type count available⟩) : 4 * count ≤ length := by
  obtain ⟨-, hwidth, havailable⟩ := h
  calc
    4 * count ≤ type.leastWidth * count := Nat.mul_le_mul_right count type.four_le_leastWidth
    _ ≤ available := hwidth
    _ ≤ length := havailable

namespace Cursor

/-- The cursor and all that was done on the way to it are inside the buffer. -/
structure Sound (wire : Bytes) (cursor : Cursor) : Prop where
  position_le : cursor.position ≤ wire.length
  inside : ∀ step ∈ cursor.steps, step.Inside wire.length

theorem sound_start (wire : Bytes) : start.Sound wire := ⟨Nat.zero_le _, nofun⟩

/-- The cursor behind one more access. -/
def after (cursor : Cursor) (access : Access) : Cursor :=
  { cursor with steps := cursor.steps ++ [⟨cursor.position, access⟩] }

theorem Sound.after {wire : Bytes} {cursor : Cursor} (h : cursor.Sound wire) (access : Access)
    (hinside : ReadingStep.Inside wire.length ⟨cursor.position, access⟩) :
    (cursor.after access).Sound wire := by
  refine ⟨h.position_le, ?_⟩
  intro step hstep
  rcases List.mem_append.mp hstep with hbefore | hlast
  · exact h.inside step hbefore
  · rw [List.mem_singleton.mp hlast]
    exact hinside

end Cursor

namespace Scan

variable {α β γ : Type} {wire : Bytes} {cursor : Cursor}

theorem run_bind (scan : Scan α) (next : α → Scan β) (wire : Bytes) (cursor : Cursor) :
    (scan >>= next).run wire cursor =
      match scan.run wire cursor with
      | (.ok value, behind) => (next value).run wire behind
      | (.error halt, behind) => (.error halt, behind) := by
  unfold run
  simp only [bind, ReaderT.bind, ExceptT.bind, ExceptT.mk, StateT.bind]
  rcases scan wire cursor with ⟨_ | _, _⟩ <;> rfl

theorem run_perform {access : Access}
    (h : ReadingStep.Inside wire.length ⟨cursor.position, access⟩) :
    (perform access).run wire cursor = (.ok (), cursor.after access) := by
  change (if ReadingStep.crashes wire.length ⟨cursor.position, access⟩ = true then _ else _ :
    Scan Unit).run wire (cursor.after access) = _
  rw [h.not_crashes]
  rfl

/-- From a cursor, a scan ends inside the buffer and as expected. The view is what is compared of a
value and the bytes behind it. -/
structure Agrees (wire : Bytes) (cursor : Cursor) (scan : Scan α) (view : α → Bytes → β)
    (expected : Except CodecError β) : Prop where
  sound : (scan.run wire cursor).2.Sound wire
  result : (scan.run wire cursor).1.map (view · (wire.drop (scan.run wire cursor).2.position)) =
    expected.mapError .refused

section Agrees

variable {scan : Scan α} {next : α → Scan β} {view : β → Bytes → γ}

theorem agrees_pure (h : cursor.Sound wire) (value : β) :
    Agrees wire cursor (pure value) view (.ok (view value (wire.drop cursor.position))) :=
  ⟨h, rfl⟩

theorem agrees_refuse (h : cursor.Sound wire) (error : CodecError) :
    Agrees wire cursor (refuse error) view (.error error) :=
  ⟨h, rfl⟩

theorem Agrees.bind {expected : Except CodecError (α × Bytes)}
    {rest : α × Bytes → Except CodecError γ} (h : Agrees wire cursor scan Prod.mk expected)
    (hnext : ∀ value behind, behind.Sound wire →
      expected = .ok (value, wire.drop behind.position) →
        Agrees wire behind (next value) view (rest (value, wire.drop behind.position))) :
    Agrees wire cursor (scan >>= next) view (expected >>= rest) := by
  obtain ⟨hsound, hresult⟩ := h
  -- Both ways stop in the first part, with its error, or both go on from the same place.
  rcases hrun : scan.run wire cursor with ⟨halt | value, behind⟩
  · rw [hrun] at hsound hresult
    cases expected with
    | error error =>
        cases hresult
        refine ⟨?_, ?_⟩
        · rw [run_bind, hrun]
          exact hsound
        · rw [run_bind, hrun]
          rfl
    | ok found => cases hresult
  · rw [hrun] at hsound hresult
    cases expected with
    | error error => cases hresult
    | ok found =>
        cases hresult
        obtain ⟨hbehind, hrest⟩ := hnext value behind hsound rfl
        refine ⟨?_, ?_⟩
        · rw [run_bind, hrun]
          exact hbehind
        · rw [run_bind, hrun]
          exact hrest

/-- A step inside the buffer changes nothing of what comes out. -/
theorem Agrees.perform_bind {access : Access} {next : Unit → Scan β}
    {expected : Except CodecError γ}
    (hinside : ReadingStep.Inside wire.length ⟨cursor.position, access⟩)
    (h : Agrees wire (cursor.after access) (next ()) view expected) :
    Agrees wire cursor (perform access >>= next) view expected := by
  refine ⟨?_, ?_⟩
  · rw [run_bind, run_perform hinside]
    exact h.sound
  · rw [run_bind, run_perform hinside]
    exact h.result

theorem Agrees.remaining_bind {next : Nat → Scan β} {expected : Except CodecError γ}
    (hcursor : cursor.Sound wire)
    (h : Agrees wire (cursor.after .measure) (next (wire.drop cursor.position).length) view
      expected) :
    Agrees wire cursor (remaining >>= next) view expected := by
  have hrun : remaining.run wire cursor =
      (.ok (wire.drop cursor.position).length, cursor.after .measure) := by
    rw [remaining, run_bind, run_perform ⟨hcursor.position_le, trivial⟩, List.length_drop]
    rfl
  refine ⟨?_, ?_⟩
  · rw [run_bind, hrun]
    exact h.sound
  · rw [run_bind, hrun]
    exact h.result

end Agrees

/-- From every place in a buffer, the scan does what the reader does with the bytes from there. -/
def Follows (scan : Scan α) (reader : Reader α) : Prop :=
  ∀ wire cursor, cursor.Sound wire →
    Agrees wire cursor scan Prod.mk (reader (wire.drop cursor.position))

theorem take_follows (count : Nat) : Follows (take count) (Reader.take count) := by
  intro wire cursor h
  rw [take, Reader.take_eq]
  refine .remaining_bind h ?_
  have hmeasured := h.after .measure ⟨h.position_le, trivial⟩
  split_ifs with hshort
  · exact agrees_refuse hmeasured _
  · rw [List.length_drop] at hshort
    have hend : cursor.position + count ≤ wire.length := by
      have hposition := h.position_le
      omega
    refine .perform_bind ⟨h.position_le, hend⟩ ⟨⟨hend, ?_⟩, ?_⟩
    · exact (hmeasured.after (.slice count) ⟨h.position_le, hend⟩).inside
    · rw [List.drop_drop]
      rfl

theorem byte_follows : Follows byte Reader.byte := by
  intro wire cursor h
  rw [Reader.byte_eq]
  refine (take_follows 1 wire cursor h).bind ?_
  intro slice behind hbehind hread
  have hlength := (Reader.take_ok hread).2
  refine .perform_bind ⟨hbehind.position_le, hlength.ge⟩ ?_
  exact agrees_pure (hbehind.after _ ⟨hbehind.position_le, hlength.ge⟩) _

theorem word_follows (width : Nat) : Follows (word width) (Reader.word width) := by
  intro wire cursor h
  refine (take_follows width wire cursor h).bind ?_
  intro slice behind hbehind hread
  have hlength := (Reader.take_ok hread).2
  refine .perform_bind ⟨hbehind.position_le, hlength.ge⟩ ?_
  rw [List.take_of_length_le hlength.le]
  exact agrees_pure (hbehind.after _ ⟨hbehind.position_le, hlength.ge⟩) _

theorem text_follows (width : Nat) (fault : Utf8.Defect → Malformation) :
    Follows (text width fault) (Reader.text width fault) := by
  intro wire cursor h
  refine (word_follows width wire cursor h).bind ?_
  intro length behind hbehind _
  refine (take_follows length wire behind hbehind).bind ?_
  intro slice last hlast _
  cases hdecode : Utf8.decode slice with
  | error defect =>
    simp only [hdecode]
    exact agrees_refuse hlast _
  | ok text =>
    simp only [hdecode]
    exact agrees_pure hlast _

theorem many_follows {scan : Scan α} {item : Reader α} (h : Follows scan item) (count : Nat)
    (items : List α) : Follows (many scan items count) (Reader.many item items count) := by
  induction count generalizing items with
  | zero =>
      intro wire cursor hcursor
      exact agrees_pure hcursor _
  | succ count ih =>
      intro wire cursor hcursor
      rw [many, Reader.many_succ]
      refine (h wire cursor hcursor).bind ?_
      intro next behind hbehind _
      exact ih (next :: items) wire behind hbehind

theorem block_follows {count width : Nat} (h : count * width < UInt64.size) :
    Follows (block count width) (Reader.take (count * width)) := by
  rw [block, product?, if_pos h]
  exact take_follows _

/-- A block read into a vector is what reading its words one by one gives. -/
theorem many_word {width count : Nat} {slice : Bytes} (h : slice.length = count * width)
    (items : List Nat) (rest : Bytes) :
    Reader.many (Reader.word width) items count (slice ++ rest) =
      .ok (items.reverse ++ words width (List.replicate count 0) slice, rest) := by
  induction count generalizing items slice with
  | zero =>
      rw [Nat.zero_mul, List.length_eq_zero_iff] at h
      subst h
      simp [Reader.many, words]
  | succ count ih =>
      have hwidth : width ≤ slice.length := by
        rw [h, Nat.succ_mul]
        exact Nat.le_add_left _ _
      have hrest : (slice.drop width).length = count * width := by
        rw [List.length_drop, h, Nat.succ_mul, Nat.add_sub_cancel]
      have hnot : ¬ (slice ++ rest).length < width := by
        rw [List.length_append]
        omega
      rw [Reader.many_succ, Reader.word, Reader.take_eq, if_neg hnot, ok_bind,
        List.take_append_of_le_length hwidth, List.drop_append_of_le_length hwidth]
      simp only [pure, Except.pure, ok_bind]
      rw [ih hrest, List.replicate_succ, words, List.reverse_cons, List.append_assoc,
        List.singleton_append]

/-- A block as long as its words gives what reading off as many words does. -/
theorem rows_word (width count : Nat) (bytes : Bytes) :
    Reader.rows width count (Reader.word width) bytes =
      (Reader.take (count * width) bytes >>= fun found =>
        .ok (words width (List.replicate count 0) found.1, found.2)) := by
  rw [Reader.rows, Reader.take_eq]
  split_ifs with hshort
  · rfl
  · have hblock : (bytes.take (count * width)).length = count * width :=
      List.length_take_of_le (Nat.not_lt.mp hshort)
    have hmany := many_word hblock [] (bytes.drop (count * width))
    rw [List.take_append_drop] at hmany
    rw [hmany]
    rfl

/-- Numbers are read as a block once all of their bytes are there. -/
theorem numbers_follows (type : ColumnType) {count : Nat} (hcount : count < UInt32.size) :
    Follows (numbers type count)
      (Reader.rows type.leastWidth count (Reader.word type.leastWidth)) := by
  intro wire cursor h
  have hwidth : type.leastWidth ≤ 8 := by cases type <;> decide
  -- A count has four bytes, so the checked product of it and a width never fails.
  have hfits : count * type.leastWidth < UInt64.size := by
    calc
      count * type.leastWidth ≤ count * 8 := Nat.mul_le_mul_left count hwidth
      _ < UInt64.size := by
        simp only [UInt32.size, UInt64.size] at hcount ⊢
        omega
  rw [rows_word]
  refine (block_follows hfits wire cursor h).bind ?_
  intro slice behind hbehind hread
  obtain ⟨hbytes, hlength⟩ := Reader.take_ok hread
  have hinside : slice.length ≤ wire.length := by
    have hdrop := congrArg List.length hbytes
    rw [List.length_drop, List.length_append] at hdrop
    omega
  have hreserve : type.leastWidth * count ≤ slice.length := by
    rw [hlength, Nat.mul_comm]
  have hfill : slice.length = type.leastWidth * (List.replicate count 0).length ∧
      (List.replicate count 0).length = slice.length / type.leastWidth := by
    have hpos := type.four_le_leastWidth
    rw [hlength, List.length_replicate, Nat.mul_div_cancel count (by omega)]
    exact ⟨Nat.mul_comm _ _, rfl⟩
  simp only [vector, fill, bind_assoc, pure_bind]
  refine .perform_bind ⟨hbehind.position_le, hreserve, hinside⟩ ?_
  refine .perform_bind ⟨hbehind.position_le, hfill⟩ ?_
  have hreserved := hbehind.after (.reserve type count slice.length)
    ⟨hbehind.position_le, hreserve, hinside⟩
  exact agrees_pure (hreserved.after _ ⟨hbehind.position_le, hfill⟩) _

/-- Texts are read one by one once there are the bytes of their lengths. -/
theorem texts_follows (name : String) {count : Nat} (hcount : count < UInt32.size) :
    Follows (texts name count) (Reader.rows 4 count (Reader.text 4 (.cellText name))) := by
  intro wire cursor h
  have hcapped : cappedProduct count ColumnType.text.leastWidth = count * 4 := by
    simp only [UInt32.size] at hcount
    simp only [cappedProduct, ColumnType.leastWidth, UInt64.size]
    omega
  rw [texts, Reader.rows, hcapped]
  refine .remaining_bind h ?_
  have hmeasured := h.after .measure ⟨h.position_le, trivial⟩
  split_ifs with hshort
  · exact agrees_refuse hmeasured _
  · have hinside : ReadingStep.Inside wire.length
        ⟨cursor.position, .reserve .text count (wire.drop cursor.position).length⟩ := by
      refine ⟨h.position_le, ?_, ?_⟩
      · simp only [ColumnType.leastWidth]
        omega
      · rw [List.length_drop]
        exact Nat.sub_le _ _
    refine .perform_bind hinside ?_
    exact many_follows (text_follows 4 _) count [] wire _ (hmeasured.after _ hinside)

end Scan

theorem Column.scan_follows (name : String) {count : Nat} (hcount : count < UInt32.size)
    (type : ColumnType) : Scan.Follows (scan name count type) (read name count type) := by
  intro wire cursor h
  cases type with
  | int =>
      simp only [read, Reader.rows_map fun value => (UInt64.ofNat value).toInt64, bind_assoc]
      refine (Scan.numbers_follows .int hcount wire cursor h).bind ?_
      intro values behind hbehind _
      exact Scan.agrees_pure hbehind _
  | float32 =>
      simp only [read, Reader.rows_map UInt32.ofNat, bind_assoc]
      refine (Scan.numbers_follows .float32 hcount wire cursor h).bind ?_
      intro values behind hbehind _
      exact Scan.agrees_pure hbehind _
  | text =>
      refine (Scan.texts_follows name hcount wire cursor h).bind ?_
      intro values behind hbehind _
      exact Scan.agrees_pure hbehind _

theorem scanColumn_follows {count : Nat} (hcount : count < UInt32.size) :
    Scan.Follows (scanColumn count) (readColumn count) := by
  intro wire cursor h
  refine (Scan.text_follows 2 _ wire cursor h).bind ?_
  intro name cursor₁ h₁ _
  refine (Scan.byte_follows wire cursor₁ h₁).bind ?_
  intro tag cursor₂ h₂ _
  cases htype : ColumnType.ofTag? tag with
  | none =>
      simp only [htype]
      exact Scan.agrees_refuse h₂ _
  | some type =>
      simp only [htype]
      refine (Column.scan_follows name hcount type wire cursor₂ h₂).bind ?_
      intro column cursor₃ h₃ _
      exact Scan.agrees_pure h₃ _

theorem scanColumns_follows {count : Nat} (hcount : count < UInt32.size) (left : Nat)
    (table : Table) :
    Scan.Follows (scanColumns count table left) (readColumns count table left) := by
  induction left generalizing table with
  | zero =>
      intro wire cursor h
      exact Scan.agrees_pure h _
  | succ left ih =>
      intro wire cursor h
      refine (scanColumn_follows hcount wire cursor h).bind ?_
      intro entry behind hbehind _
      cases hpush : table.push entry.1 entry.2 with
      | error error =>
          simp only [hpush]
          exact Scan.agrees_refuse hbehind _
      | ok grown =>
          simp only [hpush]
          exact ih grown wire behind hbehind

/-- Both readings of a header look at its fields in the same order. -/
theorem FrameHeader.scan_follows : Scan.Follows scan read := by
  intro wire cursor h
  simp only [scan, read]
  refine .remaining_bind h ?_
  have hmeasured := h.after .measure ⟨h.position_le, trivial⟩
  split_ifs with hshort
  · exact Scan.agrees_refuse hmeasured _
  refine (Scan.take_follows 4 wire _ hmeasured).bind ?_
  intro magic cursor₁ h₁ hread
  dsimp only
  split_ifs with hmagic
  · have hlength := (Reader.take_ok hread).2
    have hfill : magic.length = 1 * 4 ∧ 4 = magic.length / 1 := by rw [hlength]; decide
    refine .perform_bind ⟨h₁.position_le, hfill⟩ ?_
    exact Scan.agrees_refuse (h₁.after _ ⟨h₁.position_le, hfill⟩) _
  refine (Scan.byte_follows wire cursor₁ h₁).bind ?_
  intro version cursor₂ h₂ _
  dsimp only
  split_ifs with hversion
  · exact Scan.agrees_refuse h₂ _
  refine (Scan.byte_follows wire cursor₂ h₂).bind ?_
  intro tag cursor₃ h₃ _
  cases hkind : FrameKind.ofTag? tag with
  | none => exact Scan.agrees_refuse h₃ _
  | some kind =>
      refine (Scan.word_follows 8 wire cursor₃ h₃).bind ?_
      intro iteration cursor₄ h₄ _
      refine (Scan.word_follows 4 wire cursor₄ h₄).bind ?_
      intro rows cursor₅ h₅ _
      refine (Scan.word_follows 2 wire cursor₅ h₅).bind ?_
      intro columns cursor₆ h₆ _
      exact Scan.agrees_pure h₆ _

/-- A frame is read in place as off the front, up to the bytes behind it. -/
theorem Frame.scan_agrees {wire : Bytes} {cursor : Cursor} (h : cursor.Sound wire) :
    Scan.Agrees wire cursor scan (fun frame _ => frame) (decode (wire.drop cursor.position)) := by
  simp only [scan, decode]
  refine (FrameHeader.scan_follows wire cursor h).bind ?_
  intro header cursor₁ h₁ _
  refine (scanColumns_follows header.rows.toNat_lt _ _ wire cursor₁ h₁).bind ?_
  intro table cursor₂ h₂ _
  dsimp only
  refine .remaining_bind h₂ ?_
  have hmeasured := h₂.after .measure ⟨h₂.position_le, trivial⟩
  by_cases hrest : (wire.drop cursor₂.position).length ≠ 0
  · rw [if_pos hrest, if_pos hrest]
    refine .remaining_bind hmeasured ?_
    exact Scan.agrees_refuse (hmeasured.after .measure ⟨h₂.position_le, trivial⟩) _
  rw [if_neg hrest, if_neg hrest]
  split_ifs with hcolumns
  · cases hrows : table.withRowCount header.rows.toNat with
    | error error => exact Scan.agrees_refuse hmeasured _
    | ok counted => exact Scan.agrees_pure hmeasured _
  · exact Scan.agrees_pure hmeasured _

namespace Scan

variable {α : Type} {wire : Bytes} {cursor : Cursor} {scan : Scan α}

theorem Agrees.outcome_eq {expected : Except CodecError α}
    (h : Agrees wire cursor scan (fun value _ => value) expected) :
    (scan.run wire cursor).1 = expected.mapError .refused := by
  rw [← h.result]
  cases (scan.run wire cursor).1 <;> rfl

/-- What is read is the same if the bytes behind it are left out. -/
theorem Agrees.fst {expected : Except CodecError (α × Bytes)}
    (h : Agrees wire cursor scan Prod.mk expected) :
    Agrees wire cursor scan (fun value _ => value) (Prod.fst <$> expected) := by
  refine ⟨h.sound, ?_⟩
  have hresult := congrArg (Except.map Prod.fst) h.result
  cases hrun : (scan.run wire cursor).1 with
  | error halt =>
      rw [hrun] at hresult
      cases expected with
      | error error => exact hresult
      | ok found => cases hresult
  | ok value =>
      rw [hrun] at hresult
      cases expected with
      | error error => cases hresult
      | ok found => exact hresult

end Scan

/-- Whatever a buffer holds, reading its header or its frame in place gives what reading the bytes
off the front gives, so it never crashes. At every step the cursor is inside the buffer, slices
end inside it, and what is looked at of a slice is there. A block is exactly as long as the words
of the vector it is read into. A vector for the cells of a column is made only while the buffer
has the least bytes of that many cells, so it has at most a quarter as many elements as the buffer
has bytes. -/
theorem Frame.scan_inside (wire : Bytes) :
    (FrameHeader.scan.run wire .start).1 = (FrameHeader.peek wire).mapError .refused ∧
    (Frame.scan.run wire .start).1 = (Frame.decode wire).mapError .refused ∧
    ∀ cursor ∈ [(FrameHeader.scan.run wire .start).2, (Frame.scan.run wire .start).2],
      cursor.position ≤ wire.length ∧
      (∀ step ∈ cursor.steps, step.Inside wire.length) ∧
      (∀ position type count available,
        ⟨position, .reserve type count available⟩ ∈ cursor.steps → 4 * count ≤ wire.length) := by
  have hheader := FrameHeader.scan_follows wire .start (Cursor.sound_start wire)
  have hframe := Frame.scan_agrees (Cursor.sound_start wire)
  have hinside : ∀ cursor : Cursor, cursor.Sound wire →
      cursor.position ≤ wire.length ∧ (∀ step ∈ cursor.steps, step.Inside wire.length) ∧
        (∀ position type count available,
          ⟨position, .reserve type count available⟩ ∈ cursor.steps → 4 * count ≤ wire.length) := by
    intro cursor hcursor
    refine ⟨hcursor.position_le, hcursor.inside, ?_⟩
    intro position type count available hmem
    exact (hcursor.inside _ hmem).four_mul_le
  refine ⟨hheader.fst.outcome_eq, hframe.outcome_eq, ?_⟩
  exact List.forall_mem_cons.mpr
    ⟨hinside _ hheader.sound, List.forall_mem_singleton.mpr (hinside _ hframe.sound)⟩

/-- One row of one text column, for which a vector of one text is made; and a header that claims as
many rows as there can be in front of the bytes of one number, for which none of that many is
made. -/
theorem Frame.scan_inside_claimed :
    let text : Bytes := [71, 76, 83, 70, 1, 2, 9, 0, 0, 0, 0, 0, 0, 0, 1, 0, 0, 0, 1, 0,
      1, 0, 97, 3, 2, 0, 0, 0, 195, 169]
    let claimed : Bytes := [71, 76, 83, 70, 1, 1, 0, 0, 0, 0, 0, 0, 0, 0, 255, 255, 255, 255, 1, 0,
      1, 0, 97, 1, 1, 0, 0, 0, 0, 0, 0, 0]
    (⟨24, .reserve .text 1 6⟩ ∈ (Frame.scan.run text .start).2.steps ∧
      ReadingStep.Inside text.length ⟨24, .reserve .text 1 6⟩ ∧ 4 * 1 ≤ text.length) ∧
    ((Frame.scan.run claimed .start).1 = .error (.refused .truncated) ∧
      ∀ position type available,
        ⟨position, .reserve type 4294967295 available⟩ ∉
          (Frame.scan.run claimed .start).2.steps) := by
  intro text claimed
  have hvector : (⟨24, .reserve .text 1 6⟩ : ReadingStep) ∈
      (Frame.scan.run text .start).2.steps := by decide +kernel
  have hlast {first second : Cursor} : second ∈ [first, second] :=
    List.mem_cons_of_mem first List.mem_cons_self
  obtain ⟨-, -, htext⟩ := Frame.scan_inside text
  obtain ⟨-, hdecode, hclaimed⟩ := Frame.scan_inside claimed
  obtain ⟨-, hsteps, hquarter⟩ := htext _ hlast
  obtain ⟨-, -, hsmall⟩ := hclaimed _ hlast
  refine ⟨⟨hvector, hsteps _ hvector, hquarter _ _ _ _ hvector⟩, ?_, ?_⟩
  · rw [hdecode]
    rfl
  · intro position type available hmem
    exact absurd (hsmall position type _ available hmem) (by decide)

end LiveLayout
