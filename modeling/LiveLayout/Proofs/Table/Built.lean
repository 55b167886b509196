import LiveLayout.Proofs.Table.Select
import LiveLayout.Proofs.Wire.Frame

/-!
# Tables that can be made

Tables are made from the empty one by pushing, selecting and joining, or are read off a frame. Each
of these looks after the number of rows in its own way. What they make are nevertheless exactly the
well-formed tables.
-/

namespace LiveLayout.Table

section Pushing

variable {table grown : Table} {name : String} {column : Column}

theorem exists_push_error_iff :
    (∃ error, table.push name column = .error error) ↔
      name ∈ table.names ∨ table.columns ≠ [] ∧ column.length ≠ table.rowCount := by
  have herror : (∃ error, table.push name column = .error error) ↔
      ¬ ∃ grown, table.push name column = .ok grown := by
    cases table.push name column with
    | error error => simp
    | ok grown => simp
  simp only [herror, push_eq_ok_iff, exists_and_left, exists_eq, and_true, Admits,
    eq_comm (a := table.rowCount)]
  tauto

/-- Pushes a column onto a table that is held. Its fields are written one after another, behind both
checks. -/
def pushHeld (name : String) (column : Column) : EStateM SchemaError Table Unit := do
  let held ← get
  if (held.column? name).isSome then throw (.duplicateColumn name)
  if !held.columns.isEmpty && column.length != held.rowCount then
    throw (.columnLength name column.length held.rowCount)
  modify fun table => { table with rowCount := column.length }
  modify fun table => { table with columns := table.columns ++ [(name, column)] }

/-- A table that is held has grown behind a push, and is as it was behind one that failed. -/
theorem run_pushHeld (table : Table) (name : String) (column : Column) :
    (pushHeld name column).run table = heldBehind table (table.push name column) := by
  by_cases htaken : (table.column? name).isSome
  · simp [pushHeld, push, heldBehind, htaken]
  by_cases hfits : ¬ table.columns = [] ∧ ¬ column.length = table.rowCount
  · simp [pushHeld, push, heldBehind, htaken, hfits]
  · simp [pushHeld, push, heldBehind, htaken, hfits]

end Pushing

section Keeping

theorem wellFormed_of_withRowCount {table counted : Table} {rows : Nat}
    (h : table.withRowCount rows = .ok counted) : counted.WellFormed := by
  unfold withRowCount at h
  split_ifs at h
  obtain rfl := Except.ok.inj h
  exact ⟨List.nodup_nil, List.forall_mem_nil _⟩

theorem wellFormed_of_select {table chosen : Table} {names : List String}
    (h : table.select names = .ok chosen) : chosen.WellFormed := by
  obtain ⟨last, hlast, h⟩ := bind_eq_ok_iff.mp h
  split_ifs at h
  · exact wellFormed_of_withRowCount h
  · obtain rfl := pure_eq_ok_iff.mp h
    refine foldlM_invariant (fun hwell hnext => ?_) wellFormed_empty hlast
    obtain ⟨_, -, hpush⟩ := bind_eq_ok_iff.mp hnext
    exact hwell.push hpush

theorem WellFormed.join {left right joined : Table} (hleft : left.WellFormed)
    (h : left.join right = .ok joined) : joined.WellFormed := by
  unfold Table.join at h
  split_ifs at h
  exact hleft.pushAll h

end Keeping

/-- The tables that are made from the empty one, each from tables made before, or are read off a
frame. -/
inductive Built : Table → Prop where
  | empty : Built empty
  | held {table grown : Table} {name : String} {column : Column} (built : Built table)
      (h : (pushHeld name column).run table = .ok () grown) : Built grown
  | refused {table left : Table} {name : String} {column : Column} {error : SchemaError}
      (built : Built table) (h : (pushHeld name column).run table = .error error left) : Built left
  | pushed {table grown : Table} {name : String} {column : Column} (built : Built table)
      (h : table.push name column = .ok grown) : Built grown
  | selected {table chosen : Table} {names : List String} (built : Built table)
      (h : table.select names = .ok chosen) : Built chosen
  | joined {left right joined : Table} (builtLeft : Built left) (builtRight : Built right)
      (h : left.join right = .ok joined) : Built joined
  | decoded {wire : Bytes} {frame : Frame} (h : Frame.decode wire = .ok frame) :
      Built frame.table

theorem Built.wellFormed {table : Table} (h : Built table) : table.WellFormed := by
  induction h with
  | empty => exact wellFormed_empty
  | held _ h ih =>
      rw [run_pushHeld, heldBehind_eq_ok_iff] at h
      exact ih.push h
  | refused _ h ih =>
      rw [run_pushHeld, heldBehind_eq_error_iff] at h
      exact h.2 ▸ ih
  | pushed _ h ih => exact ih.push h
  | selected _ h _ => exact wellFormed_of_select h
  | joined _ _ h ih _ => exact ih.join h
  | decoded h => exact (Frame.encode_of_decode h).2

theorem Built.pushAll {table grown : Table} {columns : List (String × Column)}
    (hbuilt : Built table) (h : table.pushAll columns = .ok grown) : Built grown :=
  foldlM_invariant Built.pushed hbuilt h

/-- Rows without columns are left of a table from which nothing was selected. -/
theorem built_rows (rows : Nat) : Built ⟨[], rows⟩ := by
  have hpush : empty.push "" (.int (List.replicate rows 0)) =
      .ok ⟨[("", .int (List.replicate rows 0))], rows⟩ := by
    refine push_eq_ok_iff.mpr ⟨List.not_mem_nil, Or.inl rfl, ?_⟩
    simp [empty, Column.length]
  have hbuilt : Built ⟨[("", .int (List.replicate rows 0))], rows⟩ :=
    Built.empty.pushed hpush
  have hselect : (Table.mk [("", .int (List.replicate rows 0))] rows).select [] =
      .ok ⟨[], rows⟩ := rfl
  exact hbuilt.selected hselect

theorem WellFormed.built {table : Table} (h : table.WellFormed) : Built table := by
  by_cases hcolumns : table.columns = []
  · have hrows := built_rows table.rowCount
    rw [← hcolumns] at hrows
    exact hrows
  · have hpush : empty.pushAll table.columns = .ok table := by
      apply (pushAll_empty_eq_ok_iff h.length_eq).mpr
      refine ⟨h.names_nodup, ?_⟩
      rw [if_neg hcolumns]
    exact Built.empty.pushAll hpush

/-- The tables that can be made, or read off a frame, are exactly those with distinct names and with
a cell for each row in every column. A push fails exactly if the name is there already, or there are
columns and their number of rows is another; the table it was to grow is then as it was. -/
theorem built_iff_wellFormed :
    (∀ table : Table, Built table ↔ table.WellFormed) ∧
    ∀ (table : Table) (name : String) (column : Column),
      ((∃ error, table.push name column = .error error) ↔
        name ∈ table.names ∨ table.columns ≠ [] ∧ column.length ≠ table.rowCount) ∧
      ∀ error, table.push name column = .error error →
        (pushHeld name column).run table = .error error table := by
  refine ⟨fun table => ⟨Built.wellFormed, WellFormed.built⟩, fun table name column => ?_⟩
  refine ⟨exists_push_error_iff, fun error herror => ?_⟩
  exact (run_pushHeld table name column).trans (heldBehind_eq_error_iff.mpr ⟨herror, rfl⟩)

/-- A column of one cell does not fit beside one of two. -/
theorem built_iff_wellFormed_refused :
    Built ⟨[("a", .int [1, 2])], 2⟩ ∧
    (pushHeld "b" (.int [1])).run ⟨[("a", .int [1, 2])], 2⟩ =
      .error (.columnLength "b" 1 2) ⟨[("a", .int [1, 2])], 2⟩ := by
  have hwell : WellFormed ⟨[("a", .int [1, 2])], 2⟩ :=
    ⟨List.nodup_singleton _, List.forall_mem_singleton.mpr rfl⟩
  obtain ⟨hbuilt, hpush⟩ := built_iff_wellFormed
  obtain ⟨-, hunchanged⟩ := hpush ⟨[("a", .int [1, 2])], 2⟩ "b" (.int [1])
  exact ⟨(hbuilt _).mpr hwell, hunchanged _ rfl⟩

end LiveLayout.Table
