import LiveLayout.Proofs.Table.Push

/-!
# Selecting and joining

Selecting looks each name up and pushes what it finds, and joining pushes one table behind
another. Over well-formed tables neither fails when the names asked for are distinct and present,
or those joined are disjoint.
-/

namespace LiveLayout.Table

/-- A name is looked up on the left first. -/
theorem column?_append (left right : List (String × Column)) (rows rows' rows'' : Nat)
    (name : String) :
    (Table.mk (left ++ right) rows).column? name =
      ((Table.mk left rows').column? name).or ((Table.mk right rows'').column? name) := by
  simp only [column?, List.find?_append, Option.map_or]

theorem mem_of_column? {table : Table} {name : String} {column : Column}
    (h : table.column? name = some column) : (name, column) ∈ table.columns := by
  obtain ⟨entry, hfind, rfl⟩ := Option.map_eq_some_iff.mp h
  have hname : entry.1 = name := by simpa using List.find?_some hfind
  rw [← hname]
  exact List.mem_of_find?_eq_some hfind

theorem exists_column? {table : Table} {name : String} (h : name ∈ table.names) :
    ∃ column, table.column? name = some column :=
  Option.isSome_iff_exists.mp (column?_isSome_iff.mpr h)

theorem require_eq_ok_iff {table : Table} {name : String} {column : Column} :
    table.require name = .ok column ↔ table.column? name = some column := by
  unfold require
  cases table.column? name with
  | none => simp
  | some other => simp

/-- The named columns that a table has, in the order asked. -/
def picked (table : Table) (names : List String) : List (String × Column) :=
  names.filterMap fun name => (table.column? name).map fun column => (name, column)

theorem picked_cons {table : Table} {name : String} {column : Column} {names : List String}
    (h : table.column? name = some column) :
    table.picked (name :: names) = (name, column) :: table.picked names := by
  simp [picked, h]

/-- No name asked for is left out. -/
theorem map_fst_picked {table : Table} {names : List String}
    (h : ∀ name ∈ names, name ∈ table.names) : (table.picked names).map Prod.fst = names := by
  induction names with
  | nil => rfl
  | cons name rest ih =>
      obtain ⟨column, hcolumn⟩ := exists_column? (h name List.mem_cons_self)
      rw [picked_cons hcolumn, List.map_cons,
        ih fun other hother => h other (List.mem_cons_of_mem name hother)]

theorem map_fst_picked_sublist (table : Table) (names : List String) :
    ((table.picked names).map Prod.fst).Sublist names := by
  induction names with
  | nil => exact .slnil
  | cons name rest ih =>
      cases hcolumn : table.column? name with
      | none =>
          have hskip : table.picked (name :: rest) = table.picked rest := by
            simp [picked, hcolumn]
          rw [hskip]
          exact ih.cons name
      | some column =>
          rw [picked_cons hcolumn]
          exact ih.cons_cons name

/-- Exactly the names that were asked for are found among the picked columns as in the table. -/
theorem column?_picked (table : Table) (names : List String) (rows : Nat) (name : String) :
    (Table.mk (table.picked names) rows).column? name =
      if name ∈ names then table.column? name else none := by
  induction names with
  | nil => rfl
  | cons other rest ih =>
      cases hother : table.column? other with
      | none =>
          have hskip : table.picked (other :: rest) = table.picked rest := by
            simp [picked, hother]
          rw [hskip, ih]
          by_cases hname : name = other
          · subst hname
            simp [hother]
          · simp [hname]
      | some column =>
          rw [picked_cons hother]
          by_cases hname : name = other
          · subst hname
            rw [if_pos List.mem_cons_self, hother]
            simp [column?]
          · have hlater : (Table.mk ((other, column) :: table.picked rest) rows).column? name =
                (Table.mk (table.picked rest) rows).column? name := by
              simp [column?, Ne.symm hname]
            rw [hlater, ih]
            simp [hname]

theorem WellFormed.length_picked {table : Table} (h : table.WellFormed) (names : List String) :
    ∀ entry ∈ table.picked names, entry.2.length = table.rowCount := by
  intro entry hentry
  obtain ⟨name, -, hfound⟩ := List.mem_filterMap.mp hentry
  obtain ⟨column, hcolumn, rfl⟩ := Option.map_eq_some_iff.mp hfound
  exact h.length_eq _ (mem_of_column? hcolumn)

/-- Looking names up and pushing what is found pushes what the table has of them. -/
theorem foldlM_require {table : Table} {names : List String} (chosen : Table)
    (h : ∀ name ∈ names, name ∈ table.names) :
    names.foldlM (fun chosen name => do chosen.push name (← table.require name)) chosen =
      chosen.pushAll (table.picked names) := by
  induction names generalizing chosen with
  | nil => rfl
  | cons name rest ih =>
      obtain ⟨column, hcolumn⟩ := exists_column? (h name List.mem_cons_self)
      rw [List.foldlM_cons, require_eq_ok_iff.mpr hcolumn, ok_bind, picked_cons hcolumn,
        pushAll_cons]
      congr 1
      funext grown
      apply ih
      intro other hother
      exact h other (List.mem_cons_of_mem name hother)

/-- Distinct names that a table has are selected in the order asked, if their columns have a cell a
row. -/
theorem select_ok_of_lengths {table : Table} {names : List String}
    (hlengths : ∀ entry ∈ table.picked names, entry.2.length = table.rowCount)
    (hnodup : names.Nodup) (hnames : ∀ name ∈ names, name ∈ table.names) :
    table.select names = .ok ⟨table.picked names, table.rowCount⟩ := by
  have hadmits : empty.Admits table.rowCount := Or.inl rfl
  have hpush := pushAll_of_nodup empty hadmits hlengths (by rwa [map_fst_picked hnames])
  rw [select, foldlM_require empty hnames, hpush, ok_bind]
  cases names with
  | nil => rfl
  | cons name rest =>
      obtain ⟨column, hcolumn⟩ := exists_column? (hnames name List.mem_cons_self)
      rw [picked_cons hcolumn]
      rfl

theorem select_ok {table : Table} (hwell : table.WellFormed) {names : List String}
    (hnodup : names.Nodup) (hnames : ∀ name ∈ names, name ∈ table.names) :
    table.select names = .ok ⟨table.picked names, table.rowCount⟩ :=
  select_ok_of_lengths (hwell.length_picked names) hnodup hnames

/-- Tables of as many rows and with different names are joined column by column. -/
theorem join_ok {left right : Table} (hleft : left.names.Nodup) (hright : right.WellFormed)
    (hrows : left.rowCount = right.rowCount) (hdisjoint : left.names.Disjoint right.names) :
    left.join right = .ok ⟨left.columns ++ right.columns, left.rowCount⟩ := by
  have hadmits : left.Admits right.rowCount := Or.inr hrows
  have hpush := pushAll_of_nodup left hadmits hright.length_eq
    (List.nodup_append'.mpr ⟨hleft, hright.names_nodup, hdisjoint⟩)
  have hsame : (!left.columns.isEmpty && !right.columns.isEmpty &&
      left.rowCount != right.rowCount) = false := by simp [hrows]
  rw [join, if_neg (by rw [hsame]; decide), hpush, ← hrows, ite_self]

theorem WellFormed.append {left right : Table} (hleft : left.WellFormed)
    (hright : right.WellFormed) (hrows : left.rowCount = right.rowCount)
    (hdisjoint : left.names.Disjoint right.names) :
    (Table.mk (left.columns ++ right.columns) left.rowCount).WellFormed := by
  constructor
  · rw [names_mk, List.map_append]
    exact List.nodup_append'.mpr ⟨hleft.names_nodup, hright.names_nodup, hdisjoint⟩
  · intro entry hentry
    rcases List.mem_append.mp hentry with h | h
    · exact hleft.length_eq entry h
    · exact (hright.length_eq entry h).trans hrows.symm

end LiveLayout.Table
