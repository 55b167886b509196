import LiveLayout.Proofs.Outcome
import LiveLayout.Table.Basic

/-!
# Pushing columns

A column is pushed when its name is new and its length fits, so a list of equally long columns is
pushed as a whole exactly when no name repeats. The first name that does is the one refused.
-/

namespace LiveLayout.Table

@[simp] theorem names_mk (columns : List (String × Column)) (rows : Nat) :
    (Table.mk columns rows).names = columns.map Prod.fst := rfl

theorem column?_isSome_iff {table : Table} {name : String} :
    (table.column? name).isSome ↔ name ∈ table.names := by
  simp [column?, names]

theorem column?_eq_none_iff {table : Table} {name : String} :
    table.column? name = none ↔ name ∉ table.names := by
  rw [← column?_isSome_iff, Option.not_isSome_iff_eq_none]

/-- A table has no columns, or its columns have the given length. -/
def Admits (table : Table) (rows : Nat) : Prop := table.columns = [] ∨ table.rowCount = rows

theorem push_eq {table : Table} {name : String} {column : Column}
    (h : table.Admits column.length) :
    table.push name column =
      if name ∈ table.names then .error (.duplicateColumn name)
      else .ok ⟨table.columns ++ [(name, column)], column.length⟩ := by
  have hfits : (!table.columns.isEmpty && column.length != table.rowCount) = false := by
    rcases h with h | h
    · simp [h]
    · simp [h]
  simp only [push, column?_isSome_iff, hfits, Bool.false_eq_true, if_false]

/-- A push goes through exactly when the name is new and the length fits. -/
theorem push_eq_ok_iff {table grown : Table} {name : String} {column : Column} :
    table.push name column = .ok grown ↔
      name ∉ table.names ∧ table.Admits column.length ∧
        grown = ⟨table.columns ++ [(name, column)], column.length⟩ := by
  by_cases hadmits : table.Admits column.length
  · rw [push_eq hadmits]
    by_cases hname : name ∈ table.names
    · simp [hname]
    · simp [hname, hadmits, eq_comm]
  · obtain ⟨hcolumns, hlength⟩ := not_or.mp hadmits
    have hfits : (!table.columns.isEmpty && column.length != table.rowCount) = true := by
      simp [hcolumns, Ne.symm hlength]
    rw [push, if_pos hfits]
    split_ifs <;> simp [hadmits]

theorem pushAll_nil (table : Table) : table.pushAll [] = .ok table := rfl

theorem pushAll_cons (table : Table) (entry : String × Column) (rest : List (String × Column)) :
    table.pushAll (entry :: rest) =
      table.push entry.1 entry.2 >>= fun grown => grown.pushAll rest := rfl

theorem pushAll_append (table : Table) (left right : List (String × Column)) :
    table.pushAll (left ++ right) = table.pushAll left >>= fun grown => grown.pushAll right :=
  List.foldlM_append

/-- Columns of one length and with new, distinct names are pushed one behind another. -/
theorem pushAll_of_nodup (table : Table) {columns : List (String × Column)} {rows : Nat}
    (hadmits : table.Admits rows) (hlength : ∀ entry ∈ columns, entry.2.length = rows)
    (hnodup : (table.names ++ columns.map Prod.fst).Nodup) :
    table.pushAll columns =
      .ok ⟨table.columns ++ columns, if columns = [] then table.rowCount else rows⟩ := by
  induction columns generalizing table with
  | nil => simp [pushAll_nil]
  | cons entry rest ih =>
      have hentry : entry.2.length = rows := hlength entry List.mem_cons_self
      have hnew : entry.1 ∉ table.names := by
        intro hmem
        exact (List.disjoint_of_nodup_append hnodup) hmem List.mem_cons_self
      rw [pushAll_cons, push_eq (hentry ▸ hadmits), if_neg hnew, ok_bind, ih]
      · simp [hentry]
      · exact Or.inr hentry
      · intro other hother
        exact hlength other (List.mem_cons_of_mem entry hother)
      · simpa [names] using hnodup

/-- A column whose name is taken by one of those before it is refused. -/
theorem pushAll_of_repeat (table : Table) {before after : List (String × Column)}
    {entry : String × Column} {rows : Nat}
    (hadmits : table.Admits rows) (hlength : ∀ other ∈ before, other.2.length = rows)
    (hentry : entry.2.length = rows)
    (hnodup : (table.names ++ before.map Prod.fst).Nodup)
    (hrepeat : entry.1 ∈ table.names ++ before.map Prod.fst) :
    table.pushAll (before ++ entry :: after) = .error (.duplicateColumn entry.1) := by
  have hadmits' : Admits ⟨table.columns ++ before, if before = [] then table.rowCount else rows⟩
      entry.2.length := by
    rcases hadmits with h | h
    · by_cases hbefore : before = []
      · exact Or.inl (by rw [h, hbefore]; rfl)
      · exact Or.inr (by simp [hbefore, hentry])
    · exact Or.inr (by simp [h, hentry])
  have hname : entry.1 ∈ (Table.mk (table.columns ++ before)
      (if before = [] then table.rowCount else rows)).names := by
    rw [names_mk, List.map_append]
    exact hrepeat
  rw [pushAll_append, pushAll_of_nodup table hadmits hlength hnodup, ok_bind, pushAll_cons,
    push_eq hadmits', if_pos hname, error_bind]

/-- Where names repeat, one of them is the first to do so. -/
theorem exists_first_repeat {columns : List (String × Column)}
    (h : ¬ (columns.map Prod.fst).Nodup) :
    ∃ before entry after, columns = before ++ entry :: after ∧
      (before.map Prod.fst).Nodup ∧ entry.1 ∈ before.map Prod.fst := by
  induction columns using List.reverseRecOn with
  | nil => simp at h
  | append_singleton before entry ih =>
      by_cases hbefore : (before.map Prod.fst).Nodup
      · refine ⟨before, entry, [], rfl, hbefore, ?_⟩
        by_contra hnew
        apply h
        rw [List.map_append, List.map_singleton]
        exact List.nodup_append'.mpr ⟨hbefore, List.nodup_singleton _, by simpa using hnew⟩
      · obtain ⟨front, first, after, rfl, hfront⟩ := ih hbefore
        exact ⟨front, first, after ++ [entry], by simp, hfront⟩

section Keeping

variable {table grown : Table} {columns : List (String × Column)} {rows : Nat}

theorem wellFormed_empty : empty.WellFormed := ⟨List.nodup_nil, List.forall_mem_nil _⟩

theorem WellFormed.push {name : String} {column : Column} (hwell : table.WellFormed)
    (h : table.push name column = .ok grown) : grown.WellFormed := by
  obtain ⟨hname, hadmits, rfl⟩ := push_eq_ok_iff.mp h
  constructor
  · rw [names_mk, List.map_append]
    apply List.nodup_append'.mpr
    refine ⟨hwell.names_nodup, List.nodup_singleton _, ?_⟩
    exact List.disjoint_singleton.mpr hname
  · intro entry hentry
    rcases List.mem_append.mp hentry with hold | hnew
    · -- A table with columns has their number of rows already, so that number stays.
      have hcolumns : table.columns ≠ [] := List.ne_nil_of_mem hold
      exact (hwell.length_eq entry hold).trans (hadmits.resolve_left hcolumns)
    · rw [List.mem_singleton.mp hnew]

theorem WellFormed.pushAll (hwell : table.WellFormed) (h : table.pushAll columns = .ok grown) :
    grown.WellFormed :=
  foldlM_invariant WellFormed.push hwell h

theorem columns_of_pushAll (h : table.pushAll columns = .ok grown) :
    grown.columns = table.columns ++ columns := by
  induction columns generalizing table with
  | nil =>
      obtain rfl := Except.ok.inj h
      rw [List.append_nil]
  | cons entry rest ih =>
      obtain ⟨next, hnext, hrest⟩ := bind_eq_ok_iff.mp h
      obtain ⟨-, -, rfl⟩ := push_eq_ok_iff.mp hnext
      rw [ih hrest, List.append_assoc, List.singleton_append]

/-- Columns of one length go behind those of a table exactly when no name occurs twice. -/
theorem WellFormed.pushAll_eq_ok_iff (hwell : table.WellFormed) (hadmits : table.Admits rows)
    (hlength : ∀ entry ∈ columns, entry.2.length = rows) :
    table.pushAll columns = .ok grown ↔
      (table.names ++ columns.map Prod.fst).Nodup ∧
        grown = ⟨table.columns ++ columns, if columns = [] then table.rowCount else rows⟩ := by
  constructor
  · intro h
    have hnodup : (table.names ++ columns.map Prod.fst).Nodup := by
      have hgrown := (hwell.pushAll h).names_nodup
      rwa [names, columns_of_pushAll h, List.map_append] at hgrown
    rw [pushAll_of_nodup table hadmits hlength hnodup] at h
    exact ⟨hnodup, (Except.ok.inj h).symm⟩
  · rintro ⟨hnodup, rfl⟩
    exact pushAll_of_nodup table hadmits hlength hnodup

/-- Columns of one length make a table exactly when their names differ. -/
theorem pushAll_empty_eq_ok_iff (hlength : ∀ entry ∈ columns, entry.2.length = rows) :
    empty.pushAll columns = .ok grown ↔
      (columns.map Prod.fst).Nodup ∧ grown = ⟨columns, if columns = [] then 0 else rows⟩ := by
  have hadmits : empty.Admits rows := Or.inl rfl
  exact wellFormed_empty.pushAll_eq_ok_iff hadmits hlength

end Keeping

end LiveLayout.Table
