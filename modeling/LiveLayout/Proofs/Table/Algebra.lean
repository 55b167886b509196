import LiveLayout.Proofs.Table.Built

/-!
# Laws of selecting and joining

Selecting and joining go through columns one by one and may stop at any of them. Over well-formed
tables each comes down to a condition on names and numbers of rows, and to a table that is written
down at once. Both then obey the laws of lists: a selection is the join of its parts, a selection
from a selection is one from the table itself, and joins may be bracketed either way.
-/

namespace LiveLayout.Table

section Selecting

variable {table chosen : Table} {names : List String}

/-- A selection goes through exactly when the names differ and the table has them all. -/
theorem WellFormed.select_eq_ok_iff (hwell : table.WellFormed) :
    table.select names = .ok chosen ↔
      names.Nodup ∧ (∀ name ∈ names, name ∈ table.names) ∧
        chosen = ⟨table.picked names, table.rowCount⟩ := by
  constructor
  · intro h
    obtain ⟨last, hlast, -⟩ := bind_eq_ok_iff.mp h
    have hknown : ∀ name ∈ names, name ∈ table.names := by
      intro name hname
      obtain ⟨_, _, hstep⟩ := exists_step_of_foldlM hlast name hname
      obtain ⟨column, hcolumn, -⟩ := bind_eq_ok_iff.mp hstep
      apply column?_isSome_iff.mp
      exact Option.isSome_of_eq_some (require_eq_ok_iff.mp hcolumn)
    have hnodup : names.Nodup := by
      rw [foldlM_require empty hknown] at hlast
      obtain ⟨hpicked, -⟩ := (pushAll_empty_eq_ok_iff (hwell.length_picked names)).mp hlast
      rwa [map_fst_picked hknown] at hpicked
    rw [select_ok hwell hnodup hknown] at h
    exact ⟨hnodup, hknown, (Except.ok.inj h).symm⟩
  · rintro ⟨hnodup, hknown, rfl⟩
    exact select_ok hwell hnodup hknown

/-- Only the columns of the names asked for, and the number of rows, bear on a selection. -/
theorem select_congr {other : Table} (hrows : other.rowCount = table.rowCount)
    (hcolumns : ∀ name ∈ names, other.column? name = table.column? name) :
    other.select names = table.select names := by
  have hfold : ∀ chosen : Table,
      names.foldlM (fun chosen name => do chosen.push name (← other.require name)) chosen =
        names.foldlM (fun chosen name => do chosen.push name (← table.require name)) chosen := by
    induction names with
    | nil => exact fun _ => rfl
    | cons name rest ih =>
        obtain ⟨hname, hrest⟩ := List.forall_mem_cons.mp hcolumns
        intro chosen
        rw [List.foldlM_cons, List.foldlM_cons, require, require, hname]
        apply bind_congr
        exact ih hrest
  rw [select, select, hfold, hrows]

end Selecting

/-- The columns of two tables side by side. Those on the right, if any, tell the number of rows. -/
def beside (left right : Table) : Table :=
  ⟨left.columns ++ right.columns, if right.columns = [] then left.rowCount else right.rowCount⟩

/-- No name occurs twice in the tables, and those of them that have columns have as many rows. -/
structure Joinable (tables : List Table) : Prop where
  names_nodup : (tables.flatMap names).Nodup
  rows_agree : ∃ rows, ∀ table ∈ tables, table.Admits rows

section Joining

variable {left middle right joined : Table} {rows : Nat}

theorem names_beside (left right : Table) :
    (left.beside right).names = left.names ++ right.names := List.map_append

theorem beside_assoc (left middle right : Table) :
    (left.beside middle).beside right = left.beside (middle.beside right) := by
  by_cases hright : right.columns = []
  · simp [beside, hright]
  · simp [beside, hright]

theorem Admits.beside (hleft : left.Admits rows) (hright : right.Admits rows) :
    (left.beside right).Admits rows := by
  by_cases hcolumns : right.columns = []
  · simpa [Admits, Table.beside, hcolumns] using hleft
  · exact Or.inr (by simp [Table.beside, hcolumns, hright.resolve_left hcolumns])

/-- Tables that agree in their rows have, side by side, the number of rows that both have. -/
theorem admits_beside_iff (hagree : ∃ other, left.Admits other ∧ right.Admits other) :
    (left.beside right).Admits rows ↔ left.Admits rows ∧ right.Admits rows := by
  constructor
  · intro h
    obtain ⟨other, hleft, hright⟩ := hagree
    by_cases hnone : left.columns ++ right.columns = []
    · obtain ⟨hnoLeft, hnoRight⟩ := List.append_eq_nil_iff.mp hnone
      exact ⟨Or.inl hnoLeft, Or.inl hnoRight⟩
    · -- Whichever side has columns has told this number of rows.
      have hrows : other = rows :=
        ((hleft.beside hright).resolve_left hnone).symm.trans (h.resolve_left hnone)
      exact ⟨hrows ▸ hleft, hrows ▸ hright⟩
  · rintro ⟨hleft, hright⟩
    exact hleft.beside hright

theorem joinable_pair_iff :
    Joinable [left, right] ↔
      (left.names ++ right.names).Nodup ∧ ∃ rows, left.Admits rows ∧ right.Admits rows := by
  constructor
  · rintro ⟨hnodup, rows, hrows⟩
    simp only [List.forall_mem_cons] at hrows
    exact ⟨by simpa using hnodup, rows, hrows.1, hrows.2.1⟩
  · rintro ⟨hnodup, rows, hleft, hright⟩
    exact ⟨by simpa using hnodup, rows, by simp [hleft, hright]⟩

/-- Among other tables, two that are joined stand for both of them. -/
theorem joinable_beside_iff (before after : List Table) :
    Joinable (before ++ left.beside right :: after) ∧ Joinable [left, right] ↔
      Joinable (before ++ left :: right :: after) := by
  have hnames : (before ++ left.beside right :: after).flatMap names =
      (before ++ left :: right :: after).flatMap names := by
    simp [names_beside]
  have hadmits : ∀ rows, (∃ other, left.Admits other ∧ right.Admits other) →
      ((∀ table ∈ before ++ left.beside right :: after, table.Admits rows) ↔
        ∀ table ∈ before ++ left :: right :: after, table.Admits rows) := by
    intro rows hagree
    simp only [List.forall_mem_append, List.forall_mem_cons, admits_beside_iff hagree, and_assoc]
  constructor
  · rintro ⟨⟨hnodup, rows, hrows⟩, hpair⟩
    obtain ⟨-, hagree⟩ := joinable_pair_iff.mp hpair
    exact ⟨hnames ▸ hnodup, rows, (hadmits rows hagree).mp hrows⟩
  · rintro ⟨hnodup, rows, hrows⟩
    have hsublist : [left, right].Sublist (before ++ left :: right :: after) :=
      (List.sublist_append_left [left, right] after).trans (List.sublist_append_right before _)
    have hpair : Joinable [left, right] :=
      ⟨hnodup.sublist (hsublist.flatMap names), rows,
        fun table htable => hrows table (hsublist.subset htable)⟩
    obtain ⟨-, hagree⟩ := joinable_pair_iff.mp hpair
    exact ⟨⟨hnames ▸ hnodup, rows, (hadmits rows hagree).mpr hrows⟩, hpair⟩

theorem rows_agree_iff :
    (∃ rows, left.Admits rows ∧ right.Admits rows) ↔
      left.columns = [] ∨ right.columns = [] ∨ left.rowCount = right.rowCount := by
  constructor
  · rintro ⟨rows, hleft | hleft, hright | hright⟩
    · exact Or.inl hleft
    · exact Or.inl hleft
    · exact Or.inr (Or.inl hright)
    · exact Or.inr (Or.inr (hleft.trans hright.symm))
  · rintro (h | h | h)
    · exact ⟨right.rowCount, Or.inl h, Or.inr rfl⟩
    · exact ⟨left.rowCount, Or.inr rfl, Or.inl h⟩
    · exact ⟨right.rowCount, Or.inr h, Or.inr rfl⟩

/-- A join goes through exactly when the names differ and the rows agree. -/
theorem WellFormed.join_eq_ok_iff (hleft : left.WellFormed) (hright : right.WellFormed) :
    left.join right = .ok joined ↔ Joinable [left, right] ∧ joined = left.beside right := by
  have hcheck : (!left.columns.isEmpty && !right.columns.isEmpty &&
      left.rowCount != right.rowCount) = true ↔
        ¬ ∃ rows, left.Admits rows ∧ right.Admits rows := by
    rw [rows_agree_iff]
    simp [and_assoc]
  rw [joinable_pair_iff, Table.join]
  by_cases hagree : ∃ rows, left.Admits rows ∧ right.Admits rows
  · rw [if_neg (fun hrefused => hcheck.mp hrefused hagree)]
    obtain ⟨rows, hadmitsLeft, hadmitsRight⟩ := id hagree
    have hlength : ∀ entry ∈ right.columns, entry.2.length = rows := by
      intro entry hentry
      have hcolumns : right.columns ≠ [] := List.ne_nil_of_mem hentry
      exact (hright.length_eq entry hentry).trans (hadmitsRight.resolve_left hcolumns)
    have hbeside : left.beside right =
        ⟨left.columns ++ right.columns, if right.columns = [] then left.rowCount else rows⟩ := by
      by_cases hcolumns : right.columns = []
      · simp [Table.beside, hcolumns]
      · simp [Table.beside, hcolumns, hadmitsRight.resolve_left hcolumns]
    rw [hleft.pushAll_eq_ok_iff hadmitsLeft hlength, hbeside, and_iff_left hagree]
    rfl
  · rw [if_pos (hcheck.mpr hagree)]
    simp [hagree]

theorem WellFormed.beside (hleft : left.WellFormed) (hright : right.WellFormed)
    (hjoinable : Joinable [left, right]) : (left.beside right).WellFormed :=
  hleft.join ((hleft.join_eq_ok_iff hright).mpr ⟨hjoinable, rfl⟩)

/-- Joining from the left goes through exactly when the three tables can be joined. -/
theorem WellFormed.join_join_eq_ok_iff (hleft : left.WellFormed) (hmiddle : middle.WellFormed)
    (hright : right.WellFormed) :
    (∃ pair, left.join middle = .ok pair ∧ pair.join right = .ok joined) ↔
      Joinable [left, middle, right] ∧ joined = left.beside (middle.beside right) := by
  have hsplit : Joinable [left.beside middle, right] ∧ Joinable [left, middle] ↔
      Joinable [left, middle, right] := joinable_beside_iff [] [right]
  rw [← hsplit, ← beside_assoc]
  constructor
  · rintro ⟨pair, hpair, hjoined⟩
    obtain ⟨hjoinable, rfl⟩ := (hleft.join_eq_ok_iff hmiddle).mp hpair
    obtain ⟨hboth, rfl⟩ := ((hleft.beside hmiddle hjoinable).join_eq_ok_iff hright).mp hjoined
    exact ⟨⟨hboth, hjoinable⟩, rfl⟩
  · rintro ⟨⟨hboth, hjoinable⟩, rfl⟩
    exact ⟨left.beside middle, (hleft.join_eq_ok_iff hmiddle).mpr ⟨hjoinable, rfl⟩,
      ((hleft.beside hmiddle hjoinable).join_eq_ok_iff hright).mpr ⟨hboth, rfl⟩⟩

/-- Joining from the right goes through exactly when the three tables can be joined. -/
theorem WellFormed.join_of_join_eq_ok_iff (hleft : left.WellFormed) (hmiddle : middle.WellFormed)
    (hright : right.WellFormed) :
    (∃ pair, middle.join right = .ok pair ∧ left.join pair = .ok joined) ↔
      Joinable [left, middle, right] ∧ joined = left.beside (middle.beside right) := by
  have hsplit : Joinable [left, middle.beside right] ∧ Joinable [middle, right] ↔
      Joinable [left, middle, right] := joinable_beside_iff [left] []
  rw [← hsplit]
  constructor
  · rintro ⟨pair, hpair, hjoined⟩
    obtain ⟨hjoinable, rfl⟩ := (hmiddle.join_eq_ok_iff hright).mp hpair
    obtain ⟨hboth, rfl⟩ := (hleft.join_eq_ok_iff (hmiddle.beside hright hjoinable)).mp hjoined
    exact ⟨⟨hboth, hjoinable⟩, rfl⟩
  · rintro ⟨⟨hboth, hjoinable⟩, rfl⟩
    exact ⟨middle.beside right, (hmiddle.join_eq_ok_iff hright).mpr ⟨hjoinable, rfl⟩,
      (hleft.join_eq_ok_iff (hmiddle.beside hright hjoinable)).mpr ⟨hboth, rfl⟩⟩

/-- Joins may be bracketed either way: both ways go through or fail together and give one table. They
go through exactly when no name occurs twice in the three tables and those of them that have columns
have as many rows. -/
theorem joins_associate {left middle right : Table} (hleft : left.WellFormed)
    (hmiddle : middle.WellFormed) (hright : right.WellFormed) :
    (∀ joined, (∃ pair, left.join middle = .ok pair ∧ pair.join right = .ok joined) ↔
      ∃ pair, middle.join right = .ok pair ∧ left.join pair = .ok joined) ∧
    ((∃ joined pair, left.join middle = .ok pair ∧ pair.join right = .ok joined) ↔
      (left.names ++ middle.names ++ right.names).Nodup ∧
        ∃ rows, ∀ table ∈ [left, middle, right], table.columns ≠ [] → table.rowCount = rows) := by
  constructor
  · intro joined
    rw [hleft.join_join_eq_ok_iff hmiddle hright, hleft.join_of_join_eq_ok_iff hmiddle hright]
  · simp only [hleft.join_join_eq_ok_iff hmiddle hright, exists_and_left, exists_eq, and_true]
    constructor
    · rintro ⟨hnodup, rows, hrows⟩
      refine ⟨by simpa using hnodup, rows, ?_⟩
      intro table htable hcolumns
      exact (hrows table htable).resolve_left hcolumns
    · rintro ⟨hnodup, rows, hrows⟩
      refine ⟨by simpa using hnodup, rows, ?_⟩
      intro table htable
      exact or_iff_not_imp_left.mpr (hrows table htable)

/-- Rows without columns are joined in front of a table, behind one and between two of them, whose
names must still differ. -/
theorem joins_associate_rows :
    (∃ pair, Table.join ⟨[("a", .int [1, 2])], 2⟩ ⟨[], 5⟩ = .ok pair ∧
      Table.join ⟨[], 7⟩ pair = .ok ⟨[("a", .int [1, 2])], 2⟩) ∧
    ¬ ∃ joined pair, Table.join ⟨[("a", .int [1, 2])], 2⟩ ⟨[], 7⟩ = .ok pair ∧
      pair.join ⟨[("a", .int [3, 4])], 2⟩ = .ok joined := by
  have hrows : ∀ rows, (Table.mk [] rows).WellFormed := fun rows =>
    ⟨List.nodup_nil, List.forall_mem_nil _⟩
  have hleft : (Table.mk [("a", .int [1, 2])] 2).WellFormed := ⟨by decide, by decide⟩
  have hright : (Table.mk [("a", .int [3, 4])] 2).WellFormed := ⟨by decide, by decide⟩
  obtain ⟨hassoc, -⟩ := joins_associate (hrows 7) hleft (hrows 5)
  obtain ⟨-, hjoins⟩ := joins_associate hleft (hrows 7) hright
  constructor
  · exact (hassoc _).mp ⟨_, rfl, rfl⟩
  · intro h
    obtain ⟨hnodup, -⟩ := hjoins.mp h
    exact absurd hnodup (by decide)

end Joining

section Parts

variable {table chosen : Table} {front back : List String}

theorem beside_picked (table : Table) (front back : List String) :
    (Table.mk (table.picked front) table.rowCount).beside
        (Table.mk (table.picked back) table.rowCount) =
      ⟨table.picked (front ++ back), table.rowCount⟩ := by
  simp [beside, picked, List.filterMap_append]

/-- Two selections from a table can be joined exactly when they share no name. -/
theorem WellFormed.join_picked_eq_ok_iff (hwell : table.WellFormed) (hfront : front.Nodup)
    (hback : back.Nodup) (hknown : ∀ name ∈ front ++ back, name ∈ table.names) :
    (Table.mk (table.picked front) table.rowCount).join
        (Table.mk (table.picked back) table.rowCount) = .ok chosen ↔
      (front ++ back).Nodup ∧ chosen = ⟨table.picked (front ++ back), table.rowCount⟩ := by
  obtain ⟨hfrontKnown, hbackKnown⟩ := List.forall_mem_append.mp hknown
  have hleft := wellFormed_of_select (select_ok hwell hfront hfrontKnown)
  have hright := wellFormed_of_select (select_ok hwell hback hbackKnown)
  have hagree : ∃ rows, (Table.mk (table.picked front) table.rowCount).Admits rows ∧
      (Table.mk (table.picked back) table.rowCount).Admits rows :=
    ⟨table.rowCount, Or.inr rfl, Or.inr rfl⟩
  rw [hleft.join_eq_ok_iff hright, joinable_pair_iff, names_mk, names_mk,
    map_fst_picked hfrontKnown, map_fst_picked hbackKnown, beside_picked, and_iff_left hagree]

/-- Selecting two lists of names one behind the other gives what selecting each of them and joining
gives, and fails when a selection or the join of both does. Selecting names that were selected
before gives, or refuses, what selecting them from the table itself does. -/
theorem selections_compose (hwell : table.WellFormed) (front back : List String) :
    (∀ chosen, table.select (front ++ back) = .ok chosen ↔
      ∃ left right, table.select front = .ok left ∧ table.select back = .ok right ∧
        left.join right = .ok chosen) ∧
    ∀ chosen, table.select front = .ok chosen → (∀ name ∈ back, name ∈ front) →
      chosen.select back = table.select back := by
  constructor
  · intro chosen
    constructor
    · intro h
      obtain ⟨hnodup, hknown, rfl⟩ := hwell.select_eq_ok_iff.mp h
      obtain ⟨hfront, hback, -⟩ := List.nodup_append'.mp hnodup
      obtain ⟨hfrontKnown, hbackKnown⟩ := List.forall_mem_append.mp hknown
      refine ⟨_, _, select_ok hwell hfront hfrontKnown, select_ok hwell hback hbackKnown, ?_⟩
      exact (hwell.join_picked_eq_ok_iff hfront hback hknown).mpr ⟨hnodup, rfl⟩
    · rintro ⟨left, right, hleft, hright, hjoin⟩
      obtain ⟨hfront, hfrontKnown, rfl⟩ := hwell.select_eq_ok_iff.mp hleft
      obtain ⟨hback, hbackKnown, rfl⟩ := hwell.select_eq_ok_iff.mp hright
      have hknown := List.forall_mem_append.mpr ⟨hfrontKnown, hbackKnown⟩
      obtain ⟨hnodup, rfl⟩ := (hwell.join_picked_eq_ok_iff hfront hback hknown).mp hjoin
      exact select_ok hwell hnodup hknown
  · intro chosen h hback
    obtain ⟨-, -, rfl⟩ := hwell.select_eq_ok_iff.mp h
    refine select_congr rfl fun name hname => ?_
    rw [column?_picked, if_pos (hback name hname)]

/-- A selection in two parts, a selection of nothing beside one of something, and a name that is
asked for twice of a selection. -/
theorem selections_compose_overlapping :
    let table : Table := ⟨[("a", .int [1, 2]), ("b", .text ["u", "v"]), ("c", .int [3, 4])], 2⟩
    (∃ left right, table.select ["c"] = .ok left ∧ table.select ["a"] = .ok right ∧
      left.join right = .ok ⟨[("c", .int [3, 4]), ("a", .int [1, 2])], 2⟩) ∧
    (∃ left right, table.select [] = .ok left ∧ table.select [] = .ok right ∧
      left.join right = .ok ⟨[], 2⟩) ∧
    Table.select ⟨[("c", .int [3, 4]), ("a", .int [1, 2])], 2⟩ ["a", "a"] =
      .error (.duplicateColumn "a") := by
  intro table
  have hwell : table.WellFormed := ⟨by decide, by decide⟩
  obtain ⟨hparts, -⟩ := selections_compose hwell ["c"] ["a"]
  obtain ⟨hnothing, -⟩ := selections_compose hwell [] []
  obtain ⟨-, hagain⟩ := selections_compose hwell ["c", "a"] ["a", "a"]
  refine ⟨(hparts _).mp rfl, (hnothing _).mp rfl, ?_⟩
  exact (hagain _ rfl (by decide)).trans rfl

end Parts

end LiveLayout.Table
