import LiveLayout.Graph.EdgeTable
import LiveLayout.Proofs.Table.Select

/-!
# Which tables are accepted

Node and edge tables are checked column by column and, where ids have to differ, row by row. All
checks together come to one condition on the table, which is accepted as it is. Ids are compared as
labels, so that a repeated one is the first of its rows to have occurred before.
-/

namespace LiveLayout

/-- The type of the columns that a label occurs in. -/
def Label.type : Label → ColumnType
  | int _ => .int
  | text _ => .text

namespace Column

variable {column : Column} {row : Nat}

/-- The labels of a column in row order; a column of floats has none. -/
def labels : Column → List Label
  | int values => values.map .int
  | float32 _ => []
  | text values => values.map .text

theorem filterMap_cells (column : Column) : column.cells.filterMap Cell.label? = column.labels := by
  cases column with
  | int values => simp [labels, cells, List.filterMap_map, Function.comp_def, Cell.label?]
  | float32 bits => simp [labels, cells, Cell.label?]
  | text values => simp [labels, cells, List.filterMap_map, Function.comp_def, Cell.label?]

theorem getElem?_labels (column : Column) (row : Nat) : column.labels[row]? = column.label? row := by
  cases column with
  | int values =>
      rw [labels, List.getElem?_map, label?, cell?]
      cases values[row]? <;> rfl
  | float32 bits =>
      rw [labels, List.getElem?_nil, label?, cell?]
      cases bits[row]? <;> rfl
  | text values =>
      rw [labels, List.getElem?_map, label?, cell?]
      cases values[row]? <;> rfl

theorem length_labels (htype : column.type ≠ .float32) : column.labels.length = column.length := by
  cases column with
  | int values => simp [labels, length]
  | float32 bits => exact absurd rfl htype
  | text values => simp [labels, length]

theorem exists_label? (htype : column.type ≠ .float32) (hrow : row < column.length) :
    ∃ label, column.label? row = some label := by
  have hlabels : row < column.labels.length := (length_labels htype).symm ▸ hrow
  exact ⟨column.labels[row], by rw [← getElem?_labels, List.getElem?_eq_getElem hlabels]⟩

theorem type_of_label? {label : Label} (h : column.label? row = some label) :
    column.type = label.type := by
  rw [← getElem?_labels] at h
  have hmem : label ∈ column.labels := List.mem_of_getElem? h
  cases column with
  | int values =>
      obtain ⟨value, -, rfl⟩ := List.mem_map.mp hmem
      rfl
  | float32 bits => cases hmem
  | text values =>
      obtain ⟨value, -, rfl⟩ := List.mem_map.mp hmem
      rfl

end Column

namespace Table

/-- The label under a name in a row. -/
def label? (table : Table) (name : String) (row : Nat) : Option Label :=
  (table.column? name).bind fun column => column.label? row

/-- The number under a name in a row. -/
def number? (table : Table) (name : String) (row : Nat) : Option UInt64 :=
  (table.column? name).bind fun column => column.number? row

/-- There is a column of labels under a name. -/
def HasLabels (table : Table) (name : String) : Prop :=
  ∃ column, table.column? name = some column ∧ column.type ≠ .float32

/-- There is a column of numbers under a name. -/
def HasNumbers (table : Table) (name : String) : Prop :=
  ∃ column, table.column? name = some column ∧ column.type ≠ .text

section Checks

variable {table : Table} {name : String} {row : Nat}

theorem forbid_eq_ok_iff : table.forbid name = .ok () ↔ name ∉ table.names := by
  simp only [forbid, column?_isSome_iff]
  split_ifs with h
  · simp [h]
  · simp [h]

theorem requireLabels_eq_ok_iff : table.requireLabels name = .ok () ↔ table.HasLabels name := by
  simp only [requireLabels, bind_eq_ok_iff, require_eq_ok_iff]
  refine exists_congr fun column => and_congr_right fun _ => ?_
  split_ifs with htype <;> simp [htype]

theorem requireType_eq_ok_iff {allowed : List ColumnType} :
    table.requireType name allowed = .ok () ↔
      ∃ column, table.column? name = some column ∧ column.type ∈ allowed := by
  simp only [requireType, bind_eq_ok_iff, require_eq_ok_iff]
  refine exists_congr fun column => and_congr_right fun _ => ?_
  split_ifs with htype <;> simp [htype]

theorem requireType_labels_iff :
    table.requireType name [.int, .text] = .ok () ↔ table.HasLabels name := by
  rw [requireType_eq_ok_iff]
  refine exists_congr fun column => and_congr_right fun _ => ?_
  cases column.type <;> simp

theorem requireType_numbers_iff :
    table.requireType name [.int, .float32] = .ok () ↔ table.HasNumbers name := by
  rw [requireType_eq_ok_iff]
  refine exists_congr fun column => and_congr_right fun _ => ?_
  cases column.type <;> simp

theorem HasLabels.mem_names (h : table.HasLabels name) : name ∈ table.names := by
  obtain ⟨column, hcolumn, -⟩ := h
  exact column?_isSome_iff.mp (Option.isSome_of_eq_some hcolumn)

theorem HasNumbers.mem_names (h : table.HasNumbers name) : name ∈ table.names := by
  obtain ⟨column, hcolumn, -⟩ := h
  exact column?_isSome_iff.mp (Option.isSome_of_eq_some hcolumn)

/-- A column of labels has one in each row. -/
theorem WellFormed.exists_label? (hwell : table.WellFormed) (h : table.HasLabels name)
    (hrow : row < table.rowCount) : ∃ label, table.label? name row = some label := by
  obtain ⟨column, hcolumn, htype⟩ := h
  have hlength := hwell.length_eq _ (mem_of_column? hcolumn)
  rw [label?, hcolumn, Option.bind_some]
  exact column.exists_label? htype (hlength ▸ hrow)

end Checks

section Labels

variable {table : Table} {name : String} {row : Nat}

/-- The labels under a name in row order. -/
def labels (table : Table) (name : String) : List Label :=
  ((table.column? name).map Column.labels).getD []

theorem getElem?_labels (table : Table) (name : String) (row : Nat) :
    (table.labels name)[row]? = table.label? name row := by
  unfold labels label?
  cases table.column? name with
  | none => rfl
  | some column => exact column.getElem?_labels row

theorem label?_of_cell {column : Column} {cell : Cell} (hcolumn : table.column? name = some column)
    (hcell : column.cells[row]? = some cell) : table.label? name row = cell.label? := by
  rw [Column.cells_getElem?] at hcell
  rw [label?, hcolumn, Option.bind_some, Column.label?, hcell, Option.bind_some]

theorem type_of_label? {column : Column} {label : Label}
    (hcolumn : table.column? name = some column) (h : table.label? name row = some label) :
    column.type = label.type := by
  rw [label?, hcolumn, Option.bind_some] at h
  exact Column.type_of_label? h

/-- Labels are in the rows of the table. -/
theorem WellFormed.lt_rowCount (hwell : table.WellFormed) {label : Label}
    (h : table.label? name row = some label) : row < table.rowCount := by
  obtain ⟨column, hcolumn, hlabel⟩ := Option.bind_eq_some_iff.mp h
  obtain ⟨cell, hcell, -⟩ := Option.bind_eq_some_iff.mp hlabel
  rw [← Column.cells_getElem?] at hcell
  obtain ⟨hinside, -⟩ := List.getElem?_eq_some_iff.mp hcell
  rwa [Column.length_cells, hwell.length_eq _ (mem_of_column? hcolumn)] at hinside

theorem WellFormed.length_labels (hwell : table.WellFormed) (h : table.HasLabels name) :
    (table.labels name).length = table.rowCount := by
  obtain ⟨column, hcolumn, htype⟩ := h
  rw [labels, hcolumn, Option.map_some, Option.getD_some, Column.length_labels htype]
  exact hwell.length_eq _ (mem_of_column? hcolumn)

/-- No label under the name is in two rows. -/
def Distinct (table : Table) (name : String) : Prop :=
  ∀ row other label, table.label? name row = some label → table.label? name other = some label →
    row = other

theorem nodup_labels_iff : (table.labels name).Nodup ↔ table.Distinct name := by
  unfold Distinct
  simp only [← getElem?_labels]
  constructor
  · intro hnodup row other label hrow hother
    obtain ⟨hinside, -⟩ := List.getElem?_eq_some_iff.mp hrow
    exact (List.getElem?_inj hinside hnodup).mp (hrow.trans hother.symm)
  · intro hdistinct
    apply List.nodup_iff_getElem?_ne_getElem?.mpr
    intro row other hrow hother hsame
    have hlabel := List.getElem?_eq_getElem hother
    exact hrow.ne (hdistinct row other _ (hsame.trans hlabel) hlabel)

end Labels

end Table

section Repeats

variable {labels : List Label} {seen : Std.HashSet Label} {label : Label}

theorem firstRepeat?_cons (seen : Std.HashSet Label) (first : Label) (rest : List Label) :
    firstRepeat? seen (first :: rest) =
      if first ∈ seen then some first else firstRepeat? (seen.insert first) rest := by
  simp only [firstRepeat?, Std.HashSet.contains_iff_mem]

theorem firstRepeat?_eq_none_iff :
    firstRepeat? seen labels = none ↔ labels.Nodup ∧ ∀ label ∈ labels, label ∉ seen := by
  induction labels generalizing seen with
  | nil => simp [firstRepeat?]
  | cons first rest ih =>
      rw [firstRepeat?_cons, List.nodup_cons, List.forall_mem_cons]
      by_cases hseen : first ∈ seen
      · simp [hseen]
      · rw [if_neg hseen, ih]
        simp only [Std.HashSet.mem_insert, beq_iff_eq, not_or]
        constructor
        · rintro ⟨hnodup, hrest⟩
          exact ⟨⟨fun hfirst => (hrest first hfirst).1 rfl, hnodup⟩, hseen,
            fun other hother => (hrest other hother).2⟩
        · rintro ⟨⟨hfirst, hnodup⟩, -, hrest⟩
          refine ⟨hnodup, fun other hother => ⟨?_, hrest other hother⟩⟩
          rintro rfl
          exact hfirst hother

/-- A label that is found to have occurred before is among those in front of it, none of which
occurred before. -/
theorem exists_of_firstRepeat? (h : firstRepeat? seen labels = some label) :
    ∃ before after, labels = before ++ label :: after ∧ before.Nodup ∧
      (∀ other ∈ before, other ∉ seen) ∧ (label ∈ before ∨ label ∈ seen) := by
  induction labels generalizing seen with
  | nil => cases h
  | cons first rest ih =>
      rw [firstRepeat?_cons] at h
      by_cases hseen : first ∈ seen
      · rw [if_pos hseen] at h
        obtain rfl := Option.some.inj h
        exact ⟨[], rest, rfl, List.nodup_nil, List.forall_mem_nil _, Or.inr hseen⟩
      · rw [if_neg hseen] at h
        obtain ⟨before, after, rfl, hnodup, hnew, hrepeat⟩ := ih h
        simp only [Std.HashSet.mem_insert, beq_iff_eq, not_or] at hnew hrepeat
        refine ⟨first :: before, after, rfl, List.nodup_cons.mpr ⟨?_, hnodup⟩, ?_, ?_⟩
        · intro hfirst
          exact (hnew first hfirst).1 rfl
        · exact List.forall_mem_cons.mpr ⟨hseen, fun other hother => (hnew other hother).2⟩
        · rcases hrepeat with hbefore | rfl | hbefore
          · exact Or.inl (List.mem_cons_of_mem first hbefore)
          · exact Or.inl List.mem_cons_self
          · exact Or.inr hbefore

end Repeats

namespace Table

/-- What a node table has to have, its ids apart: labels for ids and colors, numbers for sizes, and
no coordinates. -/
structure DescribesNodes (table : Table) : Prop where
  ids : table.HasLabels ColumnName.id
  colors : table.HasLabels ColumnName.color
  sizes : table.HasNumbers ColumnName.size
  x_free : ColumnName.x ∉ table.names
  y_free : ColumnName.y ∉ table.names

/-- What an edge table has to have: labels for edges, bundles and colors, and labels for both
endpoints or neither of them. -/
structure DescribesEdges (table : Table) : Prop where
  edges : table.HasLabels ColumnName.edge
  bundles : table.HasLabels ColumnName.bundle
  colors : table.HasLabels ColumnName.color
  ends : ColumnName.src ∉ table.names ∧ ColumnName.dst ∉ table.names ∨
    table.HasLabels ColumnName.src ∧ table.HasLabels ColumnName.dst

end Table

namespace NodeTable

variable {table : Table} {nodes : NodeTable}

theorem ids_eq (nodes : NodeTable) : nodes.ids = nodes.table.labels ColumnName.id := by
  unfold ids Table.labels
  cases nodes.table.column? ColumnName.id with
  | none => rfl
  | some column => exact column.filterMap_cells

/-- Behind the checks of its columns, only a repeated id keeps a table from being accepted. -/
theorem ofTable_eq (h : table.DescribesNodes) :
    ofTable table =
      match firstRepeat? ∅ (table.labels ColumnName.id) with
      | some id => .error (.duplicateNode id)
      | none => .ok ⟨table⟩ := by
  obtain ⟨column, hcolumn, -⟩ := h.ids
  have hlabels : table.labels ColumnName.id = column.labels := by
    rw [Table.labels, hcolumn, Option.map_some, Option.getD_some]
  rw [ofTable, Table.requireLabels_eq_ok_iff.mpr h.ids, Table.requireType_labels_iff.mpr h.colors,
    Table.requireType_numbers_iff.mpr h.sizes, Table.forbid_eq_ok_iff.mpr h.x_free,
    Table.forbid_eq_ok_iff.mpr h.y_free, Table.require_eq_ok_iff.mpr hcolumn, hlabels]
  cases hfirst : firstRepeat? ∅ column.labels with
  | some id => simp only [ok_bind, Column.filterMap_cells, hfirst]
  | none => simp only [ok_bind, Column.filterMap_cells, hfirst]

/-- A table is accepted as a node table exactly when it describes nodes and its ids are distinct. -/
theorem ofTable_eq_ok_iff :
    ofTable table = .ok nodes ↔
      table.DescribesNodes ∧ table.Distinct ColumnName.id ∧ nodes = ⟨table⟩ := by
  have hdistinct : firstRepeat? ∅ (table.labels ColumnName.id) = none ↔
      table.Distinct ColumnName.id := by
    simp [firstRepeat?_eq_none_iff, Table.nodup_labels_iff]
  constructor
  · intro h
    have hdescribes : table.DescribesNodes := by
      simp only [ofTable, check_bind_eq_ok_iff, Table.requireLabels_eq_ok_iff,
        Table.requireType_labels_iff, Table.requireType_numbers_iff, Table.forbid_eq_ok_iff] at h
      obtain ⟨hid, hcolor, hsize, hx, hy, -⟩ := h
      exact ⟨hid, hcolor, hsize, hx, hy⟩
    rw [ofTable_eq hdescribes] at h
    split at h
    · cases h
    · next hnone => exact ⟨hdescribes, hdistinct.mp hnone, (Except.ok.inj h).symm⟩
  · rintro ⟨hdescribes, hids, rfl⟩
    rw [ofTable_eq hdescribes, hdistinct.mpr hids]

/-- A table that describes nodes, but not by distinct ids, is refused by the id of the first row
whose id occurred in an earlier one. -/
theorem ofTable_of_repeat (h : table.DescribesNodes) (hrepeat : ¬ table.Distinct ColumnName.id) :
    ∃ row id, ofTable table = .error (.duplicateNode id) ∧
      table.label? ColumnName.id row = some id ∧
      (∃ earlier < row, table.label? ColumnName.id earlier = some id) ∧
      ∀ other < row, ∀ earlier < other,
        table.label? ColumnName.id earlier ≠ table.label? ColumnName.id other := by
  rw [ofTable_eq h]
  cases hfirst : firstRepeat? ∅ (table.labels ColumnName.id) with
  | none =>
      have hnodup := (firstRepeat?_eq_none_iff.mp hfirst).1
      exact absurd (Table.nodup_labels_iff.mp hnodup) hrepeat
  | some id =>
      obtain ⟨before, after, hlabels, hnodup, -, hbefore⟩ := exists_of_firstRepeat? hfirst
      have hmem : id ∈ before := by simpa using hbefore
      obtain ⟨earlier, hearlier, hid⟩ := List.getElem_of_mem hmem
      refine ⟨before.length, id, rfl, ?_, ⟨earlier, hearlier, ?_⟩, ?_⟩
      · rw [← Table.getElem?_labels, hlabels]
        simp
      · rw [← Table.getElem?_labels, hlabels, List.getElem?_append_left hearlier, ← hid]
        exact List.getElem?_eq_getElem hearlier
      · intro other hother earlier hearlier
        rw [← Table.getElem?_labels, ← Table.getElem?_labels, hlabels,
          List.getElem?_append_left hother, List.getElem?_append_left (hearlier.trans hother)]
        exact List.nodup_iff_getElem?_ne_getElem?.mp hnodup earlier other hearlier hother

end NodeTable

namespace EdgeTable

variable {table : Table} {edges : EdgeTable}

/-- A table is accepted as an edge table exactly when it describes edges. -/
theorem ofTable_eq_ok_iff :
    ofTable table = .ok edges ↔ table.DescribesEdges ∧ edges = ⟨table⟩ := by
  constructor
  · intro h
    simp only [ofTable, check_bind_eq_ok_iff, Table.requireLabels_eq_ok_iff,
      Table.requireType_labels_iff] at h
    obtain ⟨hedge, hbundle, hcolor, h⟩ := h
    split at h
    · -- Both endpoints are there, and are checked in turn.
      simp only [check_bind_eq_ok_iff, Table.requireLabels_eq_ok_iff, pure_eq_ok_iff] at h
      obtain ⟨hsrc, hdst, rfl⟩ := h
      exact ⟨⟨hedge, hbundle, hcolor, Or.inr ⟨hsrc, hdst⟩⟩, rfl⟩
    · next hsrc hdst =>
      obtain rfl := pure_eq_ok_iff.mp h
      rw [Table.column?_eq_none_iff] at hsrc hdst
      exact ⟨⟨hedge, hbundle, hcolor, Or.inl ⟨hsrc, hdst⟩⟩, rfl⟩
    · cases h
  · rintro ⟨hdescribes, rfl⟩
    rw [ofTable, Table.requireLabels_eq_ok_iff.mpr hdescribes.edges,
      Table.requireType_labels_iff.mpr hdescribes.bundles,
      Table.requireType_labels_iff.mpr hdescribes.colors]
    simp only [ok_bind]
    rcases hdescribes.ends with ⟨hsrc, hdst⟩ | ⟨hsrc, hdst⟩
    · rw [Table.column?_eq_none_iff.mpr hsrc, Table.column?_eq_none_iff.mpr hdst]
      rfl
    · obtain ⟨src, hsrcColumn, -⟩ := id hsrc
      obtain ⟨dst, hdstColumn, -⟩ := id hdst
      rw [hsrcColumn, hdstColumn]
      simp only [Table.requireLabels_eq_ok_iff.mpr hsrc, Table.requireLabels_eq_ok_iff.mpr hdst,
        ok_bind]
      rfl

end EdgeTable

end LiveLayout
