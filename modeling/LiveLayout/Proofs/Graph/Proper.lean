import LiveLayout.Position.Buffer
import LiveLayout.Proofs.Graph.Accepted

/-!
# Proper graphs

A well-formed table that has passed for a node table leaves the names of both coordinates free, so
coordinates of one pair a node are always joined to it.
-/

namespace LiveLayout

/-- A node table that a well-formed table was accepted as. -/
def NodeTable.Proper (nodes : NodeTable) : Prop :=
  nodes.table.WellFormed ∧ NodeTable.ofTable nodes.table = .ok nodes

/-- An edge table that a well-formed table was accepted as. -/
def EdgeTable.Proper (edges : EdgeTable) : Prop :=
  edges.table.WellFormed ∧ EdgeTable.ofTable edges.table = .ok edges

theorem NodeTable.ofTable_ok {table : Table} {ids : Column}
    (hlabels : table.requireLabels ColumnName.id = .ok ())
    (hcolor : table.requireType ColumnName.color [.int, .text] = .ok ())
    (hsize : table.requireType ColumnName.size [.int, .float32] = .ok ())
    (hx : ColumnName.x ∉ table.names) (hy : ColumnName.y ∉ table.names)
    (hids : table.require ColumnName.id = .ok ids)
    (hunique : firstRepeat? ∅ (ids.cells.filterMap Cell.label?) = none) :
    NodeTable.ofTable table = .ok ⟨table⟩ := by
  rw [NodeTable.ofTable, hlabels, hcolor, hsize, Table.forbid_eq_ok_iff.mpr hx,
    Table.forbid_eq_ok_iff.mpr hy, hids]
  simp only [ok_bind, hunique]

section Accepted

variable {nodes : NodeTable} {edges : EdgeTable}

theorem NodeTable.Proper.describesNodes (h : nodes.Proper) : nodes.table.DescribesNodes :=
  (NodeTable.ofTable_eq_ok_iff.mp h.2).1

theorem EdgeTable.Proper.describesEdges (h : edges.Proper) : edges.table.DescribesEdges :=
  (EdgeTable.ofTable_eq_ok_iff.mp h.2).1

theorem NodeTable.Proper.coordinates_free (h : nodes.Proper) :
    ColumnName.x ∉ nodes.table.names ∧ ColumnName.y ∉ nodes.table.names :=
  ⟨h.describesNodes.x_free, h.describesNodes.y_free⟩

/-- A node table has every column that nodes are known by, apart from the coordinates. -/
theorem NodeTable.Proper.mem_names (h : nodes.Proper) :
    ∀ name ∈ [ColumnName.id, ColumnName.color, ColumnName.size], name ∈ nodes.table.names := by
  have hdescribes := h.describesNodes
  simp only [List.forall_mem_cons]
  exact ⟨hdescribes.ids.mem_names, hdescribes.colors.mem_names, hdescribes.sizes.mem_names,
    List.forall_mem_nil _⟩

/-- An edge table has every column that edges are known by. -/
theorem EdgeTable.Proper.mem_names (h : edges.Proper) :
    ∀ name ∈ ColumnName.edgeDefaults, name ∈ edges.table.names := by
  have hdescribes := h.describesEdges
  simp only [ColumnName.edgeDefaults, List.forall_mem_cons]
  exact ⟨hdescribes.edges.mem_names, hdescribes.colors.mem_names, hdescribes.bundles.mem_names,
    List.forall_mem_nil _⟩

end Accepted

namespace Positions

/-- The two columns of coordinates. -/
def columns (positions : Positions) : List (String × Column) :=
  [(ColumnName.x, .float32 positions.x), (ColumnName.y, .float32 positions.y)]

theorem names_columns (positions : Positions) :
    positions.columns.map Prod.fst = [ColumnName.x, ColumnName.y] := rfl

theorem table_wellFormed {positions : Positions} (h : positions.y.length = positions.x.length) :
    (Table.mk positions.columns positions.length).WellFormed := by
  constructor
  · rw [Table.names_mk, names_columns]
    decide
  · simp [columns, Column.length, length, h]

theorem toTable_ok {positions : Positions} (h : positions.y.length = positions.x.length) :
    positions.toTable = .ok ⟨positions.columns, positions.length⟩ := by
  have hwell := table_wellFormed h
  exact (Table.pushAll_empty_eq_ok_iff hwell.length_eq).mpr ⟨hwell.names_nodup, rfl⟩

theorem column?_columns (positions : Positions) (rows : Nat) (name : String) :
    (Table.mk positions.columns rows).column? name =
      if name = ColumnName.x then some (.float32 positions.x)
      else if name = ColumnName.y then some (.float32 positions.y) else none := by
  by_cases hx : name = ColumnName.x
  · simp [Table.column?, columns, hx]
  · by_cases hy : name = ColumnName.y
    · simp [Table.column?, columns, hy, show ColumnName.x ≠ ColumnName.y by decide,
        show ColumnName.y ≠ ColumnName.x by decide]
    · simp [Table.column?, columns, hx, hy, Ne.symm hx, Ne.symm hy]

end Positions

/-- The static columns of nodes beside the coordinates of a batch. -/
def NodeTable.beside (nodes : NodeTable) (positions : Positions) : Table :=
  ⟨nodes.table.columns ++ positions.columns, nodes.length⟩

section Beside

variable {nodes : NodeTable} {positions : Positions}

theorem NodeTable.Proper.disjoint_coordinates (h : nodes.Proper) :
    nodes.table.names.Disjoint (Table.mk positions.columns positions.length).names := by
  obtain ⟨hx, hy⟩ := h.coordinates_free
  rw [List.disjoint_right]
  intro name hname
  simp only [Table.names_mk, Positions.columns, List.map_cons, List.map_nil, List.mem_cons,
    List.not_mem_nil, or_false] at hname
  rcases hname with rfl | rfl
  · exact hx
  · exact hy

theorem NodeTable.Proper.join_ok (h : nodes.Proper) (hx : positions.x.length = nodes.length)
    (hy : positions.y.length = nodes.length) :
    nodes.table.join ⟨positions.columns, positions.length⟩ = .ok (nodes.beside positions) :=
  Table.join_ok h.1.names_nodup (Positions.table_wellFormed (hy.trans hx.symm)) hx.symm
    h.disjoint_coordinates

theorem NodeTable.Proper.beside_wellFormed (h : nodes.Proper)
    (hx : positions.x.length = nodes.length) (hy : positions.y.length = nodes.length) :
    (nodes.beside positions).WellFormed :=
  h.1.append (Positions.table_wellFormed (hy.trans hx.symm)) hx.symm h.disjoint_coordinates

theorem NodeTable.mem_names_beside {name : String} :
    name ∈ (nodes.beside positions).names ↔
      name ∈ nodes.table.names ∨ name = ColumnName.x ∨ name = ColumnName.y := by
  simp [NodeTable.beside, Table.names, Positions.columns]

/-- Coordinates are found under their own names, everything else among the static columns. -/
theorem NodeTable.Proper.column?_beside (h : nodes.Proper) (name : String) :
    (nodes.beside positions).column? name =
      if name = ColumnName.x then some (.float32 positions.x)
      else if name = ColumnName.y then some (.float32 positions.y)
      else nodes.table.column? name := by
  obtain ⟨hx, hy⟩ := h.coordinates_free
  have hlookup : (nodes.beside positions).column? name =
      (nodes.table.column? name).or _ :=
    Table.column?_append nodes.table.columns positions.columns _ nodes.length positions.length name
  rw [hlookup, Positions.column?_columns]
  split_ifs with hnamex hnamey
  · rw [hnamex, Table.column?_eq_none_iff.mpr hx, Option.none_or]
  · rw [hnamey, Table.column?_eq_none_iff.mpr hy, Option.none_or]
  · rw [Option.or_none]

end Beside

end LiveLayout
