import LiveLayout.Proofs.Graph.Proper

/-!
# The nodes that edges join

The ids of an accepted node table differ, so the index that is made of them turns each back into its
row. Endpoints are looked up in it edge by edge, the source before the target, up to the first that
is the id of no node. So either all edges are given their rows, or the first edge that cannot be is
named.
-/

namespace LiveLayout

namespace NodeTable

variable {nodes : NodeTable} {id : Label} {row : Nat}

/-- The id of the node in a row. -/
def id? (nodes : NodeTable) (row : Nat) : Option Label := nodes.table.label? ColumnName.id row

/-- It is the id of some node. -/
def Has (nodes : NodeTable) (id : Label) : Prop := ∃ row, nodes.id? row = some id

theorem getElem?_ids (nodes : NodeTable) (row : Nat) : nodes.ids[row]? = nodes.id? row := by
  rw [ids_eq, Table.getElem?_labels, id?]

theorem foldl_insert (entries : List (Label × Nat)) (index : Std.HashMap Label Nat) :
    entries.foldl (fun index entry => index.insert entry.1 entry.2) index =
      index.insertMany entries := by
  induction entries generalizing index with
  | nil => exact Std.HashMap.insertMany_nil.symm
  | cons entry rest ih => rw [List.foldl_cons, ih, ← Std.HashMap.insertMany_cons]

namespace Proper

theorem distinct (h : nodes.Proper) : nodes.table.Distinct ColumnName.id :=
  (ofTable_eq_ok_iff.mp h.2).2.1

theorem nodup_ids (h : nodes.Proper) : nodes.ids.Nodup := by
  rw [ids_eq]
  exact Table.nodup_labels_iff.mpr h.distinct

theorem length_ids (h : nodes.Proper) : nodes.ids.length = nodes.length := by
  rw [ids_eq]
  exact h.1.length_labels h.describesNodes.ids

theorem size_idSet (h : nodes.Proper) : nodes.idSet.size = nodes.length := by
  have hdistinct : nodes.ids.Pairwise fun id other => (id == other) = false :=
    h.nodup_ids.imp fun hne => beq_false_of_ne hne
  rw [idSet, Std.HashSet.size_ofList hdistinct, h.length_ids]

theorem lt_length (h : nodes.Proper) (hrow : nodes.id? row = some id) : row < nodes.length :=
  h.1.lt_rowCount hrow

/-- Looking an id up gives the row that has it. -/
theorem getElem?_rowIndex (h : nodes.Proper) :
    nodes.rowIndex[id]? = some row ↔ nodes.id? row = some id := by
  have hindex : nodes.rowIndex = (∅ : Std.HashMap Label Nat).insertMany nodes.ids.zipIdx :=
    foldl_insert _ _
  have hdistinct : nodes.ids.zipIdx.Pairwise fun entry other => (entry.1 == other.1) = false := by
    have hnodup : (nodes.ids.zipIdx.map Prod.fst).Nodup := by
      rw [List.zipIdx_map_fst]
      exact h.nodup_ids
    exact (List.pairwise_map.mp hnodup).imp fun hne => beq_false_of_ne hne
  have hfound : ∀ found, nodes.id? found = some id → nodes.rowIndex[id]? = some found := by
    intro found hid
    rw [hindex]
    apply Std.HashMap.getElem?_insertMany_list_of_mem (beq_self_eq_true id) hdistinct
    rw [List.mem_zipIdx_iff_getElem?, getElem?_ids, hid]
  constructor
  · intro hrow
    have hmem : id ∈ nodes.ids := by
      by_contra hmissing
      have hnone : nodes.rowIndex[id]? = none := by
        rw [hindex, Std.HashMap.getElem?_insertMany_list_of_contains_eq_false]
        · simp
        · simpa using hmissing
      rw [hnone] at hrow
      cases hrow
    obtain ⟨found, hfoundRow⟩ := List.mem_iff_getElem?.mp hmem
    rw [getElem?_ids] at hfoundRow
    obtain rfl := Option.some.inj ((hfound found hfoundRow).symm.trans hrow)
    exact hfoundRow
  · exact hfound row

theorem row?_eq_some_iff (h : nodes.Proper) {row : Fin nodes.length} :
    nodes.row? nodes.rowIndex id = some row ↔ nodes.id? row = some id := by
  rw [← h.getElem?_rowIndex, row?, Option.bind_eq_some_iff]
  constructor
  · rintro ⟨found, hfound, hrow⟩
    split_ifs at hrow with hinside
    obtain rfl := Option.some.inj hrow
    exact hfound
  · intro hfound
    exact ⟨row, hfound, dif_pos row.isLt⟩

theorem row?_eq_none_iff (h : nodes.Proper) :
    nodes.row? nodes.rowIndex id = none ↔ ¬ nodes.Has id := by
  constructor
  · rintro hnone ⟨row, hrow⟩
    have hfound : nodes.row? nodes.rowIndex id = some ⟨row, h.lt_length hrow⟩ :=
      h.row?_eq_some_iff.mpr hrow
    rw [hnone] at hfound
    cases hfound
  · intro hmissing
    rw [Option.eq_none_iff_forall_ne_some]
    intro row hrow
    exact hmissing ⟨row, h.row?_eq_some_iff.mp hrow⟩

end Proper

end NodeTable

namespace EdgeTable

/-- The id of the node that an edge leaves. -/
def source? (edges : EdgeTable) (edge : Nat) : Option Label :=
  edges.table.label? ColumnName.src edge

/-- The id of the node that an edge enters. -/
def target? (edges : EdgeTable) (edge : Nat) : Option Label :=
  edges.table.label? ColumnName.dst edge

/-- Each endpoint of the edge is the id of some node. -/
def Anchored (edges : EdgeTable) (nodes : NodeTable) (edge : Nat) : Prop :=
  ∀ id, edges.source? edge = some id ∨ edges.target? edge = some id → nodes.Has id

/-- The edge joins the nodes of two rows: its endpoints are their ids, and those of no other rows. -/
structure Joins (edges : EdgeTable) (nodes : NodeTable) (edge : Nat)
    (ends : Fin nodes.length × Fin nodes.length) : Prop where
  source : ∃ id, edges.source? edge = some id ∧ ∀ row, nodes.id? row = some id ↔ row = ends.1
  target : ∃ id, edges.target? edge = some id ∧ ∀ row, nodes.id? row = some id ↔ row = ends.2

/-- The first endpoint of the edge that is the id of no node. The source comes first. -/
inductive Stray (edges : EdgeTable) (nodes : NodeTable) (edge : Nat) : Label → Prop where
  | source {id : Label} (h : edges.source? edge = some id) (hmissing : ¬ nodes.Has id) :
      Stray edges nodes edge id
  | target {source id : Label} (hsource : edges.source? edge = some source)
      (hfound : nodes.Has source) (h : edges.target? edge = some id)
      (hmissing : ¬ nodes.Has id) : Stray edges nodes edge id

section Resolving

variable {nodes : NodeTable} {edges : EdgeTable} {edge : Nat} {id : Label}

theorem Joins.anchored {ends : Fin nodes.length × Fin nodes.length}
    (h : edges.Joins nodes edge ends) : edges.Anchored nodes edge := by
  obtain ⟨source, hsource, hsourceRow⟩ := h.source
  obtain ⟨target, htarget, htargetRow⟩ := h.target
  rintro id (hid | hid)
  · obtain rfl := Option.some.inj (hsource.symm.trans hid)
    exact ⟨ends.1, (hsourceRow ends.1).mpr rfl⟩
  · obtain rfl := Option.some.inj (htarget.symm.trans hid)
    exact ⟨ends.2, (htargetRow ends.2).mpr rfl⟩

theorem Stray.not_anchored (h : edges.Stray nodes edge id) : ¬ edges.Anchored nodes edge := by
  intro hanchored
  cases h with
  | source hid hmissing => exact hmissing (hanchored id (Or.inl hid))
  | target _ _ hid hmissing => exact hmissing (hanchored id (Or.inr hid))

/-- An endpoint is given the one row whose id it is, or is named as the id of no node. -/
theorem endpoint_cases (h : nodes.Proper) (edge : Nat) {cell : Cell} (hcell : cell.label? = some id) :
    (∃ row, endpoint nodes nodes.rowIndex edge cell = .ok row ∧
      ∀ other, nodes.id? other = some id ↔ other = row) ∨
    endpoint nodes nodes.rowIndex edge cell = .error (.unknownNode edge id) ∧ ¬ nodes.Has id := by
  simp only [endpoint, hcell]
  cases hrow : nodes.row? nodes.rowIndex id with
  | none => exact Or.inr ⟨rfl, h.row?_eq_none_iff.mp hrow⟩
  | some row =>
      have hid := h.row?_eq_some_iff.mp hrow
      refine Or.inl ⟨row, rfl, fun other => ⟨fun hother => ?_, ?_⟩⟩
      · exact h.distinct other row id hother hid
      · rintro rfl
        exact hid

/-- The rows of both endpoints of an edge. -/
def ends (nodes : NodeTable) (entry : (Cell × Cell) × Nat) :
    Except SchemaError (Fin nodes.length × Fin nodes.length) := do
  let source ← endpoint nodes nodes.rowIndex entry.2 entry.1.1
  let target ← endpoint nodes nodes.rowIndex entry.2 entry.1.2
  return (source, target)

/-- Going from edge to edge with the rows that were found resolves each edge by itself. -/
theorem resolve_eq (found : List (Fin nodes.length × Fin nodes.length)) (edge : Nat)
    (cells : List (Cell × Cell)) :
    resolve nodes nodes.rowIndex found edge cells =
      (fun later => found.reverse ++ later) <$> (cells.zipIdx edge).mapM (ends nodes) := by
  induction cells generalizing found edge with
  | nil =>
      rw [resolve, List.zipIdx_nil, List.mapM_nil, map_pure, List.append_nil]
      rfl
  | cons cell rest ih =>
      obtain ⟨source, target⟩ := cell
      rw [List.zipIdx_cons, List.mapM_cons, resolve, ends]
      cases endpoint nodes nodes.rowIndex edge source with
      | error error => rfl
      | ok sourceRow =>
          cases endpoint nodes nodes.rowIndex edge target with
          | error error => rfl
          | ok targetRow =>
              simp only [ok_bind, pure_bind, ih, List.reverse_cons, List.append_assoc,
                List.singleton_append, map_bind, map_pure]
              rfl

/-- An edge whose endpoints are labels is given its rows, or its first stray endpoint is named. -/
theorem ends_cases (h : nodes.Proper) {cells : Cell × Cell} {source target : Label}
    (hsource : edges.source? edge = some source) (hsourceCell : cells.1.label? = some source)
    (htarget : edges.target? edge = some target) (htargetCell : cells.2.label? = some target) :
    (∃ rows, ends nodes (cells, edge) = .ok rows ∧ edges.Joins nodes edge rows) ∨
      ∃ id, ends nodes (cells, edge) = .error (.unknownNode edge id) ∧
        edges.Stray nodes edge id := by
  rcases endpoint_cases h edge hsourceCell with ⟨sourceRow, hleft, hsourceRow⟩ | ⟨hleft, hstray⟩
  · have hfound : nodes.Has source := ⟨sourceRow, (hsourceRow sourceRow).mpr rfl⟩
    rcases endpoint_cases h edge htargetCell with ⟨targetRow, hright, htargetRow⟩ | ⟨hright, hstray⟩
    · refine Or.inl ⟨(sourceRow, targetRow), ?_, ⟨source, hsource, hsourceRow⟩,
        ⟨target, htarget, htargetRow⟩⟩
      rw [ends, hleft, ok_bind, hright, ok_bind]
      rfl
    · refine Or.inr ⟨target, ?_, .target hsource hfound htarget hstray⟩
      rw [ends, hleft, ok_bind, hright, error_bind]
  · refine Or.inr ⟨source, ?_, .source hsource hstray⟩
    rw [ends, hleft, error_bind]

theorem endpoints_eq {src dst : Column} (hsrc : edges.table.column? ColumnName.src = some src)
    (hdst : edges.table.column? ColumnName.dst = some dst) :
    edges.endpoints nodes = some <$> (src.cells.zip dst.cells).zipIdx.mapM (ends nodes) := by
  simp only [endpoints, hsrc, hdst, resolve_eq, List.reverse_nil, List.nil_append]
  rw [id_map']

namespace Proper

/-- The endpoints of an edge table that has them are labels. -/
theorem endpoints_labels (h : edges.Proper) (hsrc : ColumnName.src ∈ edges.table.names) :
    edges.table.HasLabels ColumnName.src ∧ edges.table.HasLabels ColumnName.dst :=
  h.describesEdges.ends.resolve_left fun hnone => hnone.1 hsrc

variable {src dst : Column}

theorem length_cells (h : edges.Proper) (hsrc : edges.table.column? ColumnName.src = some src)
    (hdst : edges.table.column? ColumnName.dst = some dst) :
    (src.cells.zip dst.cells).length = edges.length := by
  have hsrcLength := h.1.length_eq _ (Table.mem_of_column? hsrc)
  have hdstLength := h.1.length_eq _ (Table.mem_of_column? hdst)
  simp [hsrcLength, hdstLength, length]

theorem ends_cases (h : edges.Proper) (hnodes : nodes.Proper)
    (hsrc : edges.table.column? ColumnName.src = some src)
    (hdst : edges.table.column? ColumnName.dst = some dst) {cells : Cell × Cell}
    (hcells : (src.cells.zip dst.cells)[edge]? = some cells) :
    (∃ rows, ends nodes (cells, edge) = .ok rows ∧ edges.Joins nodes edge rows) ∨
      ∃ id, ends nodes (cells, edge) = .error (.unknownNode edge id) ∧
        edges.Stray nodes edge id := by
  obtain ⟨hinside, -⟩ := List.getElem?_eq_some_iff.mp hcells
  rw [h.length_cells hsrc hdst] at hinside
  have hnamed : ColumnName.src ∈ edges.table.names :=
    Table.column?_isSome_iff.mp (Option.isSome_of_eq_some hsrc)
  obtain ⟨hsrcLabels, hdstLabels⟩ := h.endpoints_labels hnamed
  obtain ⟨source, hsource⟩ := h.1.exists_label? hsrcLabels hinside
  obtain ⟨target, htarget⟩ := h.1.exists_label? hdstLabels hinside
  obtain ⟨hsrcCell, hdstCell⟩ := List.getElem?_zip_eq_some.mp hcells
  exact EdgeTable.ends_cases hnodes hsource
    ((Table.label?_of_cell hsrc hsrcCell).symm.trans hsource) htarget
    ((Table.label?_of_cell hdst hdstCell).symm.trans htarget)

/-- Either each edge is given the rows that it joins, or the first edge with a stray endpoint is
named, and that endpoint with it. -/
theorem endpoints_cases (h : edges.Proper) (hnodes : nodes.Proper)
    (hends : ColumnName.src ∈ edges.table.names) :
    (∃ found, edges.endpoints nodes = .ok (some found) ∧ found.length = edges.length ∧
      ∀ edge rows, found[edge]? = some rows → edges.Joins nodes edge rows) ∨
    ∃ edge < edges.length, ∃ id, edges.endpoints nodes = .error (.unknownNode edge id) ∧
      edges.Stray nodes edge id ∧ ∀ earlier < edge, edges.Anchored nodes earlier := by
  obtain ⟨⟨src, hsrc, -⟩, dst, hdst, -⟩ := h.endpoints_labels hends
  have hlength := h.length_cells hsrc hdst
  have hentry : ∀ edge : Nat, (src.cells.zip dst.cells).zipIdx[edge]? =
      (src.cells.zip dst.cells)[edge]?.map fun cells => (cells, edge) := by
    intro edge
    rw [List.getElem?_zipIdx, Nat.zero_add]
  rw [endpoints_eq hsrc hdst]
  cases hresolved : (src.cells.zip dst.cells).zipIdx.mapM (ends nodes) with
  | ok found =>
      obtain ⟨hcount, hfound⟩ := getElem?_of_mapM hresolved
      rw [List.length_zipIdx, hlength] at hcount
      refine Or.inl ⟨found, rfl, hcount, fun edge rows hrows => ?_⟩
      obtain ⟨entry, hposition, hends⟩ := hfound edge rows hrows
      rw [hentry] at hposition
      obtain ⟨cells, hcells, rfl⟩ := Option.map_eq_some_iff.mp hposition
      rcases h.ends_cases hnodes hsrc hdst hcells with ⟨other, hother, hjoins⟩ | ⟨id, hstray, -⟩
      · obtain rfl := Except.ok.inj (hends.symm.trans hother)
        exact hjoins
      · cases hends.symm.trans hstray
  | error fault =>
      obtain ⟨edge, entry, hposition, hfault, hbefore⟩ := exists_first_error_of_mapM hresolved
      rw [hentry] at hposition
      obtain ⟨cells, hcells, rfl⟩ := Option.map_eq_some_iff.mp hposition
      obtain ⟨hinside, -⟩ := List.getElem?_eq_some_iff.mp hcells
      rcases h.ends_cases hnodes hsrc hdst hcells with ⟨rows, hrows, -⟩ | ⟨id, hstray, hfirst⟩
      · cases hfault.symm.trans hrows
      · obtain rfl := Except.error.inj (hfault.symm.trans hstray)
        refine Or.inr ⟨edge, hlength ▸ hinside, id, rfl, hfirst, fun earlier hearlier => ?_⟩
        -- The edges before have rows, since going through them did not stop there.
        have hcellsEarlier := List.getElem?_eq_getElem (hearlier.trans hinside)
        obtain ⟨value, hvalue⟩ := hbefore earlier hearlier (_, earlier) (by
          rw [hentry, hcellsEarlier, Option.map_some])
        rcases h.ends_cases hnodes hsrc hdst hcellsEarlier with ⟨rows, -, hjoins⟩ | ⟨id, hstop, -⟩
        · exact hjoins.anchored
        · cases hvalue.symm.trans hstop

end Proper

theorem endpoints_of_missing (h : ¬ (ColumnName.src ∈ edges.table.names ∧
    ColumnName.dst ∈ edges.table.names)) : edges.endpoints nodes = .ok none := by
  unfold endpoints
  split
  · next src dst hsrc hdst =>
    exact absurd ⟨Table.column?_isSome_iff.mp (Option.isSome_of_eq_some hsrc),
      Table.column?_isSome_iff.mp (Option.isSome_of_eq_some hdst)⟩ h
  · rfl

/-- An endpoint that is the id of a node is of the same type as all ids. -/
theorem Joins.types_eq {rows : Fin nodes.length × Fin nodes.length}
    (h : edges.Joins nodes edge rows) {ids src dst : Column}
    (hids : nodes.table.column? ColumnName.id = some ids)
    (hsrc : edges.table.column? ColumnName.src = some src)
    (hdst : edges.table.column? ColumnName.dst = some dst) :
    src.type = ids.type ∧ dst.type = ids.type := by
  obtain ⟨source, hsource, hsourceRow⟩ := h.source
  obtain ⟨target, htarget, htargetRow⟩ := h.target
  constructor
  · calc src.type = source.type := Table.type_of_label? hsrc hsource
      _ = ids.type := (Table.type_of_label? hids ((hsourceRow rows.1).mpr rfl)).symm
  · calc dst.type = target.type := Table.type_of_label? hdst htarget
      _ = ids.type := (Table.type_of_label? hids ((htargetRow rows.2).mpr rfl)).symm

/-- Edges are resolved exactly. With endpoints, each edge is given the only rows whose ids its
endpoints are, if they all are ids of nodes; else the first edge with one that is not is named, and
that endpoint, the source before the target. Ids of one type are never found under endpoints of the
other, even if they read alike. Without endpoints there is nothing to resolve. -/
theorem endpoints_exact (hnodes : nodes.Proper) (hedges : edges.Proper) :
    (¬ (ColumnName.src ∈ edges.table.names ∧ ColumnName.dst ∈ edges.table.names) →
      edges.endpoints nodes = .ok none) ∧
    (ColumnName.src ∈ edges.table.names → ColumnName.dst ∈ edges.table.names →
      ((∃ found, edges.endpoints nodes = .ok (some found)) ↔
        ∀ edge < edges.length, edges.Anchored nodes edge) ∧
      (∀ found, edges.endpoints nodes = .ok (some found) → found.length = edges.length ∧
        ∀ edge rows, found[edge]? = some rows → edges.Joins nodes edge rows) ∧
      ((¬ ∀ edge < edges.length, edges.Anchored nodes edge) →
        ∃ edge < edges.length, ∃ id, edges.endpoints nodes = .error (.unknownNode edge id) ∧
          edges.Stray nodes edge id ∧ ∀ earlier < edge, edges.Anchored nodes earlier) ∧
      ∀ found ids src dst, edges.endpoints nodes = .ok (some found) → found ≠ [] →
        nodes.table.column? ColumnName.id = some ids →
        edges.table.column? ColumnName.src = some src →
        edges.table.column? ColumnName.dst = some dst →
          src.type = ids.type ∧ dst.type = ids.type) := by
  refine ⟨endpoints_of_missing, fun hsrc _ => ?_⟩
  rcases hedges.endpoints_cases hnodes hsrc with
    ⟨found, hfound, hlength, hjoins⟩ | ⟨edge, hinside, id, hstop, hstray, hbefore⟩
  · have hanchored : ∀ edge < edges.length, edges.Anchored nodes edge := by
      intro edge hedge
      exact (hjoins edge _ (List.getElem?_eq_getElem (hlength ▸ hedge))).anchored
    simp only [hfound, Except.ok.injEq, Option.some.injEq]
    refine ⟨⟨fun _ => hanchored, fun _ => ⟨found, rfl⟩⟩, ?_, absurd hanchored, ?_⟩
    · rintro _ rfl
      exact ⟨hlength, hjoins⟩
    · rintro _ ids src dst rfl hne hids hsrc hdst
      obtain ⟨rows, hrows⟩ := List.exists_mem_of_ne_nil found hne
      obtain ⟨edge, hedge⟩ := List.mem_iff_getElem?.mp hrows
      exact (hjoins edge rows hedge).types_eq hids hsrc hdst
  · simp only [hstop, reduceCtorEq, exists_false, false_iff, false_imp_iff, implies_true,
      true_and, and_true]
    refine ⟨fun hall => hstray.not_anchored (hall edge hinside), fun _ => ?_⟩
    exact ⟨edge, hinside, id, rfl, hstray, hbefore⟩

/-- Numbers that are ids are found. Text that reads like one of them is not. -/
theorem endpoints_exact_alike :
    let nodes : NodeTable :=
      ⟨[(ColumnName.id, .int [7, 9]), (ColumnName.color, .int [0, 1]),
        (ColumnName.size, .int [10, 20])], 2⟩
    let edgesTo (dst : Column) : EdgeTable :=
      ⟨[(ColumnName.edge, .int [0]), (ColumnName.src, .int [9]), (ColumnName.dst, dst),
        (ColumnName.bundle, .int [0]), (ColumnName.color, .text ["u"])], 1⟩
    (∃ rows, (edgesTo (.int [7])).endpoints nodes = .ok (some rows) ∧ rows.length = 1) ∧
      (edgesTo (.text ["7"])).endpoints nodes = .error (.unknownNode 0 (.text "7")) := by
  intro nodes edgesTo
  have hnodes : nodes.Proper := by
    have hunique : firstRepeat? ∅ [Label.int 7, .int 9] = none := by simp [firstRepeat?]
    exact ⟨⟨by decide, by decide⟩,
      NodeTable.ofTable_ok rfl rfl rfl (by decide) (by decide) rfl hunique⟩
  have hnine : nodes.Has (.int 9) := ⟨1, rfl⟩
  constructor
  · have hedges : (edgesTo (.int [7])).Proper := ⟨⟨by decide, by decide⟩, rfl⟩
    obtain ⟨hiff, hrows, -⟩ := (endpoints_exact hnodes hedges).2 (by decide) (by decide)
    have hall : ∀ edge < 1, (edgesTo (.int [7])).Anchored nodes edge := by
      intro edge hedge id hid
      obtain rfl := Nat.lt_one_iff.mp hedge
      obtain rfl | rfl := hid.imp Option.some.inj Option.some.inj
      · exact hnine
      · exact ⟨0, rfl⟩
    obtain ⟨rows, hfound⟩ := hiff.mpr hall
    exact ⟨rows, hfound, (hrows rows hfound).1⟩
  · have hedges : (edgesTo (.text ["7"])).Proper := ⟨⟨by decide, by decide⟩, rfl⟩
    obtain ⟨-, -, hrefused, -⟩ := (endpoints_exact hnodes hedges).2 (by decide) (by decide)
    have hmissing : ¬ nodes.Has (.text "7") := by
      rintro ⟨row, hrow⟩
      have hids : nodes.table.column? ColumnName.id = some (.int [7, 9]) := rfl
      cases Table.type_of_label? hids hrow
    obtain ⟨edge, hedge, id, hfault, hstray, -⟩ := hrefused fun hall =>
      hmissing (hall 0 Nat.one_pos (.text "7") (Or.inr rfl))
    obtain rfl := Nat.lt_one_iff.mp hedge
    cases hstray with
    | source hid hunknown =>
        obtain rfl := Option.some.inj hid
        exact absurd hnine hunknown
    | target _ _ hid _ =>
        obtain rfl := Option.some.inj hid
        exact hfault

end Resolving

end EdgeTable

end LiveLayout
