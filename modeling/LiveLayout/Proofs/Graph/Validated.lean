import LiveLayout.Proofs.Graph.Endpoints

/-!
# Which graphs are accepted

A graph is made of two raw tables in three steps: each table is checked by itself, and then all
endpoints are looked up among the ids. Together the steps accept just the tables that describe a
graph, and carry them on as they are.
-/

namespace LiveLayout

section Pairing

variable {nodes : NodeTable} {edges : EdgeTable} {graph : Graph} {edge : Nat}

/-- Edges without endpoints need no nodes. -/
theorem EdgeTable.anchored_of_missing (hsrc : ColumnName.src ∉ edges.table.names)
    (hdst : ColumnName.dst ∉ edges.table.names) : edges.Anchored nodes edge := by
  have hsource : edges.source? edge = none := by
    rw [source?, Table.label?, Table.column?_eq_none_iff.mpr hsrc, Option.bind_none]
  have htarget : edges.target? edge = none := by
    rw [target?, Table.label?, Table.column?_eq_none_iff.mpr hdst, Option.bind_none]
  rintro id (hid | hid)
  · cases hsource.symm.trans hid
  · cases htarget.symm.trans hid

/-- Behind the last edge there are no endpoints. -/
theorem EdgeTable.Proper.lt_length (h : edges.Proper) {id : Label}
    (hid : edges.source? edge = some id ∨ edges.target? edge = some id) : edge < edges.length := by
  rcases hid with hsource | htarget
  · exact h.1.lt_rowCount hsource
  · exact h.1.lt_rowCount htarget

/-- Edges pass for edges of the nodes exactly when each endpoint is a node. -/
theorem EdgeTable.Proper.validate_eq_ok_iff (h : edges.Proper) (hnodes : nodes.Proper) :
    edges.validate nodes = .ok () ↔ ∀ edge, edges.Anchored nodes edge := by
  have hfound : edges.validate nodes = .ok () ↔ ∃ found, edges.endpoints nodes = .ok found := by
    simp [validate, map_eq_ok_iff]
  rw [hfound]
  rcases h.describesEdges.ends with ⟨hsrc, hdst⟩ | ⟨hsrc, -⟩
  · have hnone : edges.endpoints nodes = .ok none := endpoints_of_missing fun hboth => hsrc hboth.1
    exact iff_of_true ⟨none, hnone⟩ fun edge => anchored_of_missing hsrc hdst
  · rcases h.endpoints_cases hnodes hsrc.mem_names with
      ⟨found, hresolved, hlength, hjoins⟩ | ⟨edge, -, id, hstop, hstray, -⟩
    · refine iff_of_true ⟨some found, hresolved⟩ fun edge id hid => ?_
      have hinside : edge < found.length := hlength ▸ h.lt_length hid
      exact (hjoins edge _ (List.getElem?_eq_getElem hinside)).anchored id hid
    · refine iff_of_false ?_ fun hall => hstray.not_anchored (hall edge)
      rintro ⟨found, hfound⟩
      cases hstop.symm.trans hfound

theorem Graph.ofTables_eq_ok_iff (hnodes : nodes.Proper) (hedges : edges.Proper) :
    Graph.ofTables nodes edges = .ok graph ↔
      (∀ edge, edges.Anchored nodes edge) ∧ graph = ⟨nodes, edges⟩ := by
  rw [ofTables, check_bind_eq_ok_iff, hedges.validate_eq_ok_iff hnodes, pure_eq_ok_iff, eq_comm]

end Pairing

namespace Graph

variable {nodes edges : Table}

/-- Three checks accept exactly the graphs: the nodes are described by distinct ids and the edges
are described, and each endpoint there is is the id of some node. Both tables are carried on as they
are. There are as many ids as nodes. If nothing but distinct ids is missing, the nodes are refused
by the id of the first row whose id an earlier one has. -/
theorem accepted_exactly (hnodes : nodes.WellFormed) (hedges : edges.WellFormed) :
    (∀ graph, (∃ nodeTable edgeTable, NodeTable.ofTable nodes = .ok nodeTable ∧
        EdgeTable.ofTable edges = .ok edgeTable ∧ ofTables nodeTable edgeTable = .ok graph) ↔
      (nodes.DescribesNodes ∧ nodes.Distinct ColumnName.id ∧ edges.DescribesEdges ∧
        ∀ edge id, edges.label? ColumnName.src edge = some id ∨
          edges.label? ColumnName.dst edge = some id →
            ∃ row, nodes.label? ColumnName.id row = some id) ∧
      graph = ⟨⟨nodes⟩, ⟨edges⟩⟩) ∧
    (∀ nodeTable, NodeTable.ofTable nodes = .ok nodeTable →
      nodeTable.idSet.size = nodeTable.length) ∧
    (nodes.DescribesNodes → ¬ nodes.Distinct ColumnName.id →
      ∃ row id, NodeTable.ofTable nodes = .error (.duplicateNode id) ∧
        nodes.label? ColumnName.id row = some id ∧
        (∃ earlier < row, nodes.label? ColumnName.id earlier = some id) ∧
        ∀ other < row, ∀ earlier < other,
          nodes.label? ColumnName.id earlier ≠ nodes.label? ColumnName.id other) := by
  refine ⟨fun graph => ?_, fun nodeTable haccepted => ?_, NodeTable.ofTable_of_repeat⟩
  · constructor
    · rintro ⟨nodeTable, edgeTable, hnodeTable, hedgeTable, hgraph⟩
      obtain ⟨hdescribed, hdistinct, rfl⟩ := NodeTable.ofTable_eq_ok_iff.mp hnodeTable
      obtain ⟨hedgesDescribed, rfl⟩ := EdgeTable.ofTable_eq_ok_iff.mp hedgeTable
      obtain ⟨hanchored, rfl⟩ :=
        (ofTables_eq_ok_iff ⟨hnodes, hnodeTable⟩ ⟨hedges, hedgeTable⟩).mp hgraph
      exact ⟨⟨hdescribed, hdistinct, hedgesDescribed, hanchored⟩, rfl⟩
    · rintro ⟨⟨hdescribed, hdistinct, hedgesDescribed, hknown⟩, rfl⟩
      have hnodeTable := NodeTable.ofTable_eq_ok_iff.mpr ⟨hdescribed, hdistinct, rfl⟩
      have hedgeTable := EdgeTable.ofTable_eq_ok_iff.mpr ⟨hedgesDescribed, rfl⟩
      refine ⟨_, _, hnodeTable, hedgeTable, ?_⟩
      exact (ofTables_eq_ok_iff ⟨hnodes, hnodeTable⟩ ⟨hedges, hedgeTable⟩).mpr ⟨hknown, rfl⟩
  · obtain ⟨-, -, rfl⟩ := NodeTable.ofTable_eq_ok_iff.mp haccepted
    exact NodeTable.Proper.size_idSet ⟨hnodes, haccepted⟩

/-- Text ids with a column of their own beside them are accepted. An id of two nodes is refused. -/
theorem accepted_exactly_of_texts :
    let nodes (ids : List String) : Table :=
      ⟨[("weight", .float32 [0, 0]), (ColumnName.id, .text ids), (ColumnName.color, .int [0, 1]),
        (ColumnName.size, .float32 [0, 0])], 2⟩
    let edges : Table :=
      ⟨[(ColumnName.edge, .int [0]), (ColumnName.src, .text ["v"]), (ColumnName.dst, .text ["u"]),
        (ColumnName.bundle, .int [0]), (ColumnName.color, .int [0])], 1⟩
    (∃ nodeTable edgeTable, NodeTable.ofTable (nodes ["u", "v"]) = .ok nodeTable ∧
      EdgeTable.ofTable edges = .ok edgeTable ∧
      ofTables nodeTable edgeTable = .ok ⟨⟨nodes ["u", "v"]⟩, ⟨edges⟩⟩) ∧
      NodeTable.ofTable (nodes ["u", "u"]) = .error (.duplicateNode (.text "u")) := by
  intro nodes edges
  have hedges : edges.WellFormed := ⟨by decide, by decide⟩
  constructor
  · have hnodes : (nodes ["u", "v"]).WellFormed := ⟨by decide, by decide⟩
    have hdescribed : (nodes ["u", "v"]).DescribesNodes :=
      ⟨⟨_, rfl, by decide⟩, ⟨_, rfl, by decide⟩, ⟨_, rfl, by decide⟩, by decide, by decide⟩
    obtain ⟨haccepted, -, -⟩ := accepted_exactly hnodes hedges
    have hdistinct : (nodes ["u", "v"]).Distinct ColumnName.id :=
      Table.nodup_labels_iff.mp (by decide)
    have hedgesDescribed : edges.DescribesEdges :=
      ⟨⟨_, rfl, by decide⟩, ⟨_, rfl, by decide⟩, ⟨_, rfl, by decide⟩,
        Or.inr ⟨⟨_, rfl, by decide⟩, ⟨_, rfl, by decide⟩⟩⟩
    refine (haccepted _).mpr ⟨⟨hdescribed, hdistinct, hedgesDescribed, ?_⟩, rfl⟩
    intro edge id hid
    match edge with
    | 0 => exact hid.elim (fun hsource => ⟨1, hsource⟩) fun htarget => ⟨0, htarget⟩
    | _ + 1 => rcases hid with hsource | htarget <;> contradiction
  · have hnodes : (nodes ["u", "u"]).WellFormed := ⟨by decide, by decide⟩
    have hdescribed : (nodes ["u", "u"]).DescribesNodes :=
      ⟨⟨_, rfl, by decide⟩, ⟨_, rfl, by decide⟩, ⟨_, rfl, by decide⟩, by decide, by decide⟩
    obtain ⟨-, -, hrefused⟩ := accepted_exactly hnodes hedges
    obtain ⟨row, id, hfault, hid, -, -⟩ := hrefused hdescribed fun hdistinct =>
      absurd (hdistinct 0 1 (.text "u") rfl rfl) (by decide)
    have hmem : id ∈ [Label.text "u", .text "u"] :=
      List.mem_of_getElem? ((Table.getElem?_labels _ _ _).trans hid)
    obtain rfl : id = .text "u" := by simpa using hmem
    exact hfault

end Graph

end LiveLayout
