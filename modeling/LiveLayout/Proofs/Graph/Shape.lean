import LiveLayout.Proofs.Graph.Links
import LiveLayout.Proofs.Graph.Validated

/-!
# The shape of clustered graphs

The columns of a clustered graph are written down number by number. While the numbers fit their
cells, node ids differ and the ids of both ends of each edge are among them, so the graph is
accepted. Its tables then give every number back, and the rows that its edges join make a connected
graph.
-/

namespace LiveLayout

/-- The number that a label is. -/
def Label.value? : Label → Option Int
  | int value => some value.toInt
  | text _ => none

namespace Table

/-- The number under a name in a row. -/
def value? (table : Table) (name : String) (row : Nat) : Option Int :=
  (table.label? name row).bind Label.value?

section Numbers

variable {α : Type} {table : Table} {name : String} {row : Nat} {items : List α} {item : α}
  {f : α → Int64}

theorem label?_map (hcolumn : table.column? name = some (.int (items.map f)))
    (hitem : items[row]? = some item) : table.label? name row = some (.int (f item)) := by
  rw [label?, hcolumn, Option.bind_some, Column.label?, Column.cell?, List.getElem?_map, hitem]
  rfl

theorem value?_map (hcolumn : table.column? name = some (.int (items.map f)))
    (hitem : items[row]? = some item) : table.value? name row = some (f item).toInt := by
  rw [value?, label?_map hcolumn hitem]
  rfl

theorem ofColumns_eq_ok {columns : List (String × Column)} {rows : Nat} (hsome : columns ≠ [])
    (hwell : (Table.mk columns rows).WellFormed) : ofColumns columns = .ok ⟨columns, rows⟩ := by
  apply (pushAll_empty_eq_ok_iff hwell.length_eq).mpr
  rw [if_neg hsome]
  exact ⟨hwell.names_nodup, rfl⟩

end Numbers

end Table

namespace Clustered

variable {clusters perCluster chordCount : Nat}

/-- The numbers of a graph fit their cells: those of its nodes, of its edges and of the bundles of
its bridges. -/
structure Fits (clusters perCluster chordCount : Nat) : Prop where
  nodes : clusters * perCluster ≤ 2 ^ 63
  edges : clusters * linksPerCluster clusters perCluster chordCount ≤ 2 ^ 63
  bundles : 0 < perCluster → 2 * clusters ≤ 2 ^ 63

theorem toInt_cell {n : Nat} (h : n < 2 ^ 63) : (cell n).toInt = n := Int64.toInt_ofNat_of_lt h

/-! ## Nodes -/

section Nodes

/-- The nodes in a table, numbered through. -/
def nodeTable (clusters perCluster : Nat) : Table :=
  ⟨[(ColumnName.id, .int ((List.range (clusters * perCluster)).map cell)),
    (ColumnName.color,
      .int ((List.range (clusters * perCluster)).map fun node => cell (node / perCluster))),
    (ColumnName.size,
      .int ((List.range (clusters * perCluster)).map fun node =>
        cell (nodeSize (node % perCluster))))], clusters * perCluster⟩

theorem names_nodeTable (clusters perCluster : Nat) :
    (nodeTable clusters perCluster).names =
      [ColumnName.id, ColumnName.color, ColumnName.size] := rfl

theorem nodeTable_wellFormed (clusters perCluster : Nat) :
    (nodeTable clusters perCluster).WellFormed := by
  constructor
  · rw [names_nodeTable]
    decide
  · simp [nodeTable, Column.length]

theorem nodes_eq (clusters perCluster : Nat) :
    nodes clusters perCluster = NodeTable.ofTable (nodeTable clusters perCluster) := by
  have hplaces : ((List.range clusters).flatMap fun cluster =>
      (List.range perCluster).map fun position => (cluster, position)) =
        (List.range (clusters * perCluster)).map fun node =>
          (node / perCluster, node % perCluster) :=
    flatMap_range_map Prod.mk clusters perCluster
  have hcolumns := Table.ofColumns_eq_ok (List.cons_ne_nil _ _)
    (nodeTable_wellFormed clusters perCluster)
  simp only [nodes, NodeTable.ofColumns, hplaces, List.map_map, Function.comp_def,
    Nat.div_add_mod']
  rw [hcolumns]
  rfl

theorem label?_id {node : Nat} (hnode : node < clusters * perCluster) :
    (nodeTable clusters perCluster).label? ColumnName.id node = some (.int (cell node)) :=
  Table.label?_map rfl (List.getElem?_range hnode)

theorem nodeTable_describesNodes (clusters perCluster : Nat) :
    (nodeTable clusters perCluster).DescribesNodes := by
  refine ⟨⟨_, rfl, nofun⟩, ⟨_, rfl, nofun⟩, ⟨_, rfl, nofun⟩, ?_, ?_⟩
  · rw [names_nodeTable]
    decide
  · rw [names_nodeTable]
    decide

theorem nodeTable_distinct (h : clusters * perCluster ≤ 2 ^ 63) :
    (nodeTable clusters perCluster).Distinct ColumnName.id := by
  have hwell := nodeTable_wellFormed clusters perCluster
  intro node other id hnode hother
  have hinside : node < clusters * perCluster := hwell.lt_rowCount hnode
  have hotherInside : other < clusters * perCluster := hwell.lt_rowCount hother
  rw [label?_id hinside] at hnode
  rw [label?_id hotherInside] at hother
  have hcell : cell node = cell other := Label.int.inj (Option.some.inj (hnode.trans hother.symm))
  have hvalue := congrArg Int64.toInt hcell
  rw [toInt_cell (hinside.trans_le h), toInt_cell (hotherInside.trans_le h)] at hvalue
  exact Int.ofNat_inj.mp hvalue

theorem nodeTable_proper (h : clusters * perCluster ≤ 2 ^ 63) :
    NodeTable.Proper ⟨nodeTable clusters perCluster⟩ := by
  refine ⟨nodeTable_wellFormed clusters perCluster, NodeTable.ofTable_eq_ok_iff.mpr ?_⟩
  exact ⟨nodeTable_describesNodes clusters perCluster, nodeTable_distinct h, rfl⟩

/-- The table gives back the number and the cluster of each node. -/
theorem value?_nodeTable (h : clusters * perCluster ≤ 2 ^ 63) {node : Nat}
    (hnode : node < clusters * perCluster) :
    (nodeTable clusters perCluster).value? ColumnName.id node = some (node : Int) ∧
      (nodeTable clusters perCluster).value? ColumnName.color node =
        some ((node / perCluster : Nat) : Int) := by
  have hid : node < 2 ^ 63 := hnode.trans_le h
  have hcolor : node / perCluster < 2 ^ 63 := (Nat.div_le_self node perCluster).trans_lt hid
  have hrow := List.getElem?_range hnode
  rw [Table.value?_map rfl hrow, Table.value?_map rfl hrow, toInt_cell hid, toInt_cell hcolor]
  exact ⟨rfl, rfl⟩

end Nodes

/-! ## Edges -/

section Edges

/-- The edges in a table, numbered through. -/
def edgeTable (clusters perCluster chordCount : Nat) : Table :=
  let all := links clusters perCluster chordCount
  ⟨[(ColumnName.edge, .int ((List.range all.length).map cell)),
    (ColumnName.src, .int (all.map fun link => cell link.src)),
    (ColumnName.dst, .int (all.map fun link => cell link.dst)),
    (ColumnName.bundle, .int (all.map fun link => cell link.bundle)),
    (ColumnName.color, .int (all.map fun link => Int64.ofInt link.color))], all.length⟩

theorem names_edgeTable (clusters perCluster chordCount : Nat) :
    (edgeTable clusters perCluster chordCount).names = [ColumnName.edge, ColumnName.src,
      ColumnName.dst, ColumnName.bundle, ColumnName.color] := rfl

theorem edgeTable_wellFormed (clusters perCluster chordCount : Nat) :
    (edgeTable clusters perCluster chordCount).WellFormed := by
  constructor
  · rw [names_edgeTable]
    decide
  · simp [edgeTable, Column.length]

theorem edges_eq (clusters perCluster chordCount : Nat) :
    edges clusters perCluster chordCount =
      EdgeTable.ofTable (edgeTable clusters perCluster chordCount) := by
  have hcolumns := Table.ofColumns_eq_ok (List.cons_ne_nil _ _)
    (edgeTable_wellFormed clusters perCluster chordCount)
  simp only [edges, EdgeTable.ofColumns]
  rw [hcolumns]
  rfl

theorem edgeTable_proper (clusters perCluster chordCount : Nat) :
    EdgeTable.Proper ⟨edgeTable clusters perCluster chordCount⟩ := by
  refine ⟨edgeTable_wellFormed clusters perCluster chordCount, EdgeTable.ofTable_eq_ok_iff.mpr ?_⟩
  exact ⟨⟨⟨_, rfl, nofun⟩, ⟨_, rfl, nofun⟩, ⟨_, rfl, nofun⟩,
    Or.inr ⟨⟨_, rfl, nofun⟩, ⟨_, rfl, nofun⟩⟩⟩, rfl⟩

variable {edge : Nat} {link : Link}

/-- The ends of each edge as labels. -/
theorem label?_ends (hlink : (links clusters perCluster chordCount)[edge]? = some link) :
    (edgeTable clusters perCluster chordCount).label? ColumnName.src edge =
        some (.int (cell link.src)) ∧
      (edgeTable clusters perCluster chordCount).label? ColumnName.dst edge =
        some (.int (cell link.dst)) := by
  constructor
  · rw [Table.label?_map rfl hlink]
  · rw [Table.label?_map rfl hlink]

/-- The table gives back the number, the bundle and the color of each edge. -/
theorem value?_edgeTable (h : Fits clusters perCluster chordCount)
    (hlink : (links clusters perCluster chordCount)[edge]? = some link) :
    (edgeTable clusters perCluster chordCount).value? ColumnName.edge edge = some (edge : Int) ∧
      (edgeTable clusters perCluster chordCount).value? ColumnName.bundle edge =
        some (link.bundle : Int) ∧
      (edgeTable clusters perCluster chordCount).value? ColumnName.color edge =
        some link.color := by
  obtain ⟨hedge, -⟩ := List.getElem?_eq_some_iff.mp hlink
  have hnumber : edge < 2 ^ 63 := hedge.trans_le (length_links .. ▸ h.edges)
  obtain ⟨hcluster, hpart⟩ := part_of_getElem? hlink
  obtain ⟨hpos, hbundle, hlow, hcolor⟩ := hpart.numbers_lt hcluster
  have hbundles := h.bundles hpos
  refine ⟨?_, ?_, ?_⟩
  · rw [Table.value?_map rfl (List.getElem?_range hedge), toInt_cell hnumber]
  · rw [Table.value?_map rfl hlink, toInt_cell (hbundle.trans_le hbundles)]
  · rw [Table.value?_map rfl hlink, Int64.toInt_ofInt_of_le (by omega) (by omega)]

end Edges

/-! ## Graphs -/

section Graphs

variable {edge : Nat}

/-- Both ends of each edge are among the ids. -/
theorem anchored (clusters perCluster chordCount edge : Nat) :
    EdgeTable.Anchored ⟨edgeTable clusters perCluster chordCount⟩ ⟨nodeTable clusters perCluster⟩
      edge := by
  intro id hid
  have hedge : edge < (links clusters perCluster chordCount).length :=
    (edgeTable_proper clusters perCluster chordCount).lt_length hid
  have hlink := List.getElem?_eq_getElem hedge
  obtain ⟨hcluster, hpart⟩ := part_of_getElem? hlink
  obtain ⟨hsrc, hdst⟩ := hpart.ends_lt hcluster
  obtain ⟨hsource, htarget⟩ := label?_ends hlink
  rcases hid with hid | hid
  · obtain rfl := Option.some.inj (hsource.symm.trans hid)
    exact ⟨_, label?_id hsrc⟩
  · obtain rfl := Option.some.inj (htarget.symm.trans hid)
    exact ⟨_, label?_id hdst⟩

theorem graph_eq (h : clusters * perCluster ≤ 2 ^ 63) (chordCount : Nat) :
    graph clusters perCluster chordCount =
      .ok ⟨⟨nodeTable clusters perCluster⟩, ⟨edgeTable clusters perCluster chordCount⟩⟩ := by
  have hnodes := nodeTable_proper h
  have hedges := edgeTable_proper clusters perCluster chordCount
  rw [graph, nodes_eq, hnodes.2, ok_bind, edges_eq, hedges.2, ok_bind]
  exact (Graph.ofTables_eq_ok_iff hnodes hedges).mpr
    ⟨anchored clusters perCluster chordCount, rfl⟩

/-- The rows that an edge joins are those of its ends. -/
theorem exists_joined (h : clusters * perCluster ≤ 2 ^ 63) (chordCount : Nat) :
    ∃ joined : List (Fin (clusters * perCluster) × Fin (clusters * perCluster)),
      EdgeTable.endpoints ⟨edgeTable clusters perCluster chordCount⟩
        ⟨nodeTable clusters perCluster⟩ = .ok (some joined) ∧
      ∀ (edge : Nat) (link : Link), (links clusters perCluster chordCount)[edge]? = some link →
        ∃ a b : Fin (clusters * perCluster),
          joined[edge]? = some (a, b) ∧ a = link.src ∧ b = link.dst := by
  have hnodes := nodeTable_proper h
  have hedges := edgeTable_proper clusters perCluster chordCount
  have hends : ColumnName.src ∈ (edgeTable clusters perCluster chordCount).names := by
    rw [names_edgeTable]
    decide
  rcases hedges.endpoints_cases hnodes hends with
    ⟨joined, hjoined, hlength, hjoins⟩ | ⟨edge, -, id, -, hstray, -⟩
  · refine ⟨joined, hjoined, fun edge link hlink => ?_⟩
    obtain ⟨hedge, -⟩ := List.getElem?_eq_some_iff.mp hlink
    have hrows := List.getElem?_eq_getElem (hlength.symm ▸ hedge : edge < joined.length)
    obtain ⟨⟨source, hsourceId, hsourceRow⟩, target, htargetId, htargetRow⟩ := hjoins edge _ hrows
    obtain ⟨hcluster, hpart⟩ := part_of_getElem? hlink
    obtain ⟨hsrc, hdst⟩ := hpart.ends_lt hcluster
    obtain ⟨hsource, htarget⟩ := label?_ends hlink
    obtain rfl := Option.some.inj (hsource.symm.trans hsourceId)
    obtain rfl := Option.some.inj (htarget.symm.trans htargetId)
    exact ⟨_, _, hrows, ((hsourceRow _).mp (label?_id hsrc)).symm,
      ((htargetRow _).mp (label?_id hdst)).symm⟩
  · exact absurd (anchored clusters perCluster chordCount edge) hstray.not_anchored

/-- Where the rows that edges join are those of their ends, all nodes are connected. -/
theorem joined_connected {joined : List (Fin (clusters * perCluster) × Fin (clusters * perCluster))}
    (hends : ∀ (edge : Nat) (link : Link),
      (links clusters perCluster chordCount)[edge]? = some link →
        ∃ a b : Fin (clusters * perCluster),
          joined[edge]? = some (a, b) ∧ a = link.src ∧ b = link.dst)
    (hclusters : 0 < clusters) (hpos : 0 < perCluster) :
    (SimpleGraph.fromRel fun a b => (a, b) ∈ joined).Connected := by
  have hadj : ∀ link ∈ links clusters perCluster chordCount, ∀ a b : Fin (clusters * perCluster),
      a = link.src → b = link.dst → (SimpleGraph.fromRel fun a b => (a, b) ∈ joined).Adj a b := by
    intro link hlink a b ha hb
    obtain ⟨edge, hedge⟩ := List.mem_iff_getElem?.mp hlink
    obtain ⟨source, target, hjoined, hsource, htarget⟩ := hends edge link hedge
    obtain rfl : a = source := Fin.ext (ha.trans hsource.symm)
    obtain rfl : b = target := Fin.ext (hb.trans htarget.symm)
    refine (SimpleGraph.fromRel_adj _ a b).mpr ⟨?_, Or.inl (List.mem_of_getElem? hjoined)⟩
    rintro rfl
    exact (shaped_of_getElem? hedge).src_ne_dst (ha.symm.trans hb)
  exact connected rfl hadj hclusters hpos

/-- The bundle of a bridge tells its number. -/
theorem eq_of_bundle (h : Fits clusters perCluster chordCount) {bundle : Nat}
    (hbehind : clusters ≤ bundle)
    (hbundle : (edgeTable clusters perCluster chordCount).value? ColumnName.bundle edge =
      some (bundle : Int)) :
    edge = (bundle - clusters) * linksPerCluster clusters perCluster chordCount +
      (ringLength perCluster + chordLength perCluster chordCount) := by
  have hwell := edgeTable_wellFormed clusters perCluster chordCount
  obtain ⟨label, hlabel, -⟩ := Option.bind_eq_some_iff.mp hbundle
  have hedge : edge < (links clusters perCluster chordCount).length := hwell.lt_rowCount hlabel
  have hlink := List.getElem?_eq_getElem hedge
  obtain ⟨-, hvalue, -⟩ := value?_edgeTable h hlink
  have hsame := Int.ofNat_inj.mp (Option.some.inj (hvalue.symm.trans hbundle))
  obtain ⟨cluster, -, hbridge, hnumber⟩ := (shaped_of_getElem? hlink).bridge (hsame ▸ hbehind)
  have hcluster : clusters + cluster = bundle := by rw [← hsame, hbridge, bridgeLink]
  rw [hnumber, ← hcluster, Nat.add_sub_cancel_left]

/-- What a graph and the rows that its edges join tell of an edge. -/
structure Tells (graph : Graph) (joined : List (Fin graph.nodes.length × Fin graph.nodes.length))
    (edge : Nat) (link : Link) : Prop where
  number : graph.edges.table.value? ColumnName.edge edge = some (edge : Int)
  ends : ∃ a b : Fin graph.nodes.length, joined[edge]? = some (a, b) ∧ a = link.src ∧ b = link.dst
  bundle : graph.edges.table.value? ColumnName.bundle edge = some (link.bundle : Int)
  color : graph.edges.table.value? ColumnName.color edge = some link.color

/-- While its numbers fit their cells, a clustered graph is accepted and has its shape. Nodes are
numbered through, cluster by cluster, and colored by cluster. So are edges: those of a ring and
chords, which are inside their cluster and of its color, and behind them a bridge with a bundle of
its own. No edge joins a node to itself, and no chord joins nodes that are next to each other. All
nodes are connected, if there are any. -/
theorem graph_shape (h : Fits clusters perCluster chordCount) :
    ∃ graph joined, Clustered.graph clusters perCluster chordCount = .ok graph ∧
      graph.edges.endpoints graph.nodes = .ok (some joined) ∧
      graph.nodes.length = clusters * perCluster ∧
      (∀ node < clusters * perCluster,
        graph.nodes.table.value? ColumnName.id node = some (node : Int) ∧
        graph.nodes.table.value? ColumnName.color node = some ((node / perCluster : Nat) : Int)) ∧
      graph.edges.length = clusters * (ringLength perCluster + chordLength perCluster chordCount +
        bridgeLength clusters perCluster) ∧
      (∀ edge < graph.edges.length, ∃ link, Tells graph joined edge link ∧
        Shaped clusters perCluster chordCount edge link) ∧
      (∀ edge other, ∀ bundle : Nat, clusters ≤ bundle →
        graph.edges.table.value? ColumnName.bundle edge = some (bundle : Int) →
        graph.edges.table.value? ColumnName.bundle other = some (bundle : Int) → edge = other) ∧
      (0 < clusters → 0 < perCluster →
        (SimpleGraph.fromRel fun a b => (a, b) ∈ joined).Connected) := by
  obtain ⟨joined, hjoined, hends⟩ := exists_joined h.nodes chordCount
  refine ⟨⟨⟨nodeTable clusters perCluster⟩, ⟨edgeTable clusters perCluster chordCount⟩⟩, joined,
    graph_eq h.nodes chordCount, hjoined, rfl, fun node hnode => value?_nodeTable h.nodes hnode,
    length_links .., fun edge hedge => ?_, fun edge other bundle hbehind hbundle hother => ?_,
    joined_connected hends⟩
  · have hlink := List.getElem?_eq_getElem hedge
    obtain ⟨hnumber, hbundle, hcolor⟩ := value?_edgeTable h hlink
    exact ⟨_, ⟨hnumber, hends edge _ hlink, hbundle, hcolor⟩, shaped_of_getElem? hlink⟩
  · exact (eq_of_bundle h hbehind hbundle).trans (eq_of_bundle h hbehind hother).symm

/-- Three rings of five nodes with two chords each. -/
theorem graph_shape_of_three :
    Fits 3 5 2 ∧ ∃ graph joined, Clustered.graph 3 5 2 = .ok graph ∧
      graph.edges.endpoints graph.nodes = .ok (some joined) ∧ graph.nodes.length = 15 ∧
      graph.edges.length = 24 ∧ (SimpleGraph.fromRel fun a b => (a, b) ∈ joined).Connected := by
  have hfits : Fits 3 5 2 := ⟨by decide, by decide, by decide⟩
  obtain ⟨graph, joined, hgraph, hjoined, hnodes, -, hedges, -, -, hconnected⟩ := graph_shape hfits
  exact ⟨hfits, graph, joined, hgraph, hjoined, hnodes, hedges,
    hconnected (by decide) (by decide)⟩

end Graphs

end Clustered

end LiveLayout
