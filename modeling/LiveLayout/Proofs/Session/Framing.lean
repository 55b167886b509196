import LiveLayout.Proofs.Graph.Proper
import LiveLayout.Proofs.Wire.Frame
import LiveLayout.Session.Framing

/-!
# Batches and their frames

Starting and refreshing check the names of both frames, and a batch changes neither the names nor
the tables they are looked up in. So from the start on each name stands for a column, and a batch
that is not refused goes all the way to its node frame.
-/

namespace LiveLayout

@[simp] theorem lift_ok {ε α : Type} [Coe ε StreamError] (a : α) :
    lift (Except.ok a : Except ε α) = .ok a := rfl

theorem lift_eq_ok_iff {ε α : Type} [Coe ε StreamError] {x : Except ε α} {a : α} :
    lift x = .ok a ↔ x = .ok a := by
  cases x with
  | error error =>
      constructor
      · intro h
        cases h
      · intro h
        cases h
  | ok value => rw [lift_ok, Except.ok.injEq, Except.ok.injEq]

namespace Framing

/-- A name of a node frame stands for a coordinate or a static column. -/
def NodeColumnOf (nodes : NodeTable) (name : String) : Prop :=
  name = ColumnName.x ∨ name = ColumnName.y ∨ name ∈ nodes.table.names

/-- The names of both frames are distinct, and each stands for a column. -/
structure Named (framing : Framing) : Prop where
  nodes_nodup : framing.nodeColumns.Nodup
  edges_nodup : framing.edgeColumns.Nodup
  nodes_known : ∀ name ∈ framing.nodeColumns, NodeColumnOf framing.nodes name
  edges_known : ∀ name ∈ framing.edgeColumns, name ∈ framing.edges.table.names

instance (nodes : NodeTable) : DecidablePred (NodeColumnOf nodes) := fun name =>
  inferInstanceAs (Decidable (name = ColumnName.x ∨ name = ColumnName.y ∨
    name ∈ nodes.table.names))

/-- Names are new and known, or the first that is not decides the error. -/
def checkNames (known : String → Prop) [DecidablePred known] (twice unknown : String → StreamError)
    (seen : List String) : List String → Except StreamError Unit
  | [] => .ok ()
  | name :: rest =>
    if name ∈ seen then .error (twice name)
    else if known name then checkNames known twice unknown (name :: seen) rest
    else .error (unknown name)

theorem checkNames_eq_ok_iff {known : String → Prop} [DecidablePred known]
    {twice unknown : String → StreamError} {seen names : List String} :
    checkNames known twice unknown seen names = .ok () ↔
      names.Nodup ∧ names.Disjoint seen ∧ ∀ name ∈ names, known name := by
  induction names generalizing seen with
  | nil => simp [checkNames]
  | cons name rest ih =>
      by_cases hseen : name ∈ seen
      · simp [checkNames, hseen]
      · by_cases hknown : known name
        · rw [checkNames, if_neg hseen, if_pos hknown, ih]
          simp only [List.nodup_cons, List.disjoint_cons_left, List.disjoint_cons_right,
            List.forall_mem_cons, hseen, hknown, not_false_eq_true, true_and]
          tauto
        · rw [checkNames, if_neg hseen, if_neg hknown]
          simp [hknown]

theorem checkNodeColumns_eq (nodes : NodeTable) (seen names : List String) :
    checkNodeColumns nodes seen names =
      checkNames (NodeColumnOf nodes) (fun name => ConfigError.nodeColumnTwice name)
        (fun name => SchemaError.unknownNodeColumn name) seen names := by
  induction names generalizing seen with
  | nil => rfl
  | cons name rest ih =>
      have hunknown : (name ≠ ColumnName.x ∧ name ≠ ColumnName.y ∧
          (nodes.table.column? name).isNone) ↔ ¬ NodeColumnOf nodes name := by
        rw [Option.isNone_iff_eq_none, Table.column?_eq_none_iff, NodeColumnOf]
        tauto
      simp only [checkNodeColumns, checkNames, hunknown, ite_not, ih]

theorem checkEdgeColumns_eq (edges : EdgeTable) (seen names : List String) :
    checkEdgeColumns edges seen names =
      checkNames (· ∈ edges.table.names) (fun name => ConfigError.edgeColumnTwice name)
        (fun name => SchemaError.unknownEdgeColumn name) seen names := by
  induction names generalizing seen with
  | nil => rfl
  | cons name rest ih =>
      have hunknown : (edges.table.column? name).isNone ↔ ¬ name ∈ edges.table.names := by
        rw [Option.isNone_iff_eq_none, Table.column?_eq_none_iff]
      simp only [checkEdgeColumns, checkNames, hunknown, ite_not, ih]

theorem checkNodeColumns_eq_ok_iff {nodes : NodeTable} {names : List String} :
    checkNodeColumns nodes [] names = .ok () ↔
      names.Nodup ∧ ∀ name ∈ names, NodeColumnOf nodes name := by
  rw [checkNodeColumns_eq, checkNames_eq_ok_iff]
  simp

theorem checkEdgeColumns_eq_ok_iff {edges : EdgeTable} {names : List String} :
    checkEdgeColumns edges [] names = .ok () ↔
      names.Nodup ∧ ∀ name ∈ names, name ∈ edges.table.names := by
  rw [checkEdgeColumns_eq, checkNames_eq_ok_iff]
  simp

theorem start_eq_ok_iff {mapper : PositionMapper} {graph : Graph} {options : SessionOptions}
    {framing : Framing} :
    start mapper graph options = .ok framing ↔
      framing = ⟨mapper, graph.nodes, graph.edges, options.nodeColumns, options.edgeColumns,
        options.resendEdges, true, 0, 0, 0⟩ ∧ framing.Named := by
  simp only [start, bind_eq_ok_iff, pure_eq_ok_iff]
  constructor
  · rintro ⟨⟨⟩, hnodes, ⟨⟩, hedges, rfl⟩
    obtain ⟨hnodesNodup, hnodesKnown⟩ := checkNodeColumns_eq_ok_iff.mp hnodes
    obtain ⟨hedgesNodup, hedgesKnown⟩ := checkEdgeColumns_eq_ok_iff.mp hedges
    exact ⟨rfl, hnodesNodup, hedgesNodup, hnodesKnown, hedgesKnown⟩
  · rintro ⟨rfl, hnamed⟩
    refine ⟨(), checkNodeColumns_eq_ok_iff.mpr ?_, (), checkEdgeColumns_eq_ok_iff.mpr ?_, rfl⟩
    · exact ⟨hnamed.nodes_nodup, hnamed.nodes_known⟩
    · exact ⟨hnamed.edges_nodup, hnamed.edges_known⟩

theorem refreshEdges_eq (framing : Framing) (edges : EdgeTable) :
    framing.refreshEdges edges = do
      checkEdgeColumns edges [] framing.edgeColumns
      lift (edges.validate framing.nodes)
      return { framing with edges, edgesPending := true } := by
  cases hcolumns : checkEdgeColumns edges [] framing.edgeColumns with
  | error error => simp [refreshEdges, refreshHeld, MonadExcept.ofExcept, hcolumns]
  | ok _ =>
      cases hlinks : (lift (edges.validate framing.nodes) : Except StreamError Unit) <;>
        simp [refreshEdges, refreshHeld, MonadExcept.ofExcept, hcolumns, hlinks]

/-- A refresh writes to the framing that is held only behind both checks, so that it is as it was if
one of them fails. -/
theorem run_refreshHeld (framing : Framing) (edges : EdgeTable) :
    (refreshHeld edges).run framing = heldBehind framing (framing.refreshEdges edges) := by
  rw [refreshEdges_eq]
  cases hcolumns : checkEdgeColumns edges [] framing.edgeColumns with
  | error error => simp [refreshHeld, heldBehind, MonadExcept.ofExcept, hcolumns]
  | ok _ =>
      cases hlinks : (lift (edges.validate framing.nodes) : Except StreamError Unit) <;>
        simp [refreshHeld, heldBehind, MonadExcept.ofExcept, hcolumns, hlinks]

/-- A refresh replaces the edge table and nothing else, and the edge frame is then owed. -/
theorem refreshEdges_eq_ok {framing next : Framing} {edges : EdgeTable}
    (h : framing.refreshEdges edges = .ok next) :
    next = { framing with edges, edgesPending := true } ∧
      ∀ name ∈ framing.edgeColumns, name ∈ edges.table.names := by
  simp only [refreshEdges_eq, bind_eq_ok_iff, pure_eq_ok_iff] at h
  obtain ⟨⟨⟩, hedges, ⟨⟩, -, rfl⟩ := h
  exact ⟨rfl, (checkEdgeColumns_eq_ok_iff.mp hedges).2⟩

theorem Named.refreshEdges {framing next : Framing} (hnamed : framing.Named) {edges : EdgeTable}
    (h : framing.refreshEdges edges = .ok next) : next.Named := by
  obtain ⟨rfl, hknown⟩ := refreshEdges_eq_ok h
  exact ⟨hnamed.nodes_nodup, hnamed.edges_nodup, hnamed.nodes_known, hknown⟩

/-- What a batch leaves as it is. -/
def setup (framing : Framing) :
    PositionMapper × NodeTable × EdgeTable × List String × List String × Bool :=
  (framing.mapper, framing.nodes, framing.edges, framing.nodeColumns, framing.edgeColumns,
    framing.resendEdges)

theorem setup_eq_iff {framing other : Framing} :
    framing.setup = other.setup ↔
      framing.mapper = other.mapper ∧ framing.nodes = other.nodes ∧
        framing.edges = other.edges ∧ framing.nodeColumns = other.nodeColumns ∧
        framing.edgeColumns = other.edgeColumns ∧ framing.resendEdges = other.resendEdges := by
  simp [setup]

theorem Named.of_setup_eq {framing other : Framing} (hnamed : framing.Named)
    (h : other.setup = framing.setup) : other.Named := by
  obtain ⟨-, hnodes, hedges, hnodeColumns, hedgeColumns, -⟩ := setup_eq_iff.mp h
  constructor
  · rw [hnodeColumns]
    exact hnamed.nodes_nodup
  · rw [hedgeColumns]
    exact hnamed.edges_nodup
  · rw [hnodeColumns, hnodes]
    exact hnamed.nodes_known
  · rw [hedgeColumns, hedges]
    exact hnamed.edges_known

section Frames

variable (framing : Framing) (positions : Positions)

/-- The columns of a node frame. -/
def nodeFrameColumns : List (String × Column) :=
  framing.nodeColumns.filterMap fun name => (framing.nodeColumn positions name).toOption

/-- The wire form of the node frame of this iteration. -/
def nodeFrame : Except CodecError Bytes :=
  encodeColumns .nodes (UInt64.ofNat framing.iteration) positions.length
    (framing.nodeFrameColumns positions)

theorem nodeColumn_fst {framing : Framing} {positions : Positions} {name : String}
    {entry : String × Column} (h : framing.nodeColumn positions name = .ok entry) :
    entry.1 = name := by
  unfold nodeColumn at h
  split_ifs at h with hx hy
  · cases h
    rfl
  · cases h
    rfl
  · obtain ⟨column, -, rfl⟩ := map_eq_ok_iff.mp h
    rfl

theorem exists_nodeColumn {framing : Framing} (positions : Positions) {name : String}
    (h : NodeColumnOf framing.nodes name) :
    ∃ column, framing.nodeColumn positions name = .ok (name, column) := by
  unfold nodeColumn
  split_ifs with hx hy
  · exact ⟨_, rfl⟩
  · exact ⟨_, rfl⟩
  · obtain ⟨column, hcolumn⟩ := Table.exists_column? ((h.resolve_left hx).resolve_left hy)
    exact ⟨column, by rw [Table.require_eq_ok_iff.mpr hcolumn]; rfl⟩

/-- No column of a node frame is missing. -/
theorem Named.mapM_nodeColumn {framing : Framing} (hnamed : framing.Named)
    (positions : Positions) :
    framing.nodeColumns.mapM (framing.nodeColumn positions) =
      .ok (framing.nodeFrameColumns positions) := by
  rw [mapM_eq_ok_iff, nodeFrameColumns]
  have hknown := hnamed.nodes_known
  generalize framing.nodeColumns = names at hknown ⊢
  induction names with
  | nil => exact .nil
  | cons name rest ih =>
      obtain ⟨column, hcolumn⟩ := exists_nodeColumn positions (hknown name List.mem_cons_self)
      rw [List.filterMap_cons, hcolumn]
      refine .cons hcolumn ?_
      apply ih
      intro other hother
      exact hknown other (List.mem_cons_of_mem name hother)

/-- A node frame has the columns asked for, in that order. -/
theorem Named.map_fst_nodeFrameColumns {framing : Framing} (hnamed : framing.Named)
    (positions : Positions) :
    (framing.nodeFrameColumns positions).map Prod.fst = framing.nodeColumns := by
  have hcolumns := mapM_eq_ok_iff.mp (hnamed.mapM_nodeColumn positions)
  generalize framing.nodeColumns = names, framing.nodeFrameColumns positions = columns at hcolumns
  induction hcolumns with
  | nil => rfl
  | cons hcolumn _ ih => rw [List.map_cons, nodeColumn_fst hcolumn, ih]

theorem map_fst_nodeFrameColumns_sublist :
    ((framing.nodeFrameColumns positions).map Prod.fst).Sublist framing.nodeColumns := by
  rw [nodeFrameColumns]
  generalize framing.nodeColumns = names
  induction names with
  | nil => exact .slnil
  | cons name rest ih =>
      cases hcolumn : framing.nodeColumn positions name with
      | error error =>
          rw [List.filterMap_cons, hcolumn]
          exact ih.cons name
      | ok entry =>
          rw [List.filterMap_cons, hcolumn, ← nodeColumn_fst hcolumn]
          exact ih.cons_cons entry.1

end Frames

variable {τ : Type} [Transport τ]

@[simp] theorem setup_sendEdges (framing : Framing) (channel : Channel τ) :
    (framing.sendEdges channel).1.setup = framing.setup := by
  unfold sendEdges
  split
  · dsimp only
    split_ifs <;> rfl
  · rfl

@[simp] theorem iteration_sendEdges (framing : Framing) (channel : Channel τ) :
    (framing.sendEdges channel).1.iteration = framing.iteration := by
  unfold sendEdges
  split
  · dsimp only
    split_ifs <;> rfl
  · rfl

@[simp] theorem setup_sendNodes (framing : Framing) (rows : Nat)
    (columns : List (String × Column)) (channel : Channel τ) :
    (framing.sendNodes rows columns channel).1.setup = framing.setup := by
  unfold sendNodes
  split <;> rfl

@[simp] theorem iteration_sendNodes (framing : Framing) (rows : Nat)
    (columns : List (String × Column)) (channel : Channel τ) :
    (framing.sendNodes rows columns channel).1.iteration = framing.iteration + 1 := by
  unfold sendNodes
  split <;> rfl

/-- The edge frame goes out if it is owed. -/
def settleEdges (framing : Framing) (channel : Channel τ) : Framing × Channel τ :=
  if framing.owesEdges then framing.sendEdges channel else (framing, channel)

@[simp] theorem setup_settleEdges (framing : Framing) (channel : Channel τ) :
    (framing.settleEdges channel).1.setup = framing.setup := by
  unfold settleEdges
  split_ifs
  · exact setup_sendEdges framing channel
  · rfl

@[simp] theorem iteration_settleEdges (framing : Framing) (channel : Channel τ) :
    (framing.settleEdges channel).1.iteration = framing.iteration := by
  unfold settleEdges
  split_ifs
  · exact iteration_sendEdges framing channel
  · rfl

/-- A batch is refused before anything is sent, or its frames are sent in order. -/
theorem Named.invoke_eq {framing : Framing} (hnamed : framing.Named) (buffer : PositionBuffer)
    (channel : Channel τ) :
    framing.invoke buffer channel =
      match framing.batch buffer with
      | .error error => (.error error, framing, channel)
      | .ok positions =>
        (.ok (), (framing.settleEdges channel).1.sendNodes positions.length
          (framing.nodeFrameColumns positions) (framing.settleEdges channel).2) := by
  unfold invoke
  cases framing.batch buffer with
  | error error => rfl
  | ok positions =>
      have hcolumns : (framing.settleEdges channel).1.nodeColumns.mapM
          ((framing.settleEdges channel).1.nodeColumn positions) =
          .ok (framing.nodeFrameColumns positions) := by
        have hsetup := setup_settleEdges framing channel
        obtain ⟨-, hnodes, -, hnodeColumns, -, -⟩ := setup_eq_iff.mp hsetup
        rw [(hnamed.of_setup_eq hsetup).mapM_nodeColumn, nodeFrameColumns, nodeFrameColumns,
          hnodeColumns]
        simp only [nodeColumn, hnodes]
      rw [← settleEdges]
      simp only [hcolumns, lift_ok]

theorem Named.invoke_ok {framing : Framing} (hnamed : framing.Named) {buffer : PositionBuffer}
    {positions : Positions} (h : framing.batch buffer = .ok positions) (channel : Channel τ) :
    (framing.invoke buffer channel).1 = .ok () := by
  rw [hnamed.invoke_eq, h]

/-- A batch keeps the names, and moves on by one iteration exactly when it is not refused. -/
theorem Named.invoke_spec {framing : Framing} (hnamed : framing.Named) (buffer : PositionBuffer)
    (channel : Channel τ) :
    (framing.invoke buffer channel).2.1.setup = framing.setup ∧
      ((∃ error, framing.invoke buffer channel = (.error error, framing, channel)) ∨
        (framing.invoke buffer channel).1 = .ok () ∧
          (framing.invoke buffer channel).2.1.iteration = framing.iteration + 1) := by
  rw [hnamed.invoke_eq]
  cases framing.batch buffer with
  | error error => exact ⟨rfl, .inl ⟨error, rfl⟩⟩
  | ok positions => simp

/-- A batch is accepted if it has a row for each node and is mapped to as many coordinates. -/
theorem batch_eq_ok_iff {framing : Framing} {buffer : PositionBuffer} {positions : Positions} :
    framing.batch buffer = .ok positions ↔
      buffer.rows = .ok framing.nodes.length ∧ framing.mapper buffer = .ok positions ∧
        positions.length = framing.nodes.length := by
  constructor
  · intro h
    obtain ⟨rows, hlift, h⟩ := bind_eq_ok_iff.mp h
    split_ifs at h with hrows
    · cases h
    · obtain ⟨mapped, hmapped, h⟩ := bind_eq_ok_iff.mp h
      split_ifs at h with hlength
      · cases h
      · obtain rfl := pure_eq_ok_iff.mp h
        obtain rfl := not_not.mp hrows
        exact ⟨lift_eq_ok_iff.mp hlift, hmapped, not_not.mp hlength⟩
  · rintro ⟨hrows, hmapped, hlength⟩
    simp [batch, hrows, hmapped, hlength]

/-- A batch that is not refused has a first coordinate for each node. -/
theorem length_of_batch {framing : Framing} {buffer : PositionBuffer} {positions : Positions}
    (h : framing.batch buffer = .ok positions) : positions.length = framing.nodes.length :=
  (batch_eq_ok_iff.mp h).2.2

theorem batch_eq_ok {framing : Framing} {buffer : PositionBuffer} {positions : Positions}
    (hrows : buffer.rows = .ok framing.nodes.length) (hmap : framing.mapper buffer = .ok positions)
    (hlength : positions.length = framing.nodes.length) :
    framing.batch buffer = .ok positions :=
  batch_eq_ok_iff.mpr ⟨hrows, hmap, hlength⟩

end Framing

end LiveLayout
