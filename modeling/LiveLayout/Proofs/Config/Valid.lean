import LiveLayout.Config.Basic
import LiveLayout.Proofs.Session.Framing
import LiveLayout.Proofs.Wire.Fitting

/-!
# Valid configurations

The columns that a valid configuration may name are those that every graph has. So what is checked
of its names when a session is started was checked before, for any graph.
-/

namespace LiveLayout

namespace Config

theorem checkColumns_eq_ok_iff {setting : String} {known seen names : List String} :
    checkColumns setting known seen names = .ok () ↔
      names.Nodup ∧ names.Disjoint seen ∧ ∀ name ∈ names, name ∈ known := by
  induction names generalizing seen with
  | nil => simp [checkColumns]
  | cons name rest ih =>
      by_cases hknown : name ∈ known
      · by_cases hseen : name ∈ seen
        · simp [checkColumns, hknown, hseen]
        · rw [checkColumns, if_neg (not_not.mpr hknown), if_neg hseen, ih]
          simp only [List.nodup_cons, List.disjoint_cons_left, List.disjoint_cons_right,
            List.forall_mem_cons, hseen, hknown, not_false_eq_true, true_and]
          tauto
      · simp [checkColumns, hknown]

theorem checkIncluded_eq_ok_iff {setting : String} {names : List String} {name : String} :
    checkIncluded setting names name = .ok () ↔ name ∈ names := by
  unfold checkIncluded
  split_ifs with h <;> simp [h]

/-- The columns of both frames are known and named once, and the nodes can be placed. -/
structure NamesKnown (config : Config) : Prop where
  nodes_nodup : config.nodeColumns.Nodup
  nodes_known : ∀ name ∈ config.nodeColumns, name ∈ ColumnName.nodeDefaults
  nodes_placed : ∀ name ∈ [ColumnName.id, ColumnName.x, ColumnName.y], name ∈ config.nodeColumns
  edges_nodup : config.edgeColumns.Nodup
  edges_known : ∀ name ∈ config.edgeColumns, name ∈ ColumnName.edgeDefaults

theorem namesKnown_of_validate {config : Config} (h : config.validate = .ok ()) :
    config.NamesKnown := by
  have hqueue : config.queueCapacity ≠ 0 := by
    intro hzero
    rw [validate, if_pos hzero] at h
    cases h
  rw [validate, if_neg hqueue] at h
  obtain ⟨⟨⟩, hnodes, h⟩ := bind_eq_ok_iff.mp h
  obtain ⟨⟨⟩, hplaced, h⟩ := bind_eq_ok_iff.mp h
  obtain ⟨⟨⟩, hedges, -⟩ := bind_eq_ok_iff.mp h
  obtain ⟨hnodesNodup, -, hnodesKnown⟩ := checkColumns_eq_ok_iff.mp hnodes
  obtain ⟨hedgesNodup, -, hedgesKnown⟩ := checkColumns_eq_ok_iff.mp hedges
  refine ⟨hnodesNodup, hnodesKnown, ?_, hedgesNodup, hedgesKnown⟩
  intro name hname
  exact checkIncluded_eq_ok_iff.mp (forM_eq_ok_iff.mp hplaced name hname)

namespace NamesKnown

variable {config : Config}

theorem nodes_fit (h : config.NamesKnown) : NamesFit config.nodeColumns :=
  NamesFit.of_subset ⟨by decide, by decide⟩ h.nodes_nodup h.nodes_known

theorem edges_fit (h : config.NamesKnown) : NamesFit config.edgeColumns :=
  NamesFit.of_subset ⟨by decide, by decide⟩ h.edges_nodup h.edges_known

theorem nodeColumnOf (h : config.NamesKnown) {nodes : NodeTable} (hnodes : nodes.Proper) :
    ∀ name ∈ config.nodeColumns, Framing.NodeColumnOf nodes name := by
  intro name hname
  have hknown := h.nodes_known name hname
  have hstatic := hnodes.mem_names name
  simp only [ColumnName.nodeDefaults, List.mem_cons, List.not_mem_nil, or_false] at hknown hstatic
  rw [Framing.NodeColumnOf]
  tauto

/-- The names of a valid configuration stand for columns of any graph. -/
theorem exists_start (h : config.NamesKnown) (mapper : PositionMapper) {graph : Graph}
    (hnodes : graph.nodes.Proper) (hedges : graph.edges.Proper) :
    ∃ framing, Framing.start mapper graph config.sessionOptions = .ok framing :=
  ⟨_, Framing.start_eq_ok_iff.mpr ⟨rfl, h.nodes_nodup, h.edges_nodup, h.nodeColumnOf hnodes,
    fun name hname => hedges.mem_names name (h.edges_known name hname)⟩⟩

end NamesKnown

end Config

end LiveLayout
