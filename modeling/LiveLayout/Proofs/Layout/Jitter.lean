import LiveLayout.Layout.Jitter
import LiveLayout.Proofs.Position.Interleaved

/-!
# What a jitter layout reports

The places of the nodes do not depend on what a callback answers, so the batches of a jitter layout
are known beforehand. It reports them in order and then closes, unless one is refused.
-/

namespace LiveLayout

theorem map_range_succ {α : Type} (f : Nat → α) (count : Nat) :
    (List.range (count + 1)).map f = f 0 :: (List.range count).map fun k => f (k + 1) := by
  rw [List.range_succ_eq_map, List.map_cons, List.map_map]
  rfl

namespace Layout

variable {σ : Type} {callback : Callback σ} {P : Nat → σ → Prop} {batches : List PositionBuffer}

theorem run_report (batch : PositionBuffer) (next : Except StreamError Unit → Layout)
    (state : σ) :
    (report batch next).run callback state =
      (next (callback.onIteration batch state).1).run callback
        (callback.onIteration batch state).2 := rfl

/-- If no batch is refused, all are reported, and each of them takes what holds of the state one
further. -/
theorem run_reportAll
    (hstep : ∀ batch ∈ batches, ∀ k state, P k state →
      (callback.onIteration batch state).1 = .ok () ∧ P (k + 1) (callback.onIteration batch state).2)
    (next : Layout) {k : Nat} {state : σ} (h : P k state) :
    ∃ last, P (k + batches.length) last ∧
      (reportAll batches next).run callback state = next.run callback last := by
  induction batches generalizing k state with
  | nil => exact ⟨state, h, rfl⟩
  | cons batch rest ih =>
      obtain ⟨hbatch, hrest⟩ := List.forall_mem_cons.mp hstep
      obtain ⟨hok, hnext⟩ := hbatch k state h
      obtain ⟨last, hlast, hrun⟩ := ih hrest hnext
      refine ⟨last, ?_, ?_⟩
      · rw [List.length_cons, Nat.add_comm rest.length, ← Nat.add_assoc]
        exact hlast
      · rw [reportAll, run_report, hok]
        exact hrun

end Layout

namespace Jitter

variable {n : Nat} (jitter : Jitter) (links : List (Fin n × Fin n))

/-- The batches of some iterations. -/
def batches : Nat → Vector Point n → UInt64 → List PositionBuffer
  | 0, _, _ => []
  | left + 1, places, state =>
    let moved := (jitter.step links places).run state
    batch moved.1 :: batches left moved.1 moved.2

theorem rounds_succ (left : Nat) (places : Vector Point n) (state : UInt64) :
    jitter.rounds links (left + 1) places state =
      .report (batch ((jitter.step links places).run state).1) (.whenOk fun _ =>
        jitter.rounds links left ((jitter.step links places).run state).1
          ((jitter.step links places).run state).2) := rfl

theorem rounds_eq (iterations : Nat) (places : Vector Point n) (state : UInt64) :
    jitter.rounds links iterations places state =
      .reportAll (jitter.batches links iterations places state) (.close .finish) := by
  induction iterations generalizing places state with
  | zero => rfl
  | succ left ih =>
      rw [rounds_succ, ih]
      rfl

/-- Batch `k`. -/
def batchAt (k : Nat) (places : Vector Point n) (state : UInt64) : PositionBuffer :=
  let moved := (jitter.step links places).run state
  match k with
  | 0 => batch moved.1
  | k + 1 => batchAt k moved.1 moved.2

/-- However many iterations there are, the batches are these. -/
theorem batches_eq (iterations : Nat) (places : Vector Point n) (state : UInt64) :
    jitter.batches links iterations places state =
      (List.range iterations).map fun k => jitter.batchAt links k places state := by
  induction iterations generalizing places state with
  | zero => rfl
  | succ left ih =>
      rw [batches, ih, map_range_succ]
      rfl

/-- A batch has one pair of coordinates a node. -/
theorem exists_pairs_of_batchAt (k : Nat) (places : Vector Point n) (state : UInt64) :
    ∃ pairs : List (UInt32 × UInt32), pairs.length = n ∧
      jitter.batchAt links k places state = .singles (interleave pairs) := by
  induction k generalizing places state with
  | zero =>
      refine ⟨((jitter.step links places).run state).1.toList.map fun place =>
        (place.x.toBits, place.y.toBits), by simp, ?_⟩
      rw [batchAt, batch, interleave, List.flatMap_map]
  | succ k ih => exact ih _ _

/-- The layout of a graph that was accepted has batches of one pair of coordinates a node. It
reports as many of them as it has iterations and then closes. -/
theorem exists_batches {nodes : NodeTable} {edges : EdgeTable} {graph : Graph}
    (hgraph : Graph.ofTables nodes edges = .ok graph) :
    ∃ batches : Nat → PositionBuffer,
      (∀ k, ∃ pairs : List (UInt32 × UInt32), pairs.length = nodes.length ∧
        batches k = .singles (interleave pairs)) ∧
      ∀ iterations, jitter.layout graph iterations =
        .reportAll ((List.range iterations).map batches) (.close .finish) := by
  obtain ⟨⟨⟩, hvalid, hpair⟩ := bind_eq_ok_iff.mp hgraph
  obtain rfl := pure_eq_ok_iff.mp hpair
  obtain ⟨links?, hlinks, -⟩ := map_eq_ok_iff.mp hvalid
  refine ⟨fun k => jitter.batchAt (links?.getD []) k (circle nodes.length) (jitter.seed ||| 1),
    fun k => exists_pairs_of_batchAt jitter _ k _ _, fun iterations => ?_⟩
  simp only [layout, hlinks, rounds_eq, batches_eq]
  rfl

/-- The batches of a number of iterations. -/
theorem layout_eq_reportAll {nodes : NodeTable} {edges : EdgeTable} {graph : Graph}
    (hgraph : Graph.ofTables nodes edges = .ok graph) (iterations : Nat) :
    ∃ batches : List PositionBuffer, batches.length = iterations ∧
      jitter.layout graph iterations = .reportAll batches (.close .finish) ∧
      ∀ buffer ∈ batches, ∃ pairs : List (UInt32 × UInt32), pairs.length = nodes.length ∧
        buffer = .singles (interleave pairs) := by
  obtain ⟨batches, hpairs, hlayout⟩ := jitter.exists_batches hgraph
  refine ⟨(List.range iterations).map batches, by simp, hlayout iterations, ?_⟩
  intro buffer hbuffer
  obtain ⟨k, -, rfl⟩ := List.mem_map.mp hbuffer
  exact hpairs k

end Jitter

end LiveLayout
