import LiveLayout.Layout.Recording
import LiveLayout.Proofs.Graph.Validated
import LiveLayout.Proofs.Layout.Buffers

/-!
# Reports of a jitter layout

What a callback is told is kept in a log beside its state, with its answers. The log of a jitter
layout is its batches in order and then the closing call, or it ends with the first batch that was
refused. The batches do not depend on the answers, on the state of the callback or on the number of
iterations.
-/

namespace LiveLayout

/-- What a callback was told, and how it answered. -/
inductive Report where
  | batch (buffer : PositionBuffer) (answer : Except StreamError Unit)
  | closing (answer : Except StreamError Unit)

/-- The callback with a log of what it was told beside its state. -/
def Callback.logged {σ : Type} (callback : Callback σ) : Callback (σ × List Report) where
  onIteration buffer entry :=
    let (answer, state) := callback.onIteration buffer entry.1
    (answer, state, entry.2 ++ [.batch buffer answer])
  onClose entry :=
    let (answer, state) := callback.onClose entry.1
    (answer, state, entry.2 ++ [.closing answer])

/-- The batches were taken. -/
def Report.accepted (batches : Nat → PositionBuffer) (count : Nat) : List Report :=
  (List.range count).map fun k => .batch (batches k) (.ok ())

/-- The outcome of a layout and its log: all batches were taken and the closing call gives the
outcome, or a batch was refused, which ends the log and is the outcome. -/
inductive Told (batches : Nat → PositionBuffer) (iterations : Nat) :
    Except StreamError Unit → List Report → Prop where
  | closed (answer : Except StreamError Unit) :
      Told batches iterations answer (Report.accepted batches iterations ++ [.closing answer])
  | refused {k : Nat} (h : k < iterations) (error : StreamError) :
      Told batches iterations (.error error)
        (Report.accepted batches k ++ [.batch (batches k) (.error error)])

section Log

variable {σ : Type} {batches : Nat → PositionBuffer} {iterations : Nat}
  {outcome : Except StreamError Unit} {log : List Report}

theorem Report.accepted_succ (batches : Nat → PositionBuffer) (count : Nat) :
    Report.accepted batches (count + 1) =
      .batch (batches 0) (.ok ()) :: Report.accepted (fun k => batches (k + 1)) count :=
  map_range_succ _ count

theorem Report.length_accepted (batches : Nat → PositionBuffer) (count : Nat) :
    (Report.accepted batches count).length = count := by
  rw [Report.accepted, List.length_map, List.length_range]

/-- A batch that was taken comes before the rest of the log. -/
theorem Told.cons (h : Told (fun k => batches (k + 1)) iterations outcome log) :
    Told batches (iterations + 1) outcome (.batch (batches 0) (.ok ()) :: log) := by
  cases h with
  | closed answer =>
      rw [← List.cons_append, ← Report.accepted_succ]
      exact .closed outcome
  | refused h error =>
      rw [← List.cons_append, ← Report.accepted_succ]
      exact .refused (Nat.succ_lt_succ h) error

/-- Whatever comes of a layout, the batch that it reports in place `k` is batch `k`. -/
theorem Told.batch_eq (h : Told batches iterations outcome log) {k : Nat}
    {buffer : PositionBuffer} {answer : Except StreamError Unit}
    (hreport : log[k]? = some (.batch buffer answer)) : buffer = batches k := by
  have haccepted : ∀ {count : Nat}, k < count → ∀ later,
      (Report.accepted batches count ++ later)[k]? = some (.batch (batches k) (.ok ())) := by
    intro count hk later
    rw [List.getElem?_append_left (by rw [Report.length_accepted]; exact hk), Report.accepted,
      List.getElem?_map, List.getElem?_range hk, Option.map_some]
  have hlast : ∀ {count : Nat} {report : Report}, count ≤ k →
      (Report.accepted batches count ++ [report])[k]? = some (.batch buffer answer) →
        k = count ∧ report = .batch buffer answer := by
    intro count report hk hfound
    rw [List.getElem?_append_right (by rw [Report.length_accepted]; exact hk),
      Report.length_accepted] at hfound
    rcases hk.eq_or_lt with rfl | hlt
    · rw [Nat.sub_self] at hfound
      exact ⟨rfl, Option.some.inj hfound⟩
    · rw [List.getElem?_eq_none (Nat.le_sub_of_add_le' hlt)] at hfound
      cases hfound
  cases h with
  | closed outcome =>
      rcases lt_or_ge k iterations with hk | hk
      · rw [haccepted hk] at hreport
        cases hreport
        rfl
      · cases (hlast hk hreport).2
  | @refused last h error =>
      rcases lt_or_ge k last with hk | hk
      · rw [haccepted hk] at hreport
        cases hreport
        rfl
      · obtain ⟨rfl, hsame⟩ := hlast hk hreport
        cases hsame
        rfl

/-- Keeping a log changes neither the outcome nor the state of the callback. -/
theorem Layout.run_logged (layout : Layout) (callback : Callback σ) (state : σ)
    (log : List Report) :
    layout.run callback state =
      ((layout.run callback.logged (state, log)).1,
        (layout.run callback.logged (state, log)).2.1) := by
  induction layout generalizing state log with
  | finish outcome => rfl
  | report batch next ih => exact ih _ _ _
  | close next ih => exact ih _ _ _

/-- Batches that are reported in order before a closing call leave such a log. -/
theorem Layout.told_reportAll (batches : Nat → PositionBuffer) (iterations : Nat)
    (callback : Callback σ) (state : σ) (log : List Report) :
    let layout := reportAll ((List.range iterations).map batches) (.close .finish)
    ∃ told, (layout.run callback.logged (state, log)).2.2 = log ++ told ∧
      Told batches iterations (layout.run callback.logged (state, log)).1 told := by
  induction iterations generalizing batches state log with
  | zero => exact ⟨_, rfl, .closed _⟩
  | succ left ih =>
      intro layout
      have hlayout : layout = .report (batches 0) (.whenOk fun _ =>
          reportAll ((List.range left).map fun k => batches (k + 1)) (.close .finish)) := by
        simp only [layout, map_range_succ, reportAll]
      rw [hlayout, run_report]
      rcases hanswer : callback.onIteration (batches 0) state with ⟨error | ⟨⟨⟩⟩, next⟩
      · simp only [Callback.logged, hanswer]
        exact ⟨[.batch (batches 0) (.error error)], rfl, .refused (Nat.succ_pos left) error⟩
      · obtain ⟨told, hlog, htold⟩ :=
          ih (fun k => batches (k + 1)) next (log ++ [.batch (batches 0) (.ok ())])
        rw [List.append_assoc] at hlog
        simp only [Callback.logged, hanswer]
        exact ⟨_, hlog, htold.cons⟩

end Log

namespace Jitter

/-- The jitter layout of a graph that was accepted. Over flat buffers with two values a node no
access is out of range, whatever the callback answers, and the run is that of the layout. The
batches, of two values a node, are known beforehand: neither the number of iterations nor the
callback, nor what was run before, changes any of them. They are reported in order, as many as there
are iterations, and then the closing call is made once and decides the outcome; but the first that
is refused is the last thing that the callback is told, and its error is the outcome. -/
theorem batches_reported {nodes : NodeTable} {edges : EdgeTable} {graph : Graph}
    (hnodes : nodes.Proper) (hgraph : Graph.ofTables nodes edges = .ok graph) (jitter : Jitter) :
    ∃ batches : Nat → PositionBuffer,
      (∀ k, ∃ values : List UInt32, batches k = .singles values ∧
        values.length = 2 * nodes.length) ∧
      ∀ (iterations : Nat) {σ : Type} (callback : Callback σ) (state : σ),
        let layout := jitter.layout graph iterations
        let logged := layout.run callback.logged (state, [])
        jitter.runFlat graph iterations callback state = some (layout.run callback state) ∧
        layout.run callback state = (logged.1, logged.2.1) ∧
        Told batches iterations logged.1 logged.2.2 := by
  obtain ⟨batches, hpairs, hlayout⟩ := jitter.exists_batches hgraph
  refine ⟨batches, fun k => ?_, fun iterations σ callback state => ?_⟩
  · obtain ⟨pairs, hlength, hbatch⟩ := hpairs k
    exact ⟨interleave pairs, hbatch, by rw [length_interleave, hlength]⟩
  · intro layout logged
    obtain ⟨told, hlog, htold⟩ := Layout.told_reportAll batches iterations callback state []
    rw [← hlayout, List.nil_append] at hlog
    rw [← hlayout, ← hlog] at htold
    exact ⟨jitter.runFlat_eq hnodes hgraph iterations callback state,
      layout.run_logged callback state [], htold⟩

/-- Two iterations over two nodes that an edge joins: a recording that takes both batches is closed,
and one that is full after the first refuses the second. -/
theorem batches_reported_refused :
    let nodes : NodeTable :=
      ⟨[(ColumnName.id, .int [7, 9]), (ColumnName.color, .int [0, 1]),
        (ColumnName.size, .int [10, 20])], 2⟩
    let edges : EdgeTable :=
      ⟨[(ColumnName.edge, .int [0]), (ColumnName.src, .int [9]), (ColumnName.dst, .int [7]),
        (ColumnName.bundle, .int [0]), (ColumnName.color, .int [0])], 1⟩
    let layout := (ofSeed 7).layout ⟨nodes, edges⟩ 2
    let log (limit? : Option Nat) : List Report :=
      (layout.run (Recording.callback limit?).logged (.blank, [])).2.2
    nodes.Proper ∧ Graph.ofTables nodes edges = .ok ⟨nodes, edges⟩ ∧
    ∃ first second : List UInt32, first.length = 4 ∧ second.length = 4 ∧
      log none = [.batch (.singles first) (.ok ()), .batch (.singles second) (.ok ()),
        .closing (.ok ())] ∧
      ∃ error, log (some 1) =
        [.batch (.singles first) (.ok ()), .batch (.singles second) (.error error)] := by
  intro nodes edges layout log
  have hunique : firstRepeat? ∅ [Label.int 7, .int 9] = none := by simp [firstRepeat?]
  have hnodes : nodes.Proper :=
    ⟨⟨by decide, by decide⟩,
      NodeTable.ofTable_ok rfl rfl rfl (by decide) (by decide) rfl hunique⟩
  have hedges : edges.Proper := ⟨⟨by decide, by decide⟩, rfl⟩
  have hanchored : ∀ edge, edges.Anchored nodes edge := by
    intro edge id hid
    obtain rfl : edge = 0 := Nat.lt_one_iff.mp (hedges.lt_length hid)
    obtain rfl | rfl := hid.imp Option.some.inj Option.some.inj
    · exact ⟨1, rfl⟩
    · exact ⟨0, rfl⟩
  have hgraph := (Graph.ofTables_eq_ok_iff hnodes hedges).mpr ⟨hanchored, rfl⟩
  obtain ⟨own, -, hlayout⟩ := (ofSeed 7).exists_batches hgraph
  have hnone : log none =
      [.batch (own 0) (.ok ()), .batch (own 1) (.ok ()), .closing (.ok ())] := by
    simp only [log, layout, hlayout]
    rfl
  have hsome : ∃ error, log (some 1) =
      [.batch (own 0) (.ok ()), .batch (own 1) (.error error)] := by
    simp only [log, layout, hlayout]
    exact ⟨_, rfl⟩
  obtain ⟨batches, hvalues, hrun⟩ := batches_reported hnodes hgraph (ofSeed 7)
  obtain ⟨-, -, htold⟩ := hrun 2 (Recording.callback none) .blank
  have hfirst : own 0 = batches 0 := htold.batch_eq (congrArg (·[0]?) hnone)
  have hsecond : own 1 = batches 1 := htold.batch_eq (congrArg (·[1]?) hnone)
  obtain ⟨first, hfirstValues, hfirstLength⟩ := hvalues 0
  obtain ⟨second, hsecondValues, hsecondLength⟩ := hvalues 1
  rw [hfirst, hsecond, hfirstValues, hsecondValues] at hnone hsome
  exact ⟨hnodes, hgraph, first, second, hfirstLength, hsecondLength, hnone, hsome⟩

end Jitter

end LiveLayout
