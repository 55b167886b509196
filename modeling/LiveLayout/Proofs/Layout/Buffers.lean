import LiveLayout.Proofs.Graph.Endpoints
import LiveLayout.Proofs.Layout.Jitter

/-!
# Layouts over flat buffers

A layout can keep its places in one buffer and the pulls of the edges in another, each with two
values a node, and reach both by twice the row of a node, as the index has it. Then an access can
be out of range. None is: the index holds rows of nodes only, so what the loop over the buffers
does is what the layout does.
-/

namespace LiveLayout

/-! ## Rows from the index -/

namespace NodeTable.Proper

/-- The index holds rows of nodes only. -/
theorem getElem?_rowIndex_eq {nodes : NodeTable} (h : nodes.Proper) (id : Label) :
    nodes.rowIndex[id]? = (nodes.row? nodes.rowIndex id).map Fin.val := by
  cases hfound : nodes.rowIndex[id]? with
  | none => rw [row?, hfound, Option.bind_none, Option.map_none]
  | some row =>
      have hinside := h.lt_length (h.getElem?_rowIndex.mp hfound)
      rw [row?, hfound, Option.bind_some, dif_pos hinside, Option.map_some]

end NodeTable.Proper

namespace EdgeTable

/-- The row of the node that an endpoint of edge `edge` names, as it stands in the index. -/
def endpointRow (index : Std.HashMap Label Nat) (edge : Nat) (cell : Cell) :
    Except SchemaError Nat :=
  match cell.label? with
  | none => .error .endpointNotLabel
  | some id =>
    match index[id]? with
    | none => .error (.unknownNode edge id)
    | some row => .ok row

/-- The rows of both endpoints of an edge, as they stand in the index. -/
def rowPair (index : Std.HashMap Label Nat) (entry : (Cell × Cell) × Nat) :
    Except SchemaError (Nat × Nat) := do
  let source ← endpointRow index entry.2 entry.1.1
  let target ← endpointRow index entry.2 entry.1.2
  return (source, target)

/-- The rows of the nodes that each edge joins, as they stand in the index; none if the table has
no endpoints. -/
def endpointRows (edges : EdgeTable) (nodes : NodeTable) : Except SchemaError (List (Nat × Nat)) :=
  match edges.table.column? ColumnName.src, edges.table.column? ColumnName.dst with
  | some src, some dst => (src.cells.zip dst.cells).zipIdx.mapM (rowPair nodes.rowIndex)
  | _, _ => .ok []

/-- Two rows as numbers. -/
def rows {n : Nat} (link : Fin n × Fin n) : Nat × Nat := (link.1, link.2)

section Rows

variable {nodes : NodeTable} {edges : EdgeTable}

theorem endpointRow_eq (h : nodes.Proper) (edge : Nat) (cell : Cell) :
    endpointRow nodes.rowIndex edge cell =
      Fin.val <$> endpoint nodes nodes.rowIndex edge cell := by
  unfold endpointRow endpoint
  cases cell.label? with
  | none => rfl
  | some id =>
      simp only [h.getElem?_rowIndex_eq]
      cases nodes.row? nodes.rowIndex id with
      | none => rfl
      | some row => rfl

theorem rowPair_eq (h : nodes.Proper) (entry : (Cell × Cell) × Nat) :
    rowPair nodes.rowIndex entry = rows <$> ends nodes entry := by
  rw [rowPair, ends, endpointRow_eq h, endpointRow_eq h]
  cases endpoint nodes nodes.rowIndex entry.2 entry.1.1 with
  | error error => rfl
  | ok source =>
      cases endpoint nodes nodes.rowIndex entry.2 entry.1.2 with
      | error error => rfl
      | ok target => rfl

/-- The rows as they stand in the index are those of the nodes. -/
theorem endpointRows_eq (h : nodes.Proper)
    {links? : Option (List (Fin nodes.length × Fin nodes.length))}
    (hlinks : edges.endpoints nodes = .ok links?) :
    edges.endpointRows nodes = .ok ((links?.getD []).map rows) := by
  have hnone : edges.endpoints nodes = .ok none →
      (.ok [] : Except SchemaError (List (Nat × Nat))) = .ok ((links?.getD []).map rows) := by
    intro h
    obtain rfl := Except.ok.inj (h.symm.trans hlinks)
    rfl
  cases hsrc : edges.table.column? ColumnName.src with
  | none =>
      simp only [endpointRows, hsrc]
      exact hnone (by simp only [endpoints, hsrc])
  | some src =>
      cases hdst : edges.table.column? ColumnName.dst with
      | none =>
          simp only [endpointRows, hsrc, hdst]
          exact hnone (by simp only [endpoints, hsrc, hdst])
      | some dst =>
          rw [endpoints_eq hsrc hdst] at hlinks
          obtain ⟨links, hresolved, rfl⟩ := map_eq_ok_iff.mp hlinks
          simp only [endpointRows, hsrc, hdst, Option.getD_some]
          rw [mapM_eq_ok_iff, List.forall₂_map_right_iff]
          refine (mapM_eq_ok_iff.mp hresolved).imp fun entry link hlink => ?_
          rw [rowPair_eq h, hlink]
          rfl

end Rows

end EdgeTable

/-! ## Two values a node -/

/-- The values of some places, two for each. -/
def coordinates (places : List Point) : List Float32 :=
  places.flatMap fun place => [place.x, place.y]

/-- Changes a value of a buffer, which there must be. -/
def changeAt (values : List Float32) (index : Nat) (f : Float32 → Float32) :
    Option (List Float32) :=
  values[index]?.map fun value => values.set index (f value)

section Coordinates

variable {places : List Point} {i : Nat} {place : Point}

theorem coordinates_cons (place : Point) (rest : List Point) :
    coordinates (place :: rest) = place.x :: place.y :: coordinates rest := rfl

@[simp] theorem length_coordinates (places : List Point) :
    (coordinates places).length = 2 * places.length := by
  induction places with
  | nil => rfl
  | cons place rest ih =>
      simp only [coordinates_cons, List.length_cons, ih]
      omega

/-- The values of the place in row `i`. -/
theorem getElem?_coordinates (h : places[i]? = some place) :
    (coordinates places)[2 * i]? = some place.x ∧
      (coordinates places)[2 * i + 1]? = some place.y := by
  induction places generalizing i with
  | nil => cases h
  | cons first rest ih =>
      cases i with
      | zero =>
          obtain rfl := Option.some.inj h
          exact ⟨rfl, rfl⟩
      | succ i => exact ih h

/-- Setting a value of the place in row `i`. -/
theorem set_coordinates (h : places[i]? = some place) (value : Float32) :
    (coordinates places).set (2 * i) value = coordinates (places.set i ⟨value, place.y⟩) ∧
      (coordinates places).set (2 * i + 1) value =
        coordinates (places.set i ⟨place.x, value⟩) := by
  induction places generalizing i with
  | nil => cases h
  | cons first rest ih =>
      cases i with
      | zero =>
          obtain rfl := Option.some.inj h
          exact ⟨rfl, rfl⟩
      | succ i =>
          obtain ⟨hx, hy⟩ := ih h
          exact ⟨congrArg (first.x :: first.y :: ·) hx, congrArg (first.x :: first.y :: ·) hy⟩

/-- Changing both values of a place, one after the other, changes the place. -/
theorem changeAt_coordinates (h : places[i]? = some place) (f g : Float32 → Float32) :
    (changeAt (coordinates places) (2 * i) f >>= fun values => changeAt values (2 * i + 1) g) =
      some (coordinates (places.set i ⟨f place.x, g place.y⟩)) := by
  have hinside : i < places.length := (List.getElem?_eq_some_iff.mp h).1
  have hnext : (places.set i ⟨f place.x, place.y⟩)[i]? = some ⟨f place.x, place.y⟩ :=
    List.getElem?_set_self hinside
  calc (changeAt (coordinates places) (2 * i) f >>= fun values => changeAt values (2 * i + 1) g)
      = changeAt (coordinates (places.set i ⟨f place.x, place.y⟩)) (2 * i + 1) g := by
        rw [changeAt, (getElem?_coordinates h).1, Option.map_some, (set_coordinates h _).1]
        rfl
    _ = some (coordinates ((places.set i ⟨f place.x, place.y⟩).set i ⟨f place.x, g place.y⟩)) := by
        rw [changeAt, (getElem?_coordinates hnext).2, Option.map_some, (set_coordinates hnext _).2]
    _ = some (coordinates (places.set i ⟨f place.x, g place.y⟩)) := by
        rw [List.set_set]

end Coordinates

theorem toList_mapM {α β : Type} {n : Nat} {m : Type → Type} [Monad m] [LawfulMonad m]
    (f : α → m β) (values : Vector α n) :
    Vector.toList <$> values.mapM f = values.toList.mapM f := by
  calc Vector.toList <$> values.mapM f
      = Array.toList <$> (Vector.toArray <$> values.mapM f) := by
        rw [Functor.map_map]
        rfl
    _ = Array.toList <$> values.toArray.mapM f := by rw [Vector.toArray_mapM]
    _ = values.toList.mapM f := Array.toList_mapM

namespace Jitter

/-! ## One iteration -/

/-- Adds the pull of an edge to the buffer of shifts, value by value. -/
def pullFlat (jitter : Jitter) (positions shifts : List Float32) (link : Nat × Nat) :
    Option (List Float32) := do
  let (a, b) := link
  let dx := (← positions[2 * b]?) - (← positions[2 * a]?)
  let dy := (← positions[2 * b + 1]?) - (← positions[2 * a + 1]?)
  let shifts ← changeAt shifts (2 * a) (· + dx * jitter.attraction)
  let shifts ← changeAt shifts (2 * a + 1) (· + dy * jitter.attraction)
  let shifts ← changeAt shifts (2 * b) (· - dx * jitter.attraction)
  changeAt shifts (2 * b + 1) (· - dy * jitter.attraction)

/-- Moves each value by its shift and a nudge, as far as there are shifts. -/
def nudgeFlat (jitter : Jitter) : List Float32 → List Float32 → StateM UInt64 (List Float32)
  | value :: values, shift :: shifts => do
    let nudge ← nextUnit
    let moved ← nudgeFlat jitter values shifts
    return (value + (shift + jitter.amplitude * nudge)) :: moved
  | values, _ => return values

section Iteration

variable {n : Nat} (jitter : Jitter)

/-- The rows of an edge are in range, and its pull on the buffer is that on the shifts. -/
theorem pullFlat_eq (places shifts : Vector Point n) (link : Fin n × Fin n) :
    jitter.pullFlat (coordinates places.toList) (coordinates shifts.toList)
        (EdgeTable.rows link) =
      some (coordinates (jitter.pull places shifts link).toList) := by
  obtain ⟨a, b⟩ := link
  have hrow (values : Vector Point n) (i : Fin n) :
      values.toList[(i : Nat)]? = some values[i] :=
    Vector.getElem?_toList.trans (Vector.getElem?_eq_getElem i.isLt)
  obtain ⟨hax, hay⟩ := getElem?_coordinates (hrow places a)
  obtain ⟨hbx, hby⟩ := getElem?_coordinates (hrow places b)
  let dx := (places[b].x - places[a].x) * jitter.attraction
  let dy := (places[b].y - places[a].y) * jitter.attraction
  let pulled := shifts.set a ⟨shifts[a].x + dx, shifts[a].y + dy⟩
  calc jitter.pullFlat (coordinates places.toList) (coordinates shifts.toList) (a, b)
      = ((changeAt (coordinates shifts.toList) (2 * a) (· + dx) >>= fun values =>
            changeAt values (2 * a + 1) (· + dy)) >>= fun values =>
          changeAt values (2 * b) (· - dx) >>= fun values =>
            changeAt values (2 * b + 1) (· - dy)) := by
        simp only [pullFlat, hax, hay, hbx, hby, bind_assoc]
        rfl
    _ = (changeAt (coordinates pulled.toList) (2 * b) (· - dx) >>= fun values =>
          changeAt values (2 * b + 1) (· - dy)) := by
        rw [changeAt_coordinates (hrow shifts a), ← Vector.toList_set a.isLt]
        rfl
    _ = some (coordinates (pulled.set b ⟨pulled[b].x - dx, pulled[b].y - dy⟩).toList) := by
        rw [changeAt_coordinates (hrow pulled b), ← Vector.toList_set b.isLt]

theorem foldlM_pullFlat (places : Vector Point n) (links : List (Fin n × Fin n))
    (shifts : Vector Point n) :
    (links.map EdgeTable.rows).foldlM (jitter.pullFlat (coordinates places.toList))
        (coordinates shifts.toList) =
      some (coordinates (links.foldl (jitter.pull places) shifts).toList) := by
  induction links generalizing shifts with
  | nil => rfl
  | cons link rest ih =>
      rw [List.map_cons, List.foldlM_cons, pullFlat_eq]
      exact ih (jitter.pull places shifts link)

/-- Both values of a node are nudged in turn, node after node. -/
theorem nudgeFlat_eq (places shifts : List Point) (h : places.length = shifts.length) :
    jitter.nudgeFlat (coordinates places) (coordinates shifts) =
      coordinates <$> (places.zip shifts).mapM fun (place, shift) => jitter.move place shift := by
  induction places generalizing shifts with
  | nil =>
      cases shifts with
      | nil => rfl
      | cons shift rest => cases h
  | cons place places ih =>
      cases shifts with
      | nil => cases h
      | cons shift shifts =>
          simp only [coordinates_cons, nudgeFlat, ih shifts (Nat.succ.inj h), List.zip_cons_cons,
            List.mapM_cons, move]
          funext state
          rfl

/-- The shifts of an iteration, computed in a buffer that was cleared, and the values moved by
them. -/
theorem step_flat (links : List (Fin n × Fin n)) (places : Vector Point n) :
    jitter.nudgeFlat (coordinates places.toList)
        (coordinates (jitter.shifts links places).toList) =
      (fun moved => coordinates moved.toList) <$> jitter.step links places := by
  rw [nudgeFlat_eq _ _ _ (by simp only [Vector.length_toList]), ← Vector.toList_zip,
    ← toList_mapM, Functor.map_map]
  rfl

end Iteration

/-! ## The loop -/

/-- What the loop keeps between iterations: the places, the shifts, which are cleared in each, and
the state of the generator. -/
structure Buffers where
  positions : List Float32
  shifts : List Float32
  state : UInt64

namespace Buffers

/-- The buffers before the first iteration, with the nodes on a circle. -/
def start (jitter : Jitter) (n : Nat) : Buffers where
  positions := (List.range n).flatMap fun node =>
    let radius := (singleOfNat n).sqrt * Float32.ofBits 0x41200000
    let angle := singleOfNat node / singleOfNat (max n 1) * fullTurn
    [radius * angle.cos, radius * angle.sin]
  shifts := List.replicate (n * 2) 0
  state := jitter.seed ||| 1

/-- One iteration; nothing where an access is out of range. -/
def advance (jitter : Jitter) (links : List (Nat × Nat)) (buffers : Buffers) :
    Option Buffers := do
  let shifts ← links.foldlM (jitter.pullFlat buffers.positions) (buffers.shifts.map fun _ => 0)
  let (positions, state) := (jitter.nudgeFlat buffers.positions shifts).run buffers.state
  return ⟨positions, shifts, state⟩

/-- The batch that is reported after an iteration. -/
def batch (buffers : Buffers) : PositionBuffer := .singles (buffers.positions.map Float32.toBits)

/-- The iterations still to come, then the closing call; a batch that is refused ends the loop. -/
def loop {σ : Type} (jitter : Jitter) (links : List (Nat × Nat)) (callback : Callback σ) :
    Nat → Buffers → σ → Option (Except StreamError Unit × σ)
  | 0, _, state => some (callback.onClose state)
  | left + 1, buffers, state => do
    let buffers ← buffers.advance jitter links
    match callback.onIteration buffers.batch state with
    | (.ok (), state) => loop jitter links callback left buffers state
    | (.error error, state) => return (.error error, state)

/-- The buffers of these places and shifts. -/
def ofPlaces {n : Nat} (places shifts : Vector Point n) (state : UInt64) : Buffers :=
  ⟨coordinates places.toList, coordinates shifts.toList, state⟩

section Loop

variable {n : Nat} (jitter : Jitter) (links : List (Fin n × Fin n)) (places shifts : Vector Point n)
  (state : UInt64)

/-- A buffer that is cleared holds no shift of any node. -/
theorem clear_eq : (coordinates shifts.toList).map (fun _ => (0 : Float32)) =
    coordinates (Vector.replicate n (⟨0, 0⟩ : Point)).toList := by
  have hlength : (coordinates shifts.toList).length =
      (coordinates (Vector.replicate n (⟨0, 0⟩ : Point)).toList).length := by
    rw [length_coordinates, length_coordinates, Vector.length_toList, Vector.length_toList]
  have hzero : ∀ value ∈ coordinates (Vector.replicate n (⟨0, 0⟩ : Point)).toList,
      value = 0 := by
    simp [coordinates]
  rw [List.map_const', hlength, List.eq_replicate_of_mem hzero, List.length_replicate]

theorem start_eq (n : Nat) :
    start jitter n = ofPlaces (circle n) (Vector.replicate n ⟨0, 0⟩) (jitter.seed ||| 1) := by
  have hshifts : List.replicate (n * 2) (0 : Float32) =
      coordinates (Vector.replicate n (⟨0, 0⟩ : Point)).toList := by
    rw [← clear_eq (Vector.replicate n (⟨0, 0⟩ : Point)), List.map_const', length_coordinates,
      Vector.length_toList, Nat.mul_comm]
  rw [start, ofPlaces, ← hshifts, coordinates, circle, Vector.toList_ofFn, List.ofFn_eq_map,
    List.flatMap_map, ← List.map_coe_finRange_eq_range, List.flatMap_map]

theorem batch_ofPlaces : (ofPlaces places shifts state).batch = Jitter.batch places := by
  rw [batch, Jitter.batch, ofPlaces, coordinates, List.map_flatMap]
  rfl

/-- An iteration makes no access out of range, and leaves the buffers of the places moved. -/
theorem advance_ofPlaces :
    (ofPlaces places shifts state).advance jitter (links.map EdgeTable.rows) =
      some (ofPlaces ((jitter.step links places).run state).1 (jitter.shifts links places)
        ((jitter.step links places).run state).2) := by
  have hshifts : (links.map EdgeTable.rows).foldlM (jitter.pullFlat (coordinates places.toList))
      ((coordinates shifts.toList).map fun _ => 0) =
        some (coordinates (jitter.shifts links places).toList) := by
    rw [clear_eq, foldlM_pullFlat]
    rfl
  simp only [advance, ofPlaces, hshifts, Option.bind_eq_bind, Option.bind_some, step_flat]
  rfl

/-- The loop makes no access out of range, and does what the layout does. -/
theorem loop_ofPlaces {σ : Type} (callback : Callback σ) (iterations : Nat) (heard : σ) :
    loop jitter (links.map EdgeTable.rows) callback iterations (ofPlaces places shifts state)
        heard =
      some ((jitter.rounds links iterations places state).run callback heard) := by
  induction iterations generalizing places shifts state heard with
  | zero => rfl
  | succ left ih =>
      rw [loop, advance_ofPlaces, rounds_succ, Layout.run_report]
      simp only [Option.bind_eq_bind, Option.bind_some, batch_ofPlaces]
      generalize (jitter.step links places).run state = moved
      rcases callback.onIteration (Jitter.batch moved.1) heard with ⟨_ | ⟨⟨⟩⟩, later⟩
      · rfl
      · exact ih moved.1 _ moved.2 later

end Loop

end Buffers

/-- The layout of a graph, run over flat buffers against a callback; nothing where an access is out
of range. -/
def runFlat {σ : Type} (jitter : Jitter) (graph : Graph) (iterations : Nat)
    (callback : Callback σ) (heard : σ) : Option (Except StreamError Unit × σ) :=
  match lift (graph.edges.endpointRows graph.nodes) with
  | .error error => some (.error error, heard)
  | .ok links =>
    Buffers.loop jitter links callback iterations (.start jitter graph.nodes.length) heard

/-- Over a graph that was accepted no access is out of range, and the run is that of the layout. -/
theorem runFlat_eq {nodes : NodeTable} {edges : EdgeTable} {graph : Graph}
    (hnodes : nodes.Proper) (hgraph : Graph.ofTables nodes edges = .ok graph) (jitter : Jitter)
    (iterations : Nat) {σ : Type} (callback : Callback σ) (heard : σ) :
    jitter.runFlat graph iterations callback heard =
      some ((jitter.layout graph iterations).run callback heard) := by
  obtain ⟨⟨⟩, hvalid, hpair⟩ := bind_eq_ok_iff.mp hgraph
  obtain rfl := pure_eq_ok_iff.mp hpair
  obtain ⟨links?, hlinks, -⟩ := map_eq_ok_iff.mp hvalid
  have hflat : lift (edges.endpointRows nodes) =
      .ok ((links?.getD []).map EdgeTable.rows) := by
    rw [EdgeTable.endpointRows_eq hnodes hlinks]
    rfl
  simp only [runFlat, layout, hlinks, hflat, Buffers.start_eq]
  exact Buffers.loop_ofPlaces jitter _ _ _ _ callback iterations heard

end Jitter

end LiveLayout
