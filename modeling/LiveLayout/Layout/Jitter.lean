import LiveLayout.Graph.EdgeTable
import LiveLayout.Layout.Algorithm

/-!
# The jitter layout

A deterministic layout that stands in for a real one. Nodes start on a circle; each iteration
pulls the ends of every edge towards each other and nudges each coordinate by a pseudo-random
amount. All arithmetic is in single precision.
-/

namespace LiveLayout

/-- What a jitter layout is tuned by: the seed of its nudges, the part of its distance that an
edge pulls by, and the size of a nudge. -/
structure Jitter where
  seed : UInt64
  attraction : Float32
  amplitude : Float32

/-- A place in the plane. -/
structure Point where
  x : Float32
  y : Float32

namespace Jitter

/-- The layout of a seed with the usual strengths: 0.05 and 0.5. -/
def ofSeed (seed : UInt64) : Jitter :=
  ⟨seed, Float32.ofBits 0x3D4CCCCD, Float32.ofBits 0x3F000000⟩

/-- The seed unless told otherwise. -/
def standardSeed : UInt64 := 0x5EED

/-! ## Nudges -/

/-- The next state of the generator: three shifts, each added without carry. -/
def scramble (state : UInt64) : UInt64 :=
  let state := state ^^^ (state >>> 12)
  let state := state ^^^ (state <<< 25)
  state ^^^ (state >>> 27)

/-- The draw that a state gives: the top 24 bits of its product with an odd constant. -/
def draw (state : UInt64) : UInt64 := (state * 0x2545F4914F6CDD1D) >>> 40

/-- A draw as a number from -1 up to but not including 1. -/
def unit (draw : UInt64) : Float32 :=
  draw.toFloat32 / Float32.ofBits 0x4B800000 * Float32.ofBits 0x40000000 -
    Float32.ofBits 0x3F800000

/-- The next nudge, with the state of the generator after it. -/
def nextUnit : StateM UInt64 Float32 := fun state =>
  let state := scramble state
  (unit (draw state), state)

/-! ## Motion -/

/-- A natural number in single precision. -/
def singleOfNat (n : Nat) : Float32 := n.toUInt64.toFloat32

/-- Once around a circle: 2π. -/
def fullTurn : Float32 := Float32.ofBits 0x40C90FDB

/-- The nodes on a circle that grows with the square root of their number. -/
def circle (n : Nat) : Vector Point n :=
  let radius := (singleOfNat n).sqrt * Float32.ofBits 0x41200000
  Vector.ofFn fun node =>
    let angle := singleOfNat node / singleOfNat (max n 1) * fullTurn
    ⟨radius * angle.cos, radius * angle.sin⟩

/-- Adds the pull of an edge to both its ends. -/
def pull {n : Nat} (jitter : Jitter) (places : Vector Point n) (shifts : Vector Point n)
    (link : Fin n × Fin n) : Vector Point n :=
  let (source, target) := link
  let dx := (places[target].x - places[source].x) * jitter.attraction
  let dy := (places[target].y - places[source].y) * jitter.attraction
  let shifts := shifts.set source ⟨shifts[source].x + dx, shifts[source].y + dy⟩
  shifts.set target ⟨shifts[target].x - dx, shifts[target].y - dy⟩

/-- The pulls of all edges together. -/
def shifts {n : Nat} (jitter : Jitter) (links : List (Fin n × Fin n)) (places : Vector Point n) :
    Vector Point n :=
  links.foldl (jitter.pull places) (Vector.replicate n ⟨0, 0⟩)

/-- A place after its shift and two nudges. -/
def move (jitter : Jitter) (place shift : Point) : StateM UInt64 Point := do
  let nudgeX ← nextUnit
  let nudgeY ← nextUnit
  return ⟨place.x + (shift.x + jitter.amplitude * nudgeX),
    place.y + (shift.y + jitter.amplitude * nudgeY)⟩

/-- One iteration for all nodes. -/
def step {n : Nat} (jitter : Jitter) (links : List (Fin n × Fin n)) (places : Vector Point n) :
    StateM UInt64 (Vector Point n) :=
  (places.zip (jitter.shifts links places)).mapM fun (place, shift) => jitter.move place shift

/-- The places as interleaved coordinates. -/
def batch {n : Nat} (places : Vector Point n) : PositionBuffer :=
  .singles (places.toList.flatMap fun place => [place.x.toBits, place.y.toBits])

/-! ## The layout -/

/-- The iterations still to come, then the closing call. -/
def rounds {n : Nat} (jitter : Jitter) (links : List (Fin n × Fin n)) :
    Nat → Vector Point n → UInt64 → Layout
  | 0, _, _ => .close .finish
  | left + 1, places, state =>
    let (places, state) := (jitter.step links places).run state
    .report (batch places) (.whenOk fun _ => rounds jitter links left places state)

/-- The layout of a graph over some iterations. -/
def layout (jitter : Jitter) (graph : Graph) (iterations : Nat) : Layout :=
  match lift (graph.edges.endpoints graph.nodes) with
  | .error error => .finish (.error error)
  | .ok links? =>
    rounds jitter (links?.getD []) iterations (circle graph.nodes.length) (jitter.seed ||| 1)

end Jitter

end LiveLayout
