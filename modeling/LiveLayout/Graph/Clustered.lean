import LiveLayout.Graph.EdgeTable

/-!
# Clustered graphs

Synthetic graphs to lay out. Each cluster is a ring of nodes of one color with some chords, and a
bridge leads from the first node of each cluster to the first node of the next. Edges of a cluster
share its bundle, and each bridge has a bundle of its own.
-/

namespace LiveLayout.Clustered

/-- An edge by the rows it joins. -/
structure Link where
  src : Nat
  dst : Nat
  bundle : Nat
  color : Int
  deriving DecidableEq, Repr

/-- The size a node is drawn with: the first of a ring stands out. -/
def nodeSize (position : Nat) : Nat :=
  if position = 0 then 30 else 10 + position % 5 * 2

/-- The number of edges that close a ring: two nodes need one, a single node none. -/
def ringLength (perCluster : Nat) : Nat :=
  if perCluster ≤ 1 then 0 else if perCluster = 2 then 1 else perCluster

/-- The ring of a cluster. -/
def ring (perCluster cluster : Nat) : List Link :=
  (List.range (ringLength perCluster)).map fun position =>
    ⟨cluster * perCluster + position, cluster * perCluster + (position + 1) % perCluster,
      cluster, cluster⟩

/-- The chords of a cluster, each half a ring long. Rings of up to three nodes have none. -/
def chords (perCluster count cluster : Nat) : List Link :=
  if perCluster ≤ 3 then []
  else
    (List.range count).filterMap fun chord =>
      let src := cluster * perCluster + chord * 3 % perCluster
      let dst := cluster * perCluster + (chord * 3 + perCluster / 2) % perCluster
      if src = dst then none else some ⟨src, dst, cluster, cluster⟩

/-- The bridge to the next cluster, if there is another one to lead to. -/
def bridge (clusters perCluster cluster : Nat) : List Link :=
  if 1 < clusters ∧ 0 < perCluster then
    [⟨cluster * perCluster, (cluster + 1) % clusters * perCluster, clusters + cluster, -1⟩]
  else []

/-- All edges, cluster by cluster. -/
def links (clusters perCluster chordCount : Nat) : List Link :=
  (List.range clusters).flatMap fun cluster =>
    ring perCluster cluster ++ chords perCluster chordCount cluster ++
      bridge clusters perCluster cluster

/-- A natural number as an integer cell. -/
def cell (n : Nat) : Int64 := Int64.ofNat n

/-- The nodes, cluster by cluster. -/
def nodes (clusters perCluster : Nat) : Except SchemaError NodeTable :=
  let places := (List.range clusters).flatMap fun cluster =>
    (List.range perCluster).map fun position => (cluster, position)
  NodeTable.ofColumns
    (places.map fun (cluster, position) => cell (cluster * perCluster + position))
    (places.map fun (cluster, _) => cell cluster)
    (places.map fun (_, position) => cell (nodeSize position))

/-- The edges, numbered in order. -/
def edges (clusters perCluster chordCount : Nat) : Except SchemaError EdgeTable :=
  let all := links clusters perCluster chordCount
  EdgeTable.ofColumns ((List.range all.length).map cell)
    (all.map fun link => cell link.src) (all.map fun link => cell link.dst)
    (all.map fun link => cell link.bundle) (all.map fun link => Int64.ofInt link.color)

/-- The graph of `clusters` rings of `perCluster` nodes with up to `chordCount` chords each. -/
def graph (clusters perCluster chordCount : Nat) : Except SchemaError Graph := do
  let nodes ← nodes clusters perCluster
  let edges ← edges clusters perCluster chordCount
  Graph.ofTables nodes edges

end LiveLayout.Clustered

namespace LiveLayout

/-- The sizes that clustered graphs are offered in. -/
inductive DatasetKind where
  | small
  | large
  deriving DecidableEq, Repr

namespace DatasetKind

/-- The number of clusters and of nodes in each. -/
def dimensions : DatasetKind → Nat × Nat
  | small => (4, 8)
  | large => (32, 250)

/-- The name of a size. -/
def name : DatasetKind → String
  | small => "small"
  | large => "large"

/-- The size of exactly that name. -/
def ofName? (text : String) : Option DatasetKind :=
  if text = small.name then some small else if text = large.name then some large else none

/-- An upper-case letter of the Latin alphabet in lower case. -/
def lowerText (text : String) : String := text.map Char.toLower

/-- The size of a name in any mixture of cases, or the name in lower case if there is none. -/
def parse (text : String) : Except String DatasetKind :=
  let lower := lowerText text
  match ofName? lower with
  | some kind => .ok kind
  | none => .error lower

/-- The wording of a name that is no size. -/
def unknownMessage (lower : String) : String :=
  s!"unknown dataset '{lower}' (expected small or large)"

end DatasetKind

/-- A choice of clustered graph. -/
structure Dataset where
  kind : DatasetKind
  chordsPerCluster : Nat
  deriving DecidableEq, Repr

namespace Dataset

/-- The small graph with two chords a cluster. -/
def standard : Dataset := ⟨.small, 2⟩

/-- The graph chosen. -/
def build (dataset : Dataset) : Except SchemaError Graph :=
  let (clusters, perCluster) := dataset.kind.dimensions
  Clustered.graph clusters perCluster dataset.chordsPerCluster

end Dataset

end LiveLayout
