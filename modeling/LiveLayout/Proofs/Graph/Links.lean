import LiveLayout.Graph.Clustered
import Mathlib

/-!
# The edges of clustered graphs

Each cluster has as many edges as any other: first its ring, then its chords, last its bridge. So
the number of an edge tells its cluster and what it is for. Chords are half a ring long, which is
neither none of it nor one step, and no chord is left out. Along the rings and the bridges every
node is reached from the first one.
-/

namespace LiveLayout

section Blocks

variable {α : Type} {count size : Nat}

theorem length_flatMap_range {f : Nat → List α} (hsize : ∀ block, (f block).length = size)
    (count : Nat) : ((List.range count).flatMap f).length = count * size := by
  rw [List.length_flatMap, funext hsize, List.map_const', List.sum_replicate_nat, List.length_range]

/-- Where all blocks are of one size, an item is found by its block and its place there. -/
theorem getElem?_flatMap_range {f : Nat → List α} (hsize : ∀ block, (f block).length = size)
    {block place : Nat} (hblock : block < count) (hplace : place < size) :
    ((List.range count).flatMap f)[block * size + place]? = (f block)[place]? := by
  induction count with
  | zero => cases hblock
  | succ count ih =>
      rw [List.range_succ, List.flatMap_append, List.flatMap_singleton]
      have hlength := length_flatMap_range hsize count
      rcases Nat.lt_succ_iff_lt_or_eq.mp hblock with hearlier | rfl
      · have hinside : block * size + place < count * size := by
          have hnext := Nat.mul_le_mul_right size (Nat.succ_le_of_lt hearlier)
          rw [Nat.succ_mul] at hnext
          omega
        rw [List.getElem?_append_left (hlength.symm ▸ hinside), ih hearlier]
      · rw [List.getElem?_append_right (hlength.symm ▸ Nat.le_add_right _ _), hlength,
          Nat.add_sub_cancel_left]

/-- Items that are numbered block by block are numbered through. -/
theorem flatMap_range_map (f : Nat → Nat → α) (count size : Nat) :
    (List.range count).flatMap (fun block => (List.range size).map (f block)) =
      (List.range (count * size)).map fun item => f (item / size) (item % size) := by
  have hsize : ∀ block, ((List.range size).map (f block)).length = size := by simp
  apply List.ext_getElem?
  intro item
  rcases lt_or_ge item (count * size) with hitem | hitem
  · have hpos : 0 < size := Nat.pos_of_mul_pos_left (Nat.zero_lt_of_lt hitem)
    have hplace := Nat.mod_lt item hpos
    have hblock : item / size < count := Nat.div_lt_of_lt_mul (Nat.mul_comm count size ▸ hitem)
    conv_lhs => rw [← Nat.div_add_mod' item size, getElem?_flatMap_range hsize hblock hplace]
    simp [hplace, hitem]
  · rw [List.getElem?_eq_none, List.getElem?_eq_none]
    · simpa using hitem
    · rwa [length_flatMap_range hsize]

end Blocks

namespace Clustered

variable {clusters perCluster chordCount cluster : Nat}

/-! ## Chords -/

/-- A step around a ring that is not all of it ends elsewhere. -/
theorem add_mod_ne (size step place : Nat) (hpos : 0 < step) (hstep : step < size) :
    (place + step) % size ≠ place % size := by
  intro hsame
  have hstill : place + step ≡ place + 0 [MOD size] := hsame
  have hdvd := Nat.modEq_zero_iff_dvd.mp (Nat.ModEq.add_left_cancel' place hstill)
  exact absurd (Nat.le_of_dvd hpos hdvd) (not_le.mpr hstep)

/-- The chord of a number. -/
def chordLink (perCluster cluster chord : Nat) : Link :=
  ⟨cluster * perCluster + chord * 3 % perCluster,
    cluster * perCluster + (chord * 3 + perCluster / 2) % perCluster, cluster, cluster⟩

theorem chord_ends_ne (h : 3 < perCluster) (chord : Nat) :
    (chord * 3 + perCluster / 2) % perCluster ≠ chord * 3 % perCluster :=
  add_mod_ne perCluster (perCluster / 2) (chord * 3) (by omega) (by omega)

/-- No chord is left out, since none ends where it starts. -/
theorem chords_eq (h : 3 < perCluster) (count cluster : Nat) :
    chords perCluster count cluster = (List.range count).map (chordLink perCluster cluster) := by
  rw [chords, if_neg (by omega), ← List.filterMap_eq_map]
  apply List.filterMap_congr
  intro chord _
  have hne := chord_ends_ne h chord
  simp only [Function.comp_apply, chordLink]
  rw [if_neg]
  omega

/-- The number of chords of each cluster. -/
def chordLength (perCluster chordCount : Nat) : Nat := if 3 < perCluster then chordCount else 0

/-- The number of bridges from each cluster. -/
def bridgeLength (clusters perCluster : Nat) : Nat :=
  if 1 < clusters ∧ 0 < perCluster then 1 else 0

/-- The number of edges of each cluster, with the bridge from it. -/
def linksPerCluster (clusters perCluster chordCount : Nat) : Nat :=
  ringLength perCluster + chordLength perCluster chordCount + bridgeLength clusters perCluster

theorem lt_of_chord {chord : Nat} (h : chord < chordLength perCluster chordCount) :
    3 < perCluster ∧ chord < chordCount := by
  unfold chordLength at h
  split_ifs at h with hmany
  · exact ⟨hmany, h⟩
  · cases h

theorem length_ring (perCluster cluster : Nat) :
    (ring perCluster cluster).length = ringLength perCluster := by
  simp [ring]

theorem length_chords (perCluster count cluster : Nat) :
    (chords perCluster count cluster).length = chordLength perCluster count := by
  by_cases h : 3 < perCluster
  · rw [chords_eq h, List.length_map, List.length_range, chordLength, if_pos h]
  · rw [chords, if_pos (not_lt.mp h), chordLength, if_neg h, List.length_nil]

theorem length_bridge (clusters perCluster cluster : Nat) :
    (bridge clusters perCluster cluster).length = bridgeLength clusters perCluster := by
  unfold bridge bridgeLength
  split_ifs <;> rfl

/-! ## What an edge is for -/

/-- The edge of a ring that leaves a place. -/
def ringLink (perCluster cluster place : Nat) : Link :=
  ⟨cluster * perCluster + place, cluster * perCluster + (place + 1) % perCluster, cluster, cluster⟩

/-- The bridge from a cluster. -/
def bridgeLink (clusters perCluster cluster : Nat) : Link :=
  ⟨cluster * perCluster, (cluster + 1) % clusters * perCluster, clusters + cluster, -1⟩

/-- An edge by its place among those of its cluster. -/
inductive Part (clusters perCluster chordCount cluster : Nat) : Nat → Link → Prop where
  | ring {place : Nat} (h : place < ringLength perCluster) :
      Part clusters perCluster chordCount cluster place (ringLink perCluster cluster place)
  | chord {chord : Nat} (h : chord < chordLength perCluster chordCount) :
      Part clusters perCluster chordCount cluster (ringLength perCluster + chord)
        (chordLink perCluster cluster chord)
  | bridge (hnext : 1 < clusters) (hpos : 0 < perCluster) :
      Part clusters perCluster chordCount cluster
        (ringLength perCluster + chordLength perCluster chordCount)
        (bridgeLink clusters perCluster cluster)

/-- All edges of a cluster. -/
def block (clusters perCluster chordCount cluster : Nat) : List Link :=
  ring perCluster cluster ++ chords perCluster chordCount cluster ++
    bridge clusters perCluster cluster

theorem length_block (clusters perCluster chordCount cluster : Nat) :
    (block clusters perCluster chordCount cluster).length =
      linksPerCluster clusters perCluster chordCount := by
  rw [block, List.length_append, List.length_append, length_ring, length_chords, length_bridge,
    linksPerCluster]

theorem length_links (clusters perCluster chordCount : Nat) :
    (links clusters perCluster chordCount).length =
      clusters * linksPerCluster clusters perCluster chordCount :=
  length_flatMap_range (length_block clusters perCluster chordCount) clusters

theorem exists_part_of_block {place : Nat}
    (hplace : place < linksPerCluster clusters perCluster chordCount) (cluster : Nat) :
    ∃ link, (block clusters perCluster chordCount cluster)[place]? = some link ∧
      Part clusters perCluster chordCount cluster place link := by
  have hring := length_ring perCluster cluster
  have hchords := length_chords perCluster chordCount cluster
  rw [block, List.append_assoc]
  rcases lt_or_ge place (ringLength perCluster) with hplaceRing | hbehind
  · refine ⟨_, ?_, .ring hplaceRing⟩
    rw [List.getElem?_append_left (hring.symm ▸ hplaceRing), ring, List.getElem?_map,
      List.getElem?_range hplaceRing]
    rfl
  obtain ⟨chord, rfl⟩ := Nat.exists_eq_add_of_le hbehind
  rw [List.getElem?_append_right (hring.symm ▸ hbehind), hring, Nat.add_sub_cancel_left]
  rcases lt_or_ge chord (chordLength perCluster chordCount) with hchord | hbehind
  · obtain ⟨hmany, hcount⟩ := lt_of_chord hchord
    refine ⟨_, ?_, .chord hchord⟩
    rw [List.getElem?_append_left (hchords.symm ▸ hchord), chords_eq hmany, List.getElem?_map,
      List.getElem?_range hcount]
    rfl
  obtain ⟨rest, rfl⟩ := Nat.exists_eq_add_of_le hbehind
  have hrest : rest < bridgeLength clusters perCluster := by
    rw [linksPerCluster] at hplace
    omega
  have hbridge : 1 < clusters ∧ 0 < perCluster := by
    by_contra hnone
    rw [bridgeLength, if_neg hnone] at hrest
    cases hrest
  rw [bridgeLength, if_pos hbridge, Nat.lt_one_iff] at hrest
  subst hrest
  refine ⟨_, ?_, .bridge hbridge.1 hbridge.2⟩
  rw [List.getElem?_append_right (hchords.symm ▸ hbehind), hchords, Nat.add_zero, Nat.sub_self,
    bridge, if_pos hbridge]
  rfl

/-- The number of an edge tells its cluster, and its place there. -/
theorem part_of_getElem? {edge : Nat} {link : Link}
    (hlink : (links clusters perCluster chordCount)[edge]? = some link) :
    edge / linksPerCluster clusters perCluster chordCount < clusters ∧
      Part clusters perCluster chordCount (edge / linksPerCluster clusters perCluster chordCount)
        (edge % linksPerCluster clusters perCluster chordCount) link := by
  obtain ⟨hedge, -⟩ := List.getElem?_eq_some_iff.mp hlink
  rw [length_links] at hedge
  have hpos := Nat.pos_of_mul_pos_left (Nat.zero_lt_of_lt hedge)
  have hcluster := Nat.div_lt_of_lt_mul (Nat.mul_comm clusters _ ▸ hedge)
  obtain ⟨found, hfound, hpart⟩ := exists_part_of_block (Nat.mod_lt edge hpos)
    (edge / linksPerCluster clusters perCluster chordCount)
  have hblock := getElem?_flatMap_range (length_block clusters perCluster chordCount) hcluster
    (Nat.mod_lt edge hpos)
  rw [Nat.div_add_mod', hfound] at hblock
  obtain rfl := Option.some.inj (hblock.symm.trans hlink)
  exact ⟨hcluster, hpart⟩

/-! ## Ends -/

/-- Two nodes are next to each other on the ring of a cluster. -/
def NextTo (perCluster a b : Nat) : Prop :=
  (a + 1) % perCluster = b % perCluster ∨ (b + 1) % perCluster = a % perCluster

section Ends

variable {place : Nat} {link : Link}

theorem place_lt_of_ring (h : place < ringLength perCluster) :
    1 < perCluster ∧ place < perCluster := by
  unfold ringLength at h
  split_ifs at h <;> omega

/-- A row of nodes by its cluster and its place there. -/
theorem row_div (cluster : Nat) (h : place < perCluster) :
    (cluster * perCluster + place) / perCluster = cluster := by
  rw [Nat.mul_comm, Nat.mul_add_div (Nat.zero_lt_of_lt h), Nat.div_eq_of_lt h, Nat.add_zero]

theorem row_lt (hcluster : cluster < clusters) (h : place < perCluster) :
    cluster * perCluster + place < clusters * perCluster := by
  have hnext := Nat.mul_le_mul_right perCluster (Nat.succ_le_of_lt hcluster)
  rw [Nat.succ_mul] at hnext
  omega

theorem nextTo_ring (cluster place : Nat) :
    NextTo perCluster (ringLink perCluster cluster place).src
      (ringLink perCluster cluster place).dst := by
  left
  simp [ringLink, Nat.add_assoc]

/-- A chord is neither one step forth nor one step back. -/
theorem not_nextTo_chord (h : 3 < perCluster) (cluster chord : Nat) :
    ¬ NextTo perCluster (chordLink perCluster cluster chord).src
      (chordLink perCluster cluster chord).dst := by
  have hforth := add_mod_ne perCluster (perCluster / 2 - 1) (chord * 3 + 1) (by omega) (by omega)
  have hback := add_mod_ne perCluster (perCluster / 2 + 1) (chord * 3) (by omega) (by omega)
  simp only [NextTo, chordLink, Nat.add_assoc, Nat.mul_add_mod', Nat.mod_mod, Nat.mod_add_mod]
  rintro (hnext | hnext)
  · rw [show chord * 3 + 1 + (perCluster / 2 - 1) = chord * 3 + perCluster / 2 by omega] at hforth
    exact hforth hnext.symm
  · exact hback hnext

/-- Both ends of an edge are in a cluster, and so are its bundle and its color. -/
structure Inside (perCluster cluster : Nat) (link : Link) : Prop where
  src : link.src / perCluster = cluster
  dst : link.dst / perCluster = cluster
  bundle : link.bundle = cluster
  color : link.color = cluster

/-- An edge of a ring or a chord is inside its cluster, and only the former joins nodes that are
next to each other. The edge behind them is a bridge. -/
theorem Part.inside_or_bridge (h : Part clusters perCluster chordCount cluster place link) :
    Inside perCluster cluster link ∧
        (NextTo perCluster link.src link.dst ↔ place < ringLength perCluster) ∨
      place = ringLength perCluster + chordLength perCluster chordCount ∧
        link = bridgeLink clusters perCluster cluster := by
  cases h with
  | ring hplace =>
      obtain ⟨hsize, hinside⟩ := place_lt_of_ring hplace
      left
      have hmod := Nat.mod_lt (place + 1) (Nat.zero_lt_of_lt hsize)
      refine ⟨⟨row_div cluster hinside, row_div cluster hmod, rfl, rfl⟩, ?_⟩
      exact iff_of_true (nextTo_ring cluster place) hplace
  | @chord chord hchord =>
      obtain ⟨hmany, -⟩ := lt_of_chord hchord
      have hmod : ∀ step, step % perCluster < perCluster := fun step => Nat.mod_lt step (by omega)
      left
      refine ⟨⟨row_div cluster (hmod _), row_div cluster (hmod _), rfl, rfl⟩, ?_⟩
      exact iff_of_false (not_nextTo_chord hmany cluster chord) (by omega)
  | bridge hnext hpos => exact Or.inr ⟨rfl, rfl⟩

theorem Part.src_ne_dst (h : Part clusters perCluster chordCount cluster place link)
    (hcluster : cluster < clusters) : link.src ≠ link.dst := by
  cases h with
  | ring hplace =>
      obtain ⟨hsize, hinside⟩ := place_lt_of_ring hplace
      have hne := add_mod_ne perCluster 1 place Nat.one_pos hsize
      rw [Nat.mod_eq_of_lt hinside] at hne
      simp only [ringLink]
      omega
  | @chord chord hchord =>
      obtain ⟨hmany, -⟩ := lt_of_chord hchord
      have hne := chord_ends_ne hmany chord
      simp only [chordLink]
      omega
  | bridge hnext hpos =>
      have hne := add_mod_ne clusters 1 cluster Nat.one_pos hnext
      rw [Nat.mod_eq_of_lt hcluster] at hne
      intro hsame
      exact hne (Nat.eq_of_mul_eq_mul_right hpos hsame).symm

/-- Ends of edges are nodes. -/
theorem Part.ends_lt (h : Part clusters perCluster chordCount cluster place link)
    (hcluster : cluster < clusters) :
    link.src < clusters * perCluster ∧ link.dst < clusters * perCluster := by
  cases h with
  | ring hplace =>
      obtain ⟨hsize, hinside⟩ := place_lt_of_ring hplace
      exact ⟨row_lt hcluster hinside,
        row_lt hcluster (Nat.mod_lt _ (Nat.zero_lt_of_lt hsize))⟩
  | chord hchord =>
      obtain ⟨hmany, -⟩ := lt_of_chord hchord
      have hpos : 0 < perCluster := by omega
      exact ⟨row_lt hcluster (Nat.mod_lt _ hpos), row_lt hcluster (Nat.mod_lt _ hpos)⟩
  | bridge hnext hpos =>
      exact ⟨Nat.mul_lt_mul_of_pos_right hcluster hpos,
        Nat.mul_lt_mul_of_pos_right (Nat.mod_lt _ (Nat.zero_lt_of_lt hnext)) hpos⟩

/-- Bundles are numbered through, first those inside clusters and then those of bridges. -/
theorem Part.numbers_lt (h : Part clusters perCluster chordCount cluster place link)
    (hcluster : cluster < clusters) :
    0 < perCluster ∧ link.bundle < 2 * clusters ∧ -1 ≤ link.color ∧ link.color < clusters := by
  cases h with
  | ring hplace =>
      obtain ⟨hsize, -⟩ := place_lt_of_ring hplace
      simp only [ringLink]
      omega
  | chord hchord =>
      obtain ⟨hmany, -⟩ := lt_of_chord hchord
      simp only [chordLink]
      omega
  | bridge hnext hpos =>
      simp only [bridgeLink]
      omega

/-- An edge by its number: inside a cluster, where only those of the ring join nodes that are next
to each other, or the bridge from its cluster. -/
structure Shaped (clusters perCluster chordCount edge : Nat) (link : Link) : Prop where
  src_ne_dst : link.src ≠ link.dst
  inside : link.bundle < clusters → Inside perCluster link.bundle link ∧
    (NextTo perCluster link.src link.dst ↔
      edge % linksPerCluster clusters perCluster chordCount < ringLength perCluster)
  bridge : clusters ≤ link.bundle → ∃ cluster < clusters,
    link = bridgeLink clusters perCluster cluster ∧
      edge = cluster * linksPerCluster clusters perCluster chordCount +
        (ringLength perCluster + chordLength perCluster chordCount)

theorem shaped_of_getElem? {edge : Nat}
    (hlink : (links clusters perCluster chordCount)[edge]? = some link) :
    Shaped clusters perCluster chordCount edge link := by
  obtain ⟨hcluster, hpart⟩ := part_of_getElem? hlink
  have hne := hpart.src_ne_dst hcluster
  rcases hpart.inside_or_bridge with ⟨hinside, hnext⟩ | ⟨hplace, hbridge⟩
  · refine ⟨hne, fun _ => ⟨hinside.bundle ▸ hinside, hnext⟩, fun hbehind => ?_⟩
    rw [hinside.bundle] at hbehind
    exact absurd hbehind (not_le.mpr hcluster)
  · refine ⟨hne, fun hbundle => ?_, fun _ => ⟨_, hcluster, hbridge, ?_⟩⟩
    · rw [hbridge] at hbundle
      exact absurd hbundle (not_lt.mpr (Nat.le_add_right _ _))
    · rw [← hplace, Nat.div_add_mod']

end Ends

/-! ## Ways -/

section Ways

variable {place : Nat}

theorem mem_links_ring (chordCount : Nat) (hcluster : cluster < clusters)
    (h : place < ringLength perCluster) :
    ringLink perCluster cluster place ∈ links clusters perCluster chordCount := by
  refine List.mem_flatMap.mpr ⟨cluster, List.mem_range.mpr hcluster, ?_⟩
  apply List.mem_append_left _ (List.mem_append_left _ _)
  exact List.mem_map.mpr ⟨place, List.mem_range.mpr h, rfl⟩

theorem mem_links_bridge (chordCount : Nat) (hcluster : cluster < clusters) (hnext : 1 < clusters)
    (hpos : 0 < perCluster) :
    bridgeLink clusters perCluster cluster ∈ links clusters perCluster chordCount := by
  refine List.mem_flatMap.mpr ⟨cluster, List.mem_range.mpr hcluster, ?_⟩
  apply List.mem_append_right
  rw [bridge, if_pos ⟨hnext, hpos⟩]
  exact List.mem_singleton_self _

variable {n : Nat} {G : SimpleGraph (Fin n)}

/-- Along its ring each node of a cluster is reached from the first. -/
theorem reachable_ring
    (hadj : ∀ link ∈ links clusters perCluster chordCount, ∀ a b : Fin n,
      a = link.src → b = link.dst → G.Adj a b)
    (hcluster : cluster < clusters) (hplace : place < perCluster) (a b : Fin n)
    (ha : a = cluster * perCluster) (hb : b = cluster * perCluster + place) : G.Reachable a b := by
  induction place generalizing b with
  | zero =>
      obtain rfl : a = b := Fin.ext (ha.trans hb.symm)
      exact SimpleGraph.Reachable.refl a
  | succ place ih =>
      have hring : place < ringLength perCluster := by
        unfold ringLength
        split_ifs <;> omega
      have hbefore : cluster * perCluster + place < n := by omega
      have hstep := hadj _ (mem_links_ring chordCount hcluster hring)
        ⟨cluster * perCluster + place, hbefore⟩ b rfl (by
          rw [hb, ringLink, Nat.mod_eq_of_lt hplace])
      exact (ih (Nat.lt_of_succ_lt hplace) _ rfl).trans hstep.reachable

/-- Along the bridges the first node of each cluster is reached from the first of all. -/
theorem reachable_first
    (hadj : ∀ link ∈ links clusters perCluster chordCount, ∀ a b : Fin n,
      a = link.src → b = link.dst → G.Adj a b)
    (hpos : 0 < perCluster) (hcluster : cluster < clusters) (a b : Fin n) (ha : a.val = 0)
    (hb : b = cluster * perCluster) : G.Reachable a b := by
  induction cluster generalizing b with
  | zero =>
      obtain rfl : a = b := Fin.ext (by rw [ha, hb, Nat.zero_mul])
      exact SimpleGraph.Reachable.refl a
  | succ cluster ih =>
      have hbefore : cluster * perCluster < n := by
        have hle := Nat.mul_le_mul_right perCluster (Nat.le_add_right cluster 1)
        omega
      have hstep := hadj _ (mem_links_bridge chordCount (Nat.lt_of_succ_lt hcluster)
        (by omega) hpos) ⟨cluster * perCluster, hbefore⟩ b rfl (by
          rw [hb, bridgeLink, Nat.mod_eq_of_lt hcluster])
      exact (ih (Nat.lt_of_succ_lt hcluster) _ rfl).trans hstep.reachable

/-- The nodes are all connected, if there are any. -/
theorem connected (hn : n = clusters * perCluster)
    (hadj : ∀ link ∈ links clusters perCluster chordCount, ∀ a b : Fin n,
      a = link.src → b = link.dst → G.Adj a b)
    (hclusters : 0 < clusters) (hpos : 0 < perCluster) : G.Connected := by
  rw [SimpleGraph.connected_iff_exists_forall_reachable]
  refine ⟨⟨0, hn ▸ Nat.mul_pos hclusters hpos⟩, fun node => ?_⟩
  have hcluster : node / perCluster < clusters :=
    Nat.div_lt_of_lt_mul (Nat.mul_comm clusters _ ▸ hn ▸ node.isLt)
  have hrow := Nat.div_add_mod' node perCluster
  have hfirst : node / perCluster * perCluster < n := by omega
  exact (reachable_first hadj hpos hcluster _ ⟨_, hfirst⟩ rfl rfl).trans
    (reachable_ring hadj hcluster (Nat.mod_lt node hpos) _ node rfl hrow.symm)

end Ways

end Clustered

end LiveLayout
