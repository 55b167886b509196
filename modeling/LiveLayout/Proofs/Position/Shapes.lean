import LiveLayout.Proofs.Position.Interleaved

/-!
# Shapes of position buffers

Coordinates come interleaved or with one list an axis, in single or double precision. Reading gives
the same coordinates whatever the shape, and a buffer that has no whole number of rows is refused
by its row count and by reading alike.
-/

namespace LiveLayout

variable {α : Type}

/-- A list of even length is made of pairs. -/
theorem exists_interleave : ∀ {values : List α}, values.length % 2 = 0 →
    ∃ pairs, values = interleave pairs
  | [], _ => ⟨[], rfl⟩
  | [_], h => absurd h Nat.one_ne_zero
  | first :: second :: rest, h => by
      rw [List.length_cons, List.length_cons, Nat.add_assoc, Nat.add_mod_right] at h
      obtain ⟨pairs, rfl⟩ := exists_interleave h
      exact ⟨(first, second) :: pairs, rfl⟩

namespace PositionBuffer

/-- The buffer has no whole number of rows: a coordinate is without its partner. -/
def Ragged : PositionBuffer → Prop
  | singles interleaved => interleaved.length % 2 = 1
  | doubles interleaved => interleaved.length % 2 = 1
  | columnar x y => x.length ≠ y.length

theorem rows_doubles (pairs : List (UInt64 × UInt64)) :
    (doubles (interleave pairs)).rows = .ok pairs.length :=
  pairs_interleave pairs

theorem positions_doubles (pairs : List (UInt64 × UInt64)) :
    (doubles (interleave pairs)).positions =
      .ok ⟨(pairs.map Prod.fst).map Binary32.ofBinary64,
        (pairs.map Prod.snd).map Binary32.ofBinary64⟩ := by
  rw [positions, pairs_interleave, everyOther_interleave, everyOther_drop_interleave]
  rfl

theorem rows_columnar {x y : List UInt32} (h : x.length = y.length) :
    (columnar x y).rows = .ok x.length := by
  rw [rows, if_neg (not_not.mpr h)]

theorem positions_columnar {x y : List UInt32} (h : x.length = y.length) :
    (columnar x y).positions = .ok ⟨x, y⟩ := by
  rw [positions, rows_columnar h]
  rfl

/-- A list of odd length is refused. -/
theorem pairs_of_odd {length : Nat} (h : length % 2 = 1) :
    pairs length = .error (.oddMatrix length) := by
  rw [pairs, if_pos (by rw [h]; exact Nat.one_ne_zero)]

/-- A buffer that is ragged is refused by counting and by reading; one that is not has a pair of
coordinates a row. -/
theorem rows_cases (buffer : PositionBuffer) :
    (buffer.Ragged ∧ ∃ error, buffer.rows = .error error ∧ buffer.positions = .error error) ∨
      ¬ buffer.Ragged ∧ ∃ positions : Positions, buffer.positions = .ok positions ∧
        buffer.rows = .ok positions.x.length ∧ positions.y.length = positions.x.length := by
  cases buffer with
  | singles interleaved =>
      rcases Nat.mod_two_eq_zero_or_one interleaved.length with heven | hodd
      · obtain ⟨pairs, rfl⟩ := exists_interleave heven
        refine .inr ⟨by rw [Ragged, heven]; exact Nat.zero_ne_one, _, positions_singles pairs, ?_⟩
        simp [rows_singles]
      · refine .inl ⟨hodd, _, pairs_of_odd hodd, ?_⟩
        rw [positions, pairs_of_odd hodd]
        rfl
  | doubles interleaved =>
      rcases Nat.mod_two_eq_zero_or_one interleaved.length with heven | hodd
      · obtain ⟨pairs, rfl⟩ := exists_interleave heven
        refine .inr ⟨by rw [Ragged, heven]; exact Nat.zero_ne_one, _, positions_doubles pairs, ?_⟩
        simp [rows_doubles]
      · refine .inl ⟨hodd, _, pairs_of_odd hodd, ?_⟩
        rw [positions, pairs_of_odd hodd]
        rfl
  | columnar x y =>
      by_cases h : x.length = y.length
      · exact .inr ⟨not_not.mpr h, _, positions_columnar h, rows_columnar h, h.symm⟩
      · refine .inl ⟨h, .columnarLengths x.length y.length, ?_, ?_⟩
        · rw [rows, if_pos h]
        · rw [positions, rows, if_pos h]
          rfl

end PositionBuffer

namespace PositionMapper

/-- The same coordinates are read from every shape they can come in, bit for bit, doubles each
narrowed by itself, and there are as many rows as coordinates on an axis. A buffer is refused by its
row count exactly if it is refused by reading, with the same error, and exactly if it is ragged;
else both axes have as many coordinates as there are rows. -/
theorem shapes_agree :
    (∀ x y : List UInt32, x.length = y.length →
      standard (.singles (interleave (x.zip y))) = .ok ⟨x, y⟩ ∧
      standard (.columnar x y) = .ok ⟨x, y⟩ ∧
      (PositionBuffer.singles (interleave (x.zip y))).rows = .ok x.length ∧
      (PositionBuffer.columnar x y).rows = .ok x.length) ∧
    (∀ x y : List UInt64, x.length = y.length →
      standard (.doubles (interleave (x.zip y))) =
        .ok ⟨x.map Binary32.ofBinary64, y.map Binary32.ofBinary64⟩ ∧
      (PositionBuffer.doubles (interleave (x.zip y))).rows = .ok x.length) ∧
    ∀ buffer : PositionBuffer,
      ((∃ error, buffer.rows = .error error) ↔ buffer.Ragged) ∧
      (∀ error, standard buffer = .error error ↔ lift buffer.rows = .error error) ∧
      (∀ rows, buffer.rows = .ok rows → ∃ positions, standard buffer = .ok positions ∧
        positions.x.length = rows ∧ positions.y.length = rows) := by
  refine ⟨fun x y h => ?_, fun x y h => ?_, fun buffer => ?_⟩
  · have hlength : (x.zip y).length = x.length := by rw [List.length_zip, ← h, Nat.min_self]
    refine ⟨?_, ?_, ?_, PositionBuffer.rows_columnar h⟩
    · rw [standard, PositionBuffer.positions_singles, List.map_fst_zip h.le,
        List.map_snd_zip h.ge]
      rfl
    · rw [standard, PositionBuffer.positions_columnar h]
      rfl
    · rw [PositionBuffer.rows_singles, hlength]
  · have hlength : (x.zip y).length = x.length := by rw [List.length_zip, ← h, Nat.min_self]
    constructor
    · rw [standard, PositionBuffer.positions_doubles, List.map_fst_zip h.le,
        List.map_snd_zip h.ge]
      rfl
    · rw [PositionBuffer.rows_doubles, hlength]
  · rw [standard]
    rcases buffer.rows_cases with
      ⟨hragged, fault, hrows, hpositions⟩ | ⟨hwhole, positions, hpositions, hrows, hy⟩
    · rw [hrows, hpositions]
      refine ⟨iff_of_true ⟨fault, rfl⟩ hragged, fun error => ?_, nofun⟩
      constructor
      · rintro ⟨⟩
        rfl
      · rintro ⟨⟩
        rfl
    · rw [hrows, hpositions]
      refine ⟨iff_of_false (by rintro ⟨error, ⟨⟩⟩) hwhole, fun _ => iff_of_false nofun nofun, ?_⟩
      rintro rows ⟨⟩
      exact ⟨positions, rfl, rfl, hy⟩

/-- A third, as a double, becomes the single nearest to it, in the row it came in; three
coordinates are refused whatever they are. -/
theorem shapes_agree_doubles :
    ([0x3FD5555555555555, 0x4000000000000000] : List UInt64).length =
        ([0x3FF0000000000000, 0xFFF0000000000000] : List UInt64).length ∧
      standard (.doubles [0x3FD5555555555555, 0x3FF0000000000000, 0x4000000000000000,
          0xFFF0000000000000]) =
        .ok ⟨[0x3EAAAAAB, 0x40000000], [0x3F800000, 0xFF800000]⟩ ∧
      ∃ error, (PositionBuffer.singles [1, 2, 3]).rows = .error error := by
  have hlength : ([0x3FD5555555555555, 0x4000000000000000] : List UInt64).length =
      ([0x3FF0000000000000, 0xFFF0000000000000] : List UInt64).length := rfl
  obtain ⟨hread, -⟩ := shapes_agree.2.1 _ _ hlength
  refine ⟨hlength, ?_, ((shapes_agree.2.2 (.singles [1, 2, 3])).1).mpr rfl⟩
  calc standard (.doubles [0x3FD5555555555555, 0x3FF0000000000000, 0x4000000000000000,
          0xFFF0000000000000])
      = .ok ⟨[0x3FD5555555555555, 0x4000000000000000].map Binary32.ofBinary64,
          [0x3FF0000000000000, 0xFFF0000000000000].map Binary32.ofBinary64⟩ := hread
    _ = .ok ⟨[0x3EAAAAAB, 0x40000000], [0x3F800000, 0xFF800000]⟩ := by decide

end PositionMapper

end LiveLayout
