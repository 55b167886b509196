import LiveLayout.Proofs.Table.Select
import LiveLayout.Proofs.Wire.Frame

/-!
# Tables that fit a frame

Only a count or a length that its field cannot hold keeps columns off the wire, if they have a cell
a row. So a table whose rows and texts fit has a frame for any selection of a few short names.
-/

namespace LiveLayout

/-- The texts of a column are short enough for the length fields of their cells. -/
def Column.FitsWords : Column → Prop
  | text values => ∀ value ∈ values, (Utf8.encode value).length < UInt32.size
  | _ => True

instance : DecidablePred Column.FitsWords
  | .int _ => .isTrue trivial
  | .float32 _ => .isTrue trivial
  | .text values =>
    inferInstanceAs (Decidable (∀ value ∈ values, (Utf8.encode value).length < UInt32.size))

/-- The rows of a table are few enough and its texts short enough for the fields of a frame. -/
structure Table.FitsWords (table : Table) : Prop where
  rows : table.rowCount < UInt32.size
  cells : ∀ entry ∈ table.columns, entry.2.FitsWords

instance (table : Table) : Decidable table.FitsWords :=
  decidable_of_iff (table.rowCount < UInt32.size ∧ ∀ entry ∈ table.columns, entry.2.FitsWords)
    ⟨fun h => ⟨h.1, h.2⟩, fun h => ⟨h.rows, h.cells⟩⟩

/-- The names of a frame are few enough and short enough for their fields. -/
structure NamesFit (names : List String) : Prop where
  count : names.length < UInt16.size
  lengths : ∀ name ∈ names, (Utf8.encode name).length < UInt16.size

/-- Distinct names out of some that fit are fewer and no longer. -/
theorem NamesFit.of_subset {names known : List String} (h : NamesFit known) (hnodup : names.Nodup)
    (hsubset : ∀ name ∈ names, name ∈ known) : NamesFit names :=
  ⟨(hnodup.subperm hsubset).length_le.trans_lt h.count,
    fun name hname => h.lengths name (hsubset name hname)⟩

theorem Column.FitsWords.exists_encodeCells {column : Column} (h : column.FitsWords) :
    ∃ cells, column.encodeCells = .ok cells := by
  cases column with
  | int values => exact ⟨_, rfl⟩
  | float32 bits => exact ⟨_, rfl⟩
  | text values =>
      have hcells : ∀ value ∈ values, ∃ wire, encodeTextCell value = .ok wire :=
        fun value hvalue => ⟨_, encodeTextCell_eq_ok_iff.mpr ⟨h value hvalue, rfl⟩⟩
      obtain ⟨wires, hwires⟩ := exists_forall₂ hcells
      exact ⟨_, encodeCells_text_eq_ok_iff.mpr ⟨wires, hwires, rfl⟩⟩

/-- Columns with a cell a row, whose counts and lengths fit their fields, have a wire form. -/
theorem exists_encodeColumns_of_fits {rows : Nat} {columns : List (String × Column)}
    (hrows : rows < UInt32.size) (hnames : NamesFit (columns.map Prod.fst))
    (hcells : ∀ entry ∈ columns, entry.2.length = rows ∧ entry.2.FitsWords) (kind : FrameKind)
    (iteration : UInt64) : ∃ wire, encodeColumns kind iteration rows columns = .ok wire := by
  have hblocks : ∀ entry ∈ columns, ∃ block, encodeColumn rows entry = .ok block := by
    intro entry hentry
    obtain ⟨hlength, hfits⟩ := hcells entry hentry
    obtain ⟨cells, hencode⟩ := hfits.exists_encodeCells
    have hname := hnames.lengths _ (List.mem_map_of_mem hentry)
    exact ⟨_, encodeColumn_eq_ok_iff.mpr ⟨hlength, hname, cells, hencode, rfl⟩⟩
  obtain ⟨blocks, hblocks⟩ := exists_forall₂ hblocks
  have hcount := hnames.count
  rw [List.length_map] at hcount
  exact ⟨_, encodeColumns_eq_ok_iff.mpr ⟨hrows, hcount, blocks, hblocks, rfl⟩⟩

/-- A selection from a table that fits has a wire form. -/
theorem Table.FitsWords.exists_encode {table : Table} (h : table.FitsWords)
    (hwell : table.WellFormed) {names : List String} (hnames : NamesFit names)
    (hknown : ∀ name ∈ names, name ∈ table.names) (kind : FrameKind) (iteration : UInt64) :
    ∃ wire, encodeColumns kind iteration table.rowCount (table.picked names) = .ok wire := by
  refine exists_encodeColumns_of_fits h.rows ?_ ?_ kind iteration
  · rw [map_fst_picked hknown]
    exact hnames
  · intro entry hentry
    obtain ⟨name, -, hfound⟩ := List.mem_filterMap.mp hentry
    obtain ⟨column, hcolumn, rfl⟩ := Option.map_eq_some_iff.mp hfound
    have hmem := mem_of_column? hcolumn
    exact ⟨hwell.length_eq _ hmem, h.cells _ hmem⟩

end LiveLayout
