import LiveLayout.Numeric.Binary

/-!
# Columns

A column is a list of cells of one type. Single-precision cells are kept as their 32 bits, so that
signed zeros and the payloads of not-a-number values stay apart.
-/

namespace LiveLayout

/-- What the cells of a column are. -/
inductive ColumnType where
  | int
  | float32
  | text
  deriving DecidableEq, Repr

namespace ColumnType

/-- The byte that stands for a column type on the wire. -/
def tag : ColumnType → UInt8
  | int => 1
  | float32 => 2
  | text => 3

/-- The column type that a byte stands for. -/
def ofTag? (tag : UInt8) : Option ColumnType :=
  if tag = 1 then some int
  else if tag = 2 then some float32
  else if tag = 3 then some text
  else none

/-- The name of a column type in messages. -/
def name : ColumnType → String
  | int => "int"
  | float32 => "float32"
  | text => "string"

end ColumnType

/-- A value that names or sorts a row: an integer code or a text. The integer 1 and the text "1"
are different labels. -/
inductive Label where
  | int (value : Int64)
  | text (value : String)
  deriving DecidableEq, Hashable, Repr

/-- A label as it appears in messages. -/
def Label.message : Label → String
  | int value => toString value.toInt
  | text value => value

/-- The order of labels: integers by value, in front of texts by code point. -/
def Label.atMost : Label → Label → Bool
  | int a, int b => a ≤ b
  | text a, text b => a ≤ b
  | int _, text _ => true
  | text _, int _ => false

/-- One value of a column. -/
inductive Cell where
  | int (value : Int64)
  | float32 (bits : UInt32)
  | text (value : String)
  deriving DecidableEq, Repr

namespace Cell

/-- A cell read as a label; floats are no labels. -/
def label? : Cell → Option Label
  | int value => some (.int value)
  | float32 _ => none
  | text value => some (.text value)

/-- A cell read as a number, in the bits of a double; texts are no numbers. -/
def number? : Cell → Option UInt64
  | int value => some (Binary64.ofInt value.toInt)
  | float32 bits => some (Binary64.ofBinary32 bits)
  | text _ => none

end Cell

/-- A list of cells of one type. -/
inductive Column where
  | int (values : List Int64)
  | float32 (bits : List UInt32)
  | text (values : List String)
  deriving DecidableEq, Repr

namespace Column

/-- The number of cells. -/
def length : Column → Nat
  | int values => values.length
  | float32 bits => bits.length
  | text values => values.length

/-- The type of every cell of the column. -/
def type : Column → ColumnType
  | int _ => .int
  | float32 _ => .float32
  | text _ => .text

/-- The cells in row order. -/
def cells : Column → List Cell
  | int values => values.map .int
  | float32 bits => bits.map .float32
  | text values => values.map .text

/-- The cell of a row. -/
def cell? : Column → Nat → Option Cell
  | int values, row => values[row]?.map .int
  | float32 bits, row => bits[row]?.map .float32
  | text values, row => values[row]?.map .text

/-- The label of a row, if the column holds labels and has the row. -/
def label? (column : Column) (row : Nat) : Option Label :=
  (column.cell? row).bind Cell.label?

/-- The number of a row, if the column holds numbers and has the row. -/
def number? (column : Column) (row : Nat) : Option UInt64 :=
  (column.cell? row).bind Cell.number?

@[simp] theorem length_cells (column : Column) : column.cells.length = column.length := by
  cases column <;> simp [cells, length]

theorem cells_getElem? (column : Column) (row : Nat) : column.cells[row]? = column.cell? row := by
  cases column <;> simp [cells, cell?]

end Column

end LiveLayout
