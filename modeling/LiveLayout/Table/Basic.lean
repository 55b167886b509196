import LiveLayout.Table.SchemaError

/-!
# Tables

A table is an ordered list of named columns and a number of rows. A table without columns still
has a number of rows, which the first column replaces. `Table.WellFormed` says that names differ
and that every column has one cell a row; every operation here keeps it.
-/

namespace LiveLayout

/-- Named columns in order. -/
structure Table where
  columns : List (String × Column)
  rowCount : Nat
  deriving DecidableEq, Repr

namespace Table

/-- The table with no columns and no rows. -/
def empty : Table := ⟨[], 0⟩

/-- The column names in order. -/
def names (table : Table) : List String := table.columns.map Prod.fst

/-- Names are pairwise distinct, and each column has one cell a row. -/
structure WellFormed (table : Table) : Prop where
  names_nodup : table.names.Nodup
  length_eq : ∀ entry ∈ table.columns, entry.2.length = table.rowCount

/-- The column of a name. -/
def column? (table : Table) (name : String) : Option Column :=
  (table.columns.find? (·.1 == name)).map Prod.snd

/-- The column of a name, or the error that names it. -/
def require (table : Table) (name : String) : Except SchemaError Column :=
  match table.column? name with
  | some column => .ok column
  | none => .error (.missingColumn name)

/-- Appends a column. A name may occur once, and all columns are equally long. -/
def push (table : Table) (name : String) (column : Column) : Except SchemaError Table :=
  if (table.column? name).isSome then .error (.duplicateColumn name)
  else if !table.columns.isEmpty && column.length != table.rowCount then
    .error (.columnLength name column.length table.rowCount)
  else .ok ⟨table.columns ++ [(name, column)], column.length⟩

/-- Gives a table that has no columns a number of rows. -/
def withRowCount (table : Table) (rows : Nat) : Except SchemaError Table :=
  if table.columns.isEmpty then .ok ⟨[], rows⟩ else .error .rowCountFixed

/-- Appends columns from left to right, up to the first that does not fit. -/
def pushAll (table : Table) (columns : List (String × Column)) : Except SchemaError Table :=
  columns.foldlM (fun grown entry => grown.push entry.1 entry.2) table

/-- The table of a list of columns. -/
def ofColumns (columns : List (String × Column)) : Except SchemaError Table :=
  empty.pushAll columns

/-- Copies the named columns in the order asked. No columns still describe the same rows. -/
def select (table : Table) (names : List String) : Except SchemaError Table := do
  let chosen ← names.foldlM (fun chosen name => do chosen.push name (← table.require name)) empty
  if names.isEmpty then chosen.withRowCount table.rowCount else return chosen

/-- Puts the columns of two tables side by side, row by row. -/
def join (left right : Table) : Except SchemaError Table :=
  if !left.columns.isEmpty && !right.columns.isEmpty && left.rowCount != right.rowCount then
    .error (.joinedRows left.rowCount right.rowCount)
  else left.pushAll right.columns

end Table

end LiveLayout
