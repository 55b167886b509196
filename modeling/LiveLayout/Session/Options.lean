import LiveLayout.Table.Names

/-!
# Session options

What is fixed for the lifetime of a session: the columns of its frames in wire order, whether the
edge frame goes out once or every time, and how long closing may wait.
-/

namespace LiveLayout

/-- The options of a session; the timeout is in milliseconds. -/
structure SessionOptions where
  nodeColumns : List String
  edgeColumns : List String
  resendEdges : Bool
  closeTimeout : Nat
  deriving DecidableEq, Repr

/-- All known columns, the edge frame once, and half a second to close. -/
def SessionOptions.standard : SessionOptions :=
  ⟨ColumnName.nodeDefaults, ColumnName.edgeDefaults, false, 500⟩

end LiveLayout
