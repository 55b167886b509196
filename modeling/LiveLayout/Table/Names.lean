/-!
# Column names

The columns that node and edge tables of a session are known by.
-/

namespace LiveLayout.ColumnName

/-- The id of a node. -/
def id : String := "id"
/-- The horizontal coordinate of a node. -/
def x : String := "x"
/-- The vertical coordinate of a node. -/
def y : String := "y"
/-- The color of a node or an edge. -/
def color : String := "color"
/-- The size of a node. -/
def size : String := "size"
/-- The id of an edge. -/
def edge : String := "edge"
/-- The bundle that an edge is drawn with. -/
def bundle : String := "bundle"
/-- The node that an edge leaves. -/
def src : String := "src"
/-- The node that an edge enters. -/
def dst : String := "dst"

/-- The columns of a node frame unless told otherwise. -/
def nodeDefaults : List String := [id, color, size, x, y]
/-- The columns of an edge frame unless told otherwise. -/
def edgeDefaults : List String := [edge, color, bundle]

end LiveLayout.ColumnName
