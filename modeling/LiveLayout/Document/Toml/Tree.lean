import LiveLayout.Document.Datum

/-!
# TOML: tables under construction

A document is built by adding one entry or header at a time. A table remembers whether it only
exists because another was named below it, and whether dots in a key made it; both decide whether
it may still be added to. Nothing may be defined twice.
-/

namespace LiveLayout.Toml

/-- A part of a document under construction. -/
inductive Node where
  | leaf (value : Datum)
  | rows (tables : List Node)
  | branch (implicitly dotted : Bool) (entries : List (String × Node))

namespace Node

/-- A document without entries. -/
def root : Node := branch false false []

/-- Puts an entry in the place of the one of its name, or at the end. -/
def put (entries : List (String × Node)) (name : String) (node : Node) : List (String × Node) :=
  match entries with
  | [] => [(name, node)]
  | (other, old) :: rest =>
    if other = name then (name, node) :: rest else (other, old) :: put rest name node

/-- Changes the table at the end of a path. Missing tables on the way are made, by dots or by a
header; dots do not lead into a table that has a header or braces of its own. -/
def descend (byDots : Bool) (change : Node → Option Node) : List String → Node → Option Node
  | [], node => change node
  | name :: rest, branch implicitly dotted entries =>
    let grown := fun (child : Node) => branch implicitly dotted (put entries name child)
    match entries.lookup name with
    | none => (descend byDots change rest (branch true byDots [])).map grown
    | some (leaf _) => none
    | some (rows tables) =>
      match tables.getLast? with
      | none => none
      | some last =>
        (descend byDots change rest last).map fun last => grown (rows (tables.dropLast ++ [last]))
    | some (branch childImplicit childDotted children) =>
      if byDots && !childImplicit then none
      else (descend byDots change rest (branch childImplicit childDotted children)).map grown
  | _ :: _, _ => none

/-- Adds an entry to a table that has none of its name. Only a table made by dots is added to
by dots. -/
def addEntry (byDots : Bool) (name : String) (value : Datum) : Node → Option Node
  | branch implicitly dotted entries =>
    if dotted != byDots then none
    else if (entries.lookup name).isSome then none
    else some (branch implicitly dotted (put entries name (leaf value)))
  | _ => none

/-- Adds an entry by a key with dots. -/
def assign (path : List String) (value : Datum) (node : Node) : Option Node :=
  match path.getLast? with
  | none => none
  | some name =>
    let parents := path.dropLast
    descend true (addEntry (!parents.isEmpty) name value) parents node

/-- Defines the table of a header, which so far exists at most by implication. -/
def defineTable (name : String) : Node → Option Node
  | branch implicitly dotted entries =>
    match entries.lookup name with
    | none => some (branch implicitly dotted (put entries name (branch false false [])))
    | some (branch true false children) =>
      some (branch implicitly dotted (put entries name (branch false false children)))
    | _ => none
  | _ => none

/-- Adds a table to the list of tables of a header. -/
def defineRow (name : String) : Node → Option Node
  | branch implicitly dotted entries =>
    match entries.lookup name with
    | none => some (branch implicitly dotted (put entries name (rows [branch false false []])))
    | some (rows tables) =>
      some (branch implicitly dotted (put entries name (rows (tables ++ [branch false false []]))))
    | _ => none
  | _ => none

/-- Opens the table of a header: a table of its own, or a further one of a list. -/
def openHeader (isRow : Bool) (path : List String) (node : Node) : Option Node :=
  match path.getLast? with
  | none => none
  | some name =>
    descend false (if isRow then defineRow name else defineTable name) path.dropLast node

/-- Adds an entry to the table of a header. -/
def assignUnder (header path : List String) (value : Datum) (node : Node) : Option Node :=
  descend false (assign path value) header node

mutual

/-- The finished document. -/
def toDatum : Node → Datum
  | leaf value => value
  | rows tables => .list (listToData tables)
  | branch _ _ entries => .table (entriesToData entries)

/-- The finished tables of a list. -/
def listToData : List Node → List Datum
  | [] => []
  | node :: rest => toDatum node :: listToData rest

/-- The finished entries of a table. -/
def entriesToData : List (String × Node) → List (String × Datum)
  | [] => []
  | (name, node) :: rest => (name, toDatum node) :: entriesToData rest

end

end Node

end LiveLayout.Toml
