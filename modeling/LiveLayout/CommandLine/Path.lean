import LiveLayout.Text.Pieces

/-!
# Paths

A path leads from name to name, between slashes. One dot is the directory it is met in, and two
dots are the directory above. What a path leads to is a matter of the disk; what is said here is
read off its text.
-/

namespace LiveLayout.CommandLine

/-- The steps of a path, one for each piece between slashes that is not empty. -/
def pathSteps (path : String) : List String :=
  ((pieces '/' path.toList).map String.ofList).filter (· ≠ "")

/-- The path starts at the top. -/
def startsAtTop (path : String) : Bool := path.toList.head? = some '/'

/-- The path has a slash at its end. -/
def endsInSlash (path : String) : Bool := path.toList.getLast? = some '/'

/-- The names of a path. A dot is none, but in front of a path that does not start at the top. -/
def pathNames (path : String) : List String :=
  if startsAtTop path then (pathSteps path).filter (· ≠ ".")
  else (pathSteps path).take 1 ++ ((pathSteps path).drop 1).filter (· ≠ ".")

/-- The path along names. -/
def pathAlong (fromTop : Bool) (names : List String) : String :=
  (if fromTop then "/" else "") ++ "/".intercalate names

/-- The path without its last name, if it has one. -/
def parentOf? (path : String) : Option String :=
  match pathNames path with
  | [] => none
  | names => some (pathAlong (startsAtTop path) names.dropLast)

end LiveLayout.CommandLine
