import LiveLayout.CommandLine.Path
import LiveLayout.Error
import LiveLayout.Time.Instant

/-!
# Hosts

What a run needs from the machine it runs on: files, the time, and a place to publish on.
-/

namespace LiveLayout.CommandLine

/-- The services of a machine, each in some monad. A pause is given in seconds. -/
structure Host (m : Type → Type) where
  configHome? : Option String
  now : m Instant
  pause : Nat → m Unit
  readFile : String → m (Except FileError Bytes)
  writeFile : String → Bytes → m (Except FileError Unit)
  pathExists : String → m Bool
  isDirectory : String → m Bool
  makeDirectory : String → m (Except FileError Unit)
  listen : String → m (Except LinkError Unit)

namespace Host

variable {m : Type → Type} [Monad m]

/-- A directory could not be made, which is no error if it is there. -/
def unlessThere (host : Host m) (path : String) (error : FileError) :
    m (Except FileError Unit) := do
  if ← host.isDirectory path then return .ok () else return .error error

/-- Makes a directory whose names are given from the last to the first. Where the names above it
lead to nothing, they are made first. -/
def makeAlong (host : Host m) (fromTop : Bool) : List String → m (Except FileError Unit)
  | [] => return .ok ()
  | name :: above => do
    let path := pathAlong fromTop (name :: above).reverse
    match ← host.makeDirectory path with
    | .ok () => return .ok ()
    | .error .notFound =>
      match ← host.makeAlong fromTop above with
      | .error error => return .error error
      | .ok () =>
        match ← host.makeDirectory path with
        | .ok () => return .ok ()
        | .error error => host.unlessThere path error
    | .error error => host.unlessThere path error

/-- Makes the directory that a file goes into, with those above it. -/
def makeParent (host : Host m) (path : String) : m (Except FileError Unit) :=
  host.makeAlong (startsAtTop path) (pathNames path).dropLast.reverse

end Host

end LiveLayout.CommandLine
