import LiveLayout.CommandLine.Host

/-!
# Disks

A disk held in memory, and how a path is followed on it. It serves as the files of a host.
-/

namespace LiveLayout.CommandLine

/-- What is on a disk at a place: a file with its bytes, or a directory. -/
inductive DiskEntry where
  | file (bytes : Bytes)
  | directory
  deriving DecidableEq, Repr

/-- A disk, by places. A place is the names that lead to it from the top, without dots. -/
structure Disk where
  entries : List (List String × DiskEntry)
  deriving DecidableEq, Repr

/-- The most bytes in a name. -/
def longestName : Nat := 255

/-- The most bytes in a path. -/
def longestPath : Nat := 4095

/-- The place that a step leads to from a directory. -/
def placeAfter (place : List String) (step : String) : List String :=
  if step = "." then place else if step = ".." then place.dropLast else place ++ [step]

/-- A step that names nothing new. -/
def isDots (step : String) : Bool := step = "." || step = ".."

namespace Disk

/-- The entry of a place; the top of the disk is a directory. -/
def entry? (disk : Disk) (place : List String) : Option DiskEntry :=
  if place.isEmpty then some .directory else disk.entries.lookup place

/-- Puts an entry on the disk. -/
def put (disk : Disk) (place : List String) (entry : DiskEntry) : Disk :=
  ⟨(place, entry) :: disk.entries.filter (·.1 ≠ place)⟩

/-- Takes a step from a place, which must be a directory. -/
def step (disk : Disk) (place : List String) (step : String) : Except FileError (List String) :=
  match disk.entry? place with
  | some .directory =>
    if longestName < step.utf8ByteSize then .error .nameTooLong else .ok (placeAfter place step)
  | some (.file _) => .error .notDirectory
  | none => .error .notFound

/-- The place that steps lead to, which need not hold anything. -/
def follow (disk : Disk) (path : String) (steps : List String) : Except FileError (List String) :=
  if longestPath < path.utf8ByteSize then .error .nameTooLong else steps.foldlM disk.step []

/-- The place that a path leads to. A slash at its end asks for a directory, as a dot does. -/
def locate (disk : Disk) (path : String) : Except FileError (List String) :=
  disk.follow path (pathSteps path ++ if endsInSlash path then ["."] else [])

/-- What a path leads to. -/
def find (disk : Disk) (path : String) : Except FileError DiskEntry := do
  match disk.entry? (← disk.locate path) with
  | some entry => .ok entry
  | none => .error .notFound

/-- The bytes of a file. -/
def content (disk : Disk) (path : String) : Except FileError Bytes := do
  match ← disk.find path with
  | .file bytes => .ok bytes
  | .directory => .error .isDirectory

/-- Something is at a path. -/
def pathExists (disk : Disk) (path : String) : Bool := (disk.find path).isOk

/-- A directory is at a path. -/
def isDirectory (disk : Disk) (path : String) : Bool :=
  match disk.find path with
  | .ok .directory => true
  | _ => false

/-- The directory that the last step of a path is taken in. -/
def locateParent (disk : Disk) (path : String) : Except FileError (List String) := do
  let place ← disk.follow path (pathSteps path).dropLast
  match disk.entry? place with
  | some .directory => .ok place
  | some (.file _) => .error .notDirectory
  | none => .error .notFound

/-- The place that a file can be written to. It takes a name without a slash behind it, in a
directory that is there, and no directory of that name. -/
def placeForFile (disk : Disk) (path : String) : Except FileError (List String) := do
  let parent ← disk.locateParent path
  match (pathSteps path).getLast? with
  | none => .error .isDirectory
  | some name =>
    if isDots name || endsInSlash path then .error .isDirectory
    else
      let place ← disk.step parent name
      if disk.entry? place = some .directory then .error .isDirectory else .ok place

/-- The place that a directory can be made at: a new name in a directory that is there. -/
def placeForDirectory (disk : Disk) (path : String) : Except FileError (List String) := do
  let parent ← disk.locateParent path
  match (pathSteps path).getLast? with
  | none => .error .alreadyThere
  | some name =>
    if isDots name then .error .alreadyThere
    else
      let place ← disk.step parent name
      if (disk.entry? place).isSome then .error .alreadyThere else .ok place

/-- Writes a file. -/
def writeFile (disk : Disk) (path : String) (bytes : Bytes) : Except FileError Unit × Disk :=
  match disk.placeForFile path with
  | .error error => (.error error, disk)
  | .ok place => (.ok (), disk.put place (.file bytes))

/-- Makes a directory. -/
def makeDirectory (disk : Disk) (path : String) : Except FileError Unit × Disk :=
  match disk.placeForDirectory path with
  | .error error => (.error error, disk)
  | .ok place => (.ok (), disk.put place .directory)

end Disk

/-- A disk in memory as the files of a host, at a fixed time that no pause changes. -/
def diskHost (configHome? : Option String) (now : Instant)
    (listen : String → Except LinkError Unit) : Host (StateM Disk) where
  configHome? := configHome?
  now := pure now
  pause _ := pure ()
  readFile path := do return (← get).content path
  writeFile path bytes := modifyGet (·.writeFile path bytes)
  pathExists path := do return (← get).pathExists path
  isDirectory path := do return (← get).isDirectory path
  makeDirectory path := modifyGet (·.makeDirectory path)
  listen address := pure (listen address)

/-- A file with the directories it needs. -/
def Host.provide {m : Type → Type} [Monad m] (host : Host m) (path : String) (bytes : Bytes) :
    m Unit := do
  let _ ← host.makeParent path
  let _ ← host.writeFile path bytes

/-- The disk with a directory and files in it. -/
def Disk.ofFiles (home : String) (files : List (String × Bytes)) : Disk :=
  let host := diskHost none .epoch fun _ => .error .unknownHost
  let fill : StateM Disk Unit := do
    let _ ← host.makeDirectory home
    files.forM fun (path, bytes) => host.provide (home ++ "/" ++ path) bytes
  (fill.run ⟨[]⟩).2

end LiveLayout.CommandLine
