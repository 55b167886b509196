import LiveLayout.CommandLine.Address
import LiveLayout.CommandLine.Run
import Std.Time.DateTime.Timestamp

/-!
# The program

Runs the command line against the files and the clock of the machine. Nobody can subscribe while
it runs, so what it publishes over a connection is discarded.
-/

namespace LiveLayout.CommandLine

/-- The number of an error, which some services of the machine give negated. -/
def errorNumber (code : UInt32) : UInt32 := if code < 0x80000000 then code else 0 - code

/-- What the machine says of a file. -/
def fileErrorOf (error : IO.Error) : FileError :=
  match error with
  | .noFileOrDirectory .. => .notFound
  | .inappropriateType _ code _ => if errorNumber code = 21 then .isDirectory else .notDirectory
  | .alreadyExists .. => .alreadyThere
  | .permissionDenied .. => .described "Permission denied (os error 13)"
  | .invalidArgument _ code details =>
    if errorNumber code = 36 then .nameTooLong
    else .described s!"{details} (os error {errorNumber code})"
  | .resourceExhausted _ code details => .described s!"{details} (os error {errorNumber code})"
  | other => .described (toString other)

/-- The result of a file operation, with its error as a value. -/
def attempt {α : Type} (action : IO α) : IO (Except FileError α) := do
  try return .ok (← action) catch error => return .error (fileErrorOf error)

/-- The directory that holds configurations. -/
def machineConfigHome? : IO (Option String) := do
  match ← IO.getEnv "XDG_CONFIG_HOME" with
  | some path => if path.startsWith "/" then return some path else homeConfig
  | none => homeConfig
where
  homeConfig : IO (Option String) := do
    return (← IO.getEnv "HOME").map (· ++ "/.config")

/-- The time of the machine. -/
def machineNow : IO Instant := do
  let nanos := (← Std.Time.Timestamp.now).toNanosecondsSinceUnixEpoch.val
  let seconds := nanos / 1000000000
  return ⟨seconds / 86400, (seconds % 86400).toNat, (nanos % 1000000000).toNat⟩

/-- Something of the machine is at a path. What is there need not be readable. -/
def machineHas (path : String) : IO Bool := do
  match ← attempt (IO.FS.readBinFile path) with
  | .error .notFound | .error .notDirectory | .error .nameTooLong => return false
  | _ => return true

/-- A directory of the machine is at a path. -/
def machineHasDirectory (path : String) : IO Bool := do
  match ← attempt (IO.FS.readBinFile path) with
  | .error .isDirectory => return true
  | _ => return false

/-- The machine as a host. -/
def machineHost : IO (Host IO) := do
  return {
    configHome? := ← machineConfigHome?
    now := machineNow
    pause := fun seconds => seconds.forM fun _ _ => IO.sleep 1000
    readFile := fun path => attempt do return (← IO.FS.readBinFile path).toList
    pathExists := machineHas
    isDirectory := machineHasDirectory
    makeDirectory := fun path => attempt (IO.FS.createDir path)
    writeFile := fun path bytes => attempt (IO.FS.writeBinFile path ⟨bytes.toArray⟩)
    listen := fun address => return checkAddress address }

end LiveLayout.CommandLine

/-- The program. -/
def main (arguments : List String) : IO UInt32 := do
  let host ← LiveLayout.CommandLine.machineHost
  let outcome ← LiveLayout.CommandLine.run host arguments
  IO.print outcome.output
  IO.eprint outcome.errors
  return UInt32.ofNat outcome.status
