import LiveLayout.Channel.Queue
import LiveLayout.CommandLine.Arguments
import LiveLayout.CommandLine.Host
import LiveLayout.CommandLine.Texts
import LiveLayout.Config.Document
import LiveLayout.Document.Json
import LiveLayout.Layout.Jitter
import LiveLayout.Session.Basic

/-!
# Runs

A run settles its configuration from a file and the arguments, then either saves it or streams the
jitter layout of a clustered graph and reports the summary.
-/

namespace LiveLayout.CommandLine

/-- What a run leaves: the exit status and what it wrote to either output. -/
structure Outcome where
  status : Nat
  output : String
  errors : String
  deriving DecidableEq, Repr

/-- A run that went well. -/
def Outcome.good (output : String) : Outcome := ⟨0, output, ""⟩

/-- A run that failed. -/
def Outcome.failed (failure : Failure) : Outcome := ⟨1, "", failure.report⟩

/-- A run that ended at once, without a report. -/
def Outcome.aborted (reason : String) : Outcome := ⟨101, "", reason ++ "\n"⟩

/-! ## Streaming -/

/-- A queue whose reader takes each payload as it arrives. -/
structure Attended where
  queue : Queue
  taken : Nat
  deriving DecidableEq, Repr

namespace Attended

/-- The reader takes what waits. -/
def attend (attended : Attended) : Attended :=
  let (payloads, queue) := attended.queue.drain attended.queue.waiting.length
  ⟨queue, attended.taken + payloads.length⟩

/-- A payload arrives and is taken. -/
def push (attended : Attended) (payload : Bytes) : SendResult × Attended :=
  let (result, queue) := attended.queue.push payload
  (result, attend { attended with queue })

instance : Transport Attended where
  name attended := Transport.name attended.queue
  trySend attended payload := attended.push payload
  sendTimeout attended payload _ := attended.push payload
  close attended := { attended with queue := attended.queue.hangUp }

end Attended

/-- Streams the layout of a graph as a configuration says. -/
def stream (config : Config) (graph : Graph) (seed : Nat) (now : Instant) :
    Except StreamError Summary :=
  let channel : Channel Attended := .onto ⟨Queue.ofCapacity config.queueCapacity, 0⟩
  match (Session.new config.sessionOptions).start now graph PositionMapper.standard channel with
  | .error (error, _) => .error error
  | .ok session =>
    let layout := (Jitter.ofSeed (UInt64.ofNat seed)).layout graph config.iterations
    (session.streamLayout now layout).1

/-- What is printed of a summary. -/
def summaryText (asJson : Bool) (summary : Summary) : String :=
  (if asJson then Json.render summary.toDatum else summary.line) ++ "\n"

/-! ## Configuring -/

variable {m : Type → Type} [Monad m]

/-- The file under the configuration directory that is read unless another is named. -/
def standardPath (configHome : String) : String := configHome ++ "/layoutstream-rs/config.toml"

/-- The configuration of a file. -/
def loadFile (host : Host m) (path : String) : m (Except StreamError Config) := do
  return Config.load path (← host.readFile path)

/-- The configuration of the standard place, or the standard one if there is none. -/
def loadStandard (host : Host m) : m (Except StreamError Config) := do
  match host.configHome?.map standardPath with
  | none => return .ok .standard
  | some path => if ← host.pathExists path then loadFile host path else return .ok .standard

/-- The configuration that a run starts from. -/
def loadConfig (host : Host m) (arguments : Arguments) : m (Except Failure Config) := do
  match arguments.config? with
  | some path =>
    return (← loadFile host path).mapError (.during s!"Failed to load config from {path}")
  | none => return (← loadStandard host).mapError (.during "Failed to load default config")

/-- A configuration with what the arguments say instead. -/
def override (config : Config) (arguments : Arguments) : Config :=
  { config with
    dataset := { config.dataset with kind := arguments.dataset?.getD config.dataset.kind }
    iterations := arguments.iterations?.getD config.iterations
    transport := (arguments.address?.map .tcp).getD config.transport
    resendEdges := config.resendEdges || arguments.resendEdges }

/-- Makes the directory that a file goes into, if there is none. -/
def prepareParent (host : Host m) (path : String) : m (Except ConfigError Unit) := do
  match parentOf? path with
  | none => return .ok ()
  | some parent =>
    if parent.isEmpty then return .ok ()
    else if ← host.pathExists parent then return .ok ()
    else return (← host.makeParent path).mapError .noDirectory

/-- Writes a configuration to a file. -/
def saveConfig (host : Host m) (config : Config) (path : String) :
    m (Except ConfigError Unit) := do
  match ← prepareParent host path with
  | .error error => return .error error
  | .ok () =>
    match config.render with
    | .error error => return .error error
    | .ok text => return (← host.writeFile path (Utf8.encode text)).mapError .unwritable

/-! ## Running -/

/-- Publishing needs an address of this machine. -/
def listenOn (host : Host m) : TransportChoice → m (Except Failure Unit)
  | .inProcess => return .ok ()
  | .tcp address => do
    return (lift (← host.listen address)).mapError (.during s!"Failed to bind {address}")

/-- The longest wait in seconds. The clock counts 63 bits of them and is taken to have run for a
day, and it must be able to tell the end of a wait. -/
def longestWait : Nat := twoPow 63 - 86400

/-- Waits for somebody to subscribe to a connection, unless the wait is too long. Nobody does. -/
def awaitSubscriber (host : Host m) (transport : TransportChoice) (seconds : Nat) : m Bool := do
  match transport with
  | .inProcess => return true
  | .tcp _ =>
    if longestWait < seconds then return false
    else
      host.pause seconds
      return true

/-- Streams with a configuration that was settled. -/
def runStream (host : Host m) (config : Config) (arguments : Arguments) : m Outcome := do
  match lift config.dataset.build with
  | .error error => return .failed (.during "Failed to build dataset" error)
  | .ok graph =>
    match ← listenOn host config.transport with
    | .error failure => return .failed failure
    | .ok () =>
      if !Queue.fits config.queueCapacity then return .aborted "capacity overflow"
      else if !(← awaitSubscriber host config.transport (arguments.waitSeconds?.getD 0)) then
        return .aborted "overflow when adding duration to instant"
      else
        match stream config graph (arguments.seed?.getD Jitter.standardSeed.toNat) (← host.now) with
        | .error error => return .failed (.ofError error)
        | .ok summary =>
          let closed := { summary with closedAt := ← host.now }
          return .good (summaryText arguments.asJson closed)

/-- Does what the arguments ask for. -/
def runArguments (host : Host m) (arguments : Arguments) : m Outcome := do
  match ← loadConfig host arguments with
  | .error failure => return .failed failure
  | .ok config =>
    let config := override config arguments
    match lift config.validate with
    | .error error => return .failed (.during "Invalid configuration" error)
    | .ok () =>
      match arguments.saveTo? with
      | some path =>
        match lift (← saveConfig host config path) with
        | .error error => return .failed (.ofError error)
        | .ok () => return .good ""
      | none => runStream host config arguments

/-- The log goes into a file of its directory, which must be one or become one; without it a run
ends at once. -/
def openLog (host : Host m) (arguments : Arguments) : m (Except FileError Unit) := do
  match arguments.logDirectory? with
  | none => return .ok ()
  | some path => host.makeParent (path ++ "/layoutstream.log")

/-- A whole run. Arguments that make no sense end it with status 2. -/
def run (host : Host m) (arguments : List String) : m Outcome := do
  match parse arguments with
  | none => return ⟨2, "", "usage: layoutstream [OPTIONS]\n"⟩
  | some .help => return .good helpText
  | some .version => return .good versionText
  | some (.run arguments) =>
    match ← openLog host arguments with
    | .error error => return .aborted error.message
    | .ok () => runArguments host arguments

end LiveLayout.CommandLine
