import LiveLayout.Session.State
import LiveLayout.Wire.Frame

/-!
# Errors

An error is a fault and the contexts it was met in. Each fault is a cause with the data that its
message names; the wording of all of them is in the `message` functions.
-/

namespace LiveLayout

/-- What an operating system says of a file. -/
inductive FileError where
  | notFound
  | alreadyThere
  | notDirectory
  | isDirectory
  | nameTooLong
  | notText
  | described (text : String)
  deriving DecidableEq, Repr

/-- The wording of a file error. -/
def FileError.message : FileError → String
  | notFound => "No such file or directory (os error 2)"
  | alreadyThere => "File exists (os error 17)"
  | notDirectory => "Not a directory (os error 20)"
  | isDirectory => "Is a directory (os error 21)"
  | nameTooLong => "File name too long (os error 36)"
  | notText => "stream did not contain valid UTF-8"
  | described text => text

/-- What is wrong with a configuration. -/
inductive ConfigError where
  | emptyQueue
  | unknownColumn (setting name : String) (known : List String)
  | repeatedColumn (setting name : String)
  | lacksColumn (setting name : String)
  | noAddress
  | nodeColumnTwice (name : String)
  | edgeColumnTwice (name : String)
  | unreadable (path : String) (error : FileError)
  | notUnderstood (path : String)
  | unwritable (error : FileError)
  | noDirectory (error : FileError)
  | unprintable
  | described (text : String)
  deriving DecidableEq, Repr

/-- The wording of a configuration error. -/
def ConfigError.message : ConfigError → String
  | emptyQueue => "queue_capacity must be greater than zero"
  | unknownColumn setting name known =>
    s!"{setting}: unknown column '{name}' (expected one of " ++ ", ".intercalate known ++ ")"
  | repeatedColumn setting name => s!"{setting}: column '{name}' listed twice"
  | lacksColumn setting name => s!"{setting} must include '{name}'"
  | noAddress => "tcp transport needs an addr"
  | nodeColumnTwice name => s!"node column '{name}' listed twice"
  | edgeColumnTwice name => s!"edge column '{name}' listed twice"
  | unreadable path error => s!"Failed to read {path}: {error.message}"
  | notUnderstood path => s!"Failed to parse {path}"
  | unwritable error => s!"Failed to write config: {error.message}"
  | noDirectory error => s!"Failed to create config directory: {error.message}"
  | unprintable => "Failed to serialize config: out-of-range value for u64 type"
  | described text => text

/-- What is wrong with the use of a channel. -/
inductive ChannelError where
  | messageTooLong (length limit : Nat)
  | described (text : String)
  deriving DecidableEq, Repr

/-- The wording of a channel error. -/
def ChannelError.message : ChannelError → String
  | messageTooLong length limit => s!"message of {length} bytes exceeds limit of {limit}"
  | described text => text

/-- What is wrong with a connection. -/
inductive LinkError where
  | unfilled
  | notAddress
  | badPort
  | addressUnavailable
  | badAddress
  | noInterface
  | notHost
  | unknownHost
  | nulInHost
  | described (text : String)
  deriving DecidableEq, Repr

/-- The wording of a connection error. -/
def LinkError.message : LinkError → String
  | unfilled => "failed to fill whole buffer"
  | notAddress => "invalid socket address"
  | badPort => "invalid port value"
  | addressUnavailable => "Cannot assign requested address (os error 99)"
  | badAddress => "Invalid argument (os error 22)"
  | noInterface => "No such device (os error 19)"
  | notHost => "failed to lookup address information: Name or service not known"
  | nulInHost => "file name contained an unexpected NUL byte"
  | unknownHost => "failed to lookup address information: Temporary failure in name resolution"
  | described text => text

/-- What went wrong. -/
inductive Fault where
  | schema (error : SchemaError)
  | codec (error : CodecError)
  | invalidState (operation : Operation) (state : SessionState)
  | config (error : ConfigError)
  | channel (error : ChannelError)
  | link (error : LinkError)
  deriving DecidableEq, Repr

namespace Fault

/-- The wording of a fault. -/
def message : Fault → String
  | schema error => s!"Schema mismatch: {error.message}"
  | codec error => s!"Codec error: {error.message}"
  | invalidState operation state =>
    s!"Invalid state: cannot {operation.phrase} while session is {state.name}"
  | config error => s!"Configuration error: {error.message}"
  | channel error => s!"Channel error: {error.message}"
  | link error => s!"IO error: {error.message}"

/-- The wording of what a fault itself reports, for faults that report another's. -/
def cause? : Fault → Option String
  | codec error => some error.message
  | link error => some error.message
  | _ => none

/-- The fault is a schema mismatch. -/
def isSchema : Fault → Bool
  | schema _ => true
  | _ => false

/-- The fault is an operation that the state of a session forbids. -/
def isInvalidState : Fault → Bool
  | invalidState _ _ => true
  | _ => false

end Fault

/-- A fault and the contexts it was met in, the outermost first. -/
structure StreamError where
  fault : Fault
  contexts : List String
  deriving DecidableEq, Repr

namespace StreamError

/-- An error met in one more context. -/
def within (error : StreamError) (context : String) : StreamError :=
  ⟨error.fault, context :: error.contexts⟩

/-- The wording of a fault in contexts. -/
def wording (fault : Fault) : List String → String
  | [] => fault.message
  | context :: rest => context ++ ": " ++ wording fault rest

/-- The wording of an error. -/
def message (error : StreamError) : String := wording error.fault error.contexts

/-- The wordings of what each layer of a fault in contexts reports. -/
def chain (fault : Fault) : List String → List String
  | [] => fault.cause?.toList
  | _ :: rest => wording fault rest :: chain fault rest

/-- The wordings of what is under an error, from the next layer down. -/
def causes (error : StreamError) : List String := chain error.fault error.contexts

end StreamError

instance : Coe SchemaError StreamError := ⟨fun error => ⟨.schema error, []⟩⟩
instance : Coe CodecError StreamError := ⟨fun error => ⟨.codec error, []⟩⟩
instance : Coe ConfigError StreamError := ⟨fun error => ⟨.config error, []⟩⟩
instance : Coe ChannelError StreamError := ⟨fun error => ⟨.channel error, []⟩⟩
instance : Coe LinkError StreamError := ⟨fun error => ⟨.link error, []⟩⟩

/-- A result of one part as a result of the whole. -/
def lift {ε α : Type} [Coe ε StreamError] : Except ε α → Except StreamError α :=
  Except.mapError (fun error => (error : StreamError))

end LiveLayout
