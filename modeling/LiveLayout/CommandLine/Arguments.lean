import LiveLayout.Graph.Clustered
import LiveLayout.Text.Digits

/-!
# Arguments

What the command line asks for. An option takes its value from the next argument, after an equals
sign, or, in its short form, right behind its letter; no option may be given twice. Help and the
version are answered as soon as they are met, after anything wrong in front of them.
-/

namespace LiveLayout.CommandLine

/-- The settings of a run that the command line may give. -/
structure Arguments where
  config? : Option String
  dataset? : Option DatasetKind
  iterations? : Option Nat
  address? : Option String
  waitSeconds? : Option Nat
  resendEdges : Bool
  seed? : Option Nat
  logDirectory? : Option String
  saveTo? : Option String
  asJson : Bool
  deriving DecidableEq, Repr

/-- Nothing asked for. -/
def Arguments.none : Arguments :=
  ⟨.none, .none, .none, .none, .none, false, .none, .none, .none, false⟩

/-- What to do. -/
inductive Request where
  | run (arguments : Arguments)
  | help
  | version
  deriving DecidableEq, Repr

/-- An option with a value. -/
inductive ValueOption where
  | config
  | dataset
  | iterations
  | address
  | waitSeconds
  | seed
  | logDirectory
  | saveTo
  deriving DecidableEq, Repr

/-- The option of a long name. -/
def ValueOption.ofName? : String → Option ValueOption
  | "config" => some config
  | "dataset" => some dataset
  | "max-iter" => some iterations
  | "tcp" => some address
  | "wait-subscriber" => some waitSeconds
  | "seed" => some seed
  | "log-dir" => some logDirectory
  | "save-config" => some saveTo
  | _ => none

/-- The option of a letter. -/
def ValueOption.ofLetter? : Char → Option ValueOption
  | 'c' => some config
  | 'd' => some dataset
  | 'n' => some iterations
  | _ => none

/-- A number up to `most`, with a plus sign or without; zero may have a minus sign if
`negativeZero`. -/
def number? (most : Nat) (negativeZero : Bool) (text : String) : Option Nat := do
  let n ← match text.toList with
    | '+' :: rest => numberIn? 10 rest
    | '-' :: rest => do
      let n ← numberIn? 10 rest
      if negativeZero && n = 0 then some n else none
    | rest => numberIn? 10 rest
  if n ≤ most then some n else none

/-- A path is any text but the empty one. -/
def path? (text : String) : Option String := if text.isEmpty then none else some text

/-- Fills a setting that was not given before. -/
def fill {α : Type} (old : Option α) (value? : Option α) : Option (Option α) :=
  match old, value? with
  | none, some value => some (some value)
  | _, _ => none

/-- Gives an option its value, if it has none yet and the value is one it can have. -/
def Arguments.give (arguments : Arguments) (option : ValueOption) (text : String) :
    Option Arguments :=
  match option with
  | .config => (fill arguments.config? (path? text)).map ({ arguments with config? := · })
  | .dataset =>
    (fill arguments.dataset? (DatasetKind.parse text).toOption).map
      ({ arguments with dataset? := · })
  | .iterations =>
    (fill arguments.iterations? (number? (UInt32.size - 1) true text)).map
      ({ arguments with iterations? := · })
  | .address => (fill arguments.address? (some text)).map ({ arguments with address? := · })
  | .waitSeconds =>
    (fill arguments.waitSeconds? (number? (UInt64.size - 1) false text)).map
      ({ arguments with waitSeconds? := · })
  | .seed =>
    (fill arguments.seed? (number? (UInt64.size - 1) false text)).map
      ({ arguments with seed? := · })
  | .logDirectory =>
    (fill arguments.logDirectory? (path? text)).map ({ arguments with logDirectory? := · })
  | .saveTo => (fill arguments.saveTo? (path? text)).map ({ arguments with saveTo? := · })

/-- A name and what follows the first equals sign, if there is one. -/
def splitValue (text : List Char) : String × Option String :=
  let name := text.takeWhile (· ≠ '=')
  match text.drop name.length with
  | [] => (String.ofList name, none)
  | _ :: value => (String.ofList name, some (String.ofList value))

/-- How reading goes on after an argument: further, with an option that waits for its value, or
not, with an answer. -/
inductive Progress where
  | further (arguments : Arguments)
  | waiting (arguments : Arguments) (option : ValueOption)
  | answer (request : Request)
  | wrong

/-- Goes on with what an option made of its value. -/
def Progress.ofGiven : Option Arguments → Progress
  | some arguments => .further arguments
  | none => .wrong

/-- An argument that starts with two dashes. -/
def longArgument (arguments : Arguments) (text : List Char) : Progress :=
  let (name, value?) := splitValue text
  match ValueOption.ofName? name, value? with
  | some option, some value => .ofGiven (arguments.give option value)
  | some option, none => .waiting arguments option
  | none, some _ => .wrong
  | none, none =>
    if name = "help" then .answer .help
    else if name = "version" then .answer .version
    else if name = "resend-edges" && !arguments.resendEdges then
      .further { arguments with resendEdges := true }
    else if name = "summary-json" && !arguments.asJson then
      .further { arguments with asJson := true }
    else .wrong

/-- An argument that starts with one dash and a letter. -/
def shortArgument (arguments : Arguments) (letter : Char) (rest : List Char) : Progress :=
  if letter = 'h' then .answer .help
  else if letter = 'V' then .answer .version
  else
    match ValueOption.ofLetter? letter, rest with
    | none, _ => .wrong
    | some option, [] => .waiting arguments option
    | some option, '=' :: value => .ofGiven (arguments.give option (String.ofList value))
    | some option, value => .ofGiven (arguments.give option (String.ofList value))

/-- An argument where no value is waited for. Nothing but options is taken. -/
def argument (arguments : Arguments) (text : String) : Progress :=
  match text.toList with
  | '-' :: '-' :: rest => longArgument arguments rest
  | '-' :: letter :: rest => shortArgument arguments letter rest
  | _ => .wrong

/-- An option other than a lone dash. -/
def looksLikeOption (text : String) : Bool :=
  match text.toList with
  | '-' :: _ :: _ => true
  | _ => false

/-- Reads arguments from left to right. Two lone dashes end the options, and nothing may follow
them. -/
def read (arguments : Arguments) : List String → Option Request
  | [] => some (.run arguments)
  | text :: rest =>
    if text = "--" then (if rest.isEmpty then some (.run arguments) else none)
    else
      match argument arguments text, rest with
      | .further arguments, rest => read arguments rest
      | .answer request, _ => some request
      | .wrong, _ => none
      | .waiting _ _, [] => none
      | .waiting arguments option, value :: rest =>
        if looksLikeOption value then none
        else
          match arguments.give option value with
          | some arguments => read arguments rest
          | none => none

/-- What the arguments ask for, or nothing if they make no sense. -/
def parse (texts : List String) : Option Request := read .none texts

end LiveLayout.CommandLine
