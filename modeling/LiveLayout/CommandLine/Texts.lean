import LiveLayout.Error

/-!
# Fixed texts

The help text, the version, and the report of an error with what caused it.
-/

namespace LiveLayout.CommandLine

/-- The name and version of the program. -/
def versionText : String := "layoutstream 0.1.0\n"

/-- The help text. -/
def helpText : String :=
  "Stream a live graph layout to a renderer\n\nUsage: layoutstream [OPTIONS]\n\nOptions:\n" ++
  "  -c, --config <CONFIG>\n" ++
  "          Config file (defaults to the platform config directory)\n" ++
  "  -d, --dataset <DATASET>\n          Dataset to lay out (small or large)\n" ++
  "  -n, --max-iter <MAX_ITER>\n          Number of layout iterations\n" ++
  "      --tcp <TCP>\n" ++
  "          Publish over TCP on this address instead of the configured transport\n" ++
  "      --wait-subscriber <WAIT_SUBSCRIBER>\n" ++
  "          Seconds to wait for a TCP subscriber before starting the layout [default: 0]\n" ++
  "      --resend-edges\n          Send the edge frame with every node frame\n" ++
  "      --seed <SEED>\n          Seed for the stand-in layout [default: 24301]\n" ++
  "      --log-dir <LOG_DIR>\n" ++
  "          Also write logs to a daily rolling file in this directory\n" ++
  "      --save-config <SAVE_CONFIG>\n" ++
  "          Write the effective config to this path and exit\n" ++
  "      --summary-json\n          Print the session summary as JSON\n" ++
  "  -h, --help\n          Print help\n" ++
  "  -V, --version\n          Print version\n"

/-- A line with every further line of it indented alike. -/
def indented (first next text : String) : String :=
  first ++ String.join (text.toList.map fun c => if c = '\n' then "\n" ++ next else c.toString)

/-- Causes behind their numbers. -/
def numberedCauses (n : Nat) : List String → String
  | [] => ""
  | cause :: rest => "\n" ++ indented s!"    {n}: " "       " cause ++ numberedCauses (n + 1) rest

/-- The report of an error and its causes; a single cause has no number. -/
def report (message : String) (causes : List String) : String :=
  let tail :=
    match causes with
    | [] => ""
    | [cause] => "\n\nCaused by:\n" ++ indented "    " "    " cause
    | causes => "\n\nCaused by:" ++ numberedCauses 0 causes
  "Error: " ++ message ++ tail ++ "\n"

/-- A message with the causes under it. -/
structure Failure where
  message : String
  causes : List String
  deriving DecidableEq, Repr

/-- An error as it stands. -/
def Failure.ofError (error : StreamError) : Failure := ⟨error.message, error.causes⟩

/-- An error met while doing something. -/
def Failure.during (doing : String) (error : StreamError) : Failure :=
  ⟨doing, error.message :: error.causes⟩

/-- The report of a failure. -/
def Failure.report (failure : Failure) : String :=
  CommandLine.report failure.message failure.causes

end LiveLayout.CommandLine
