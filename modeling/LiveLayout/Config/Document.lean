import LiveLayout.Config.Basic
import LiveLayout.Document.Toml.Parser
import LiveLayout.Document.Toml.Printer

/-!
# Configurations as documents

A configuration is read from a document with every setting optional and others ignored, and
printed as a TOML document with every setting. A document has integers of 64 bits with sign, so a
larger number cannot be printed.
-/

namespace LiveLayout

/-- A setting of a document, or what holds if the document does not have it. -/
def Datum.setting? {α : Type} (datum : Datum) (name : String) (standard : α)
    (read? : Datum → Option α) : Option α :=
  match datum.get? name with
  | none => some standard
  | some value => read? value

/-- The largest count a machine word holds. -/
def wordMax : Nat := UInt64.size - 1

/-- The size of a graph, by its name. -/
def DatasetKind.ofDatum? (kind : DocumentKind) (datum : Datum) : Option DatasetKind :=
  (datum.choice? kind).bind ofName?

/-- The choice of a graph. -/
def Dataset.ofDatum? (kind : DocumentKind) (datum : Datum) : Option Dataset := do
  let record ← datum.record? kind ["kind", "chords_per_cluster"]
  let size ← record.setting? "kind" standard.kind (DatasetKind.ofDatum? kind)
  let chords ← record.setting? "chords_per_cluster" standard.chordsPerCluster
    (Datum.natUpTo? wordMax)
  some ⟨size, chords⟩

/-- The choice of a transport: a table with its type, or a list that starts with it. Only a
connection has an address. -/
def TransportChoice.ofDatum? : Datum → Option TransportChoice
  | .table entries => do
    let datum := Datum.table entries
    let type ← (← datum.get? "type").text?
    if type = "in_process" then some .inProcess
    else if type = "tcp" then do
      some (.tcp (← (← datum.get? "addr").text?))
    else none
  | .list [.text "in_process"] => some .inProcess
  | .list [.text "tcp", .text address] => some (.tcp address)
  | _ => none

namespace Config

/-- The names of the settings. -/
def settingNames : List String :=
  ["queue_capacity", "max_iter", "node_col_names", "edge_col_names", "resend_edges",
    "close_timeout_ms", "transport", "dataset"]

/-- The configuration that a record of settings gives. -/
def ofDatum? (kind : DocumentKind) (datum : Datum) : Option Config := do
  let record ← datum.record? kind settingNames
  let queueCapacity ← record.setting? "queue_capacity" standard.queueCapacity
    (Datum.natUpTo? wordMax)
  let iterations ← record.setting? "max_iter" standard.iterations (Datum.natUpTo? (UInt32.size - 1))
  let nodeColumns ← record.setting? "node_col_names" standard.nodeColumns Datum.texts?
  let edgeColumns ← record.setting? "edge_col_names" standard.edgeColumns Datum.texts?
  let resendEdges ← record.setting? "resend_edges" standard.resendEdges Datum.bool?
  let closeTimeout ← record.setting? "close_timeout_ms" standard.closeTimeout
    (Datum.natUpTo? wordMax)
  let transport ← record.setting? "transport" standard.transport TransportChoice.ofDatum?
  let dataset ← record.setting? "dataset" standard.dataset (Dataset.ofDatum? kind)
  some ⟨queueCapacity, iterations, nodeColumns, edgeColumns, resendEdges, closeTimeout, transport,
    dataset⟩

/-- The choice of a transport as settings. -/
def transportSettings : TransportChoice → List (String × Datum)
  | .inProcess => [("type", .text "in_process")]
  | .tcp address => [("type", .text "tcp"), ("addr", .text address)]

/-- A configuration as settings. -/
def toDatum (config : Config) : Datum :=
  .table [("queue_capacity", .int config.queueCapacity), ("max_iter", .int config.iterations),
    ("node_col_names", .list (config.nodeColumns.map .text)),
    ("edge_col_names", .list (config.edgeColumns.map .text)),
    ("resend_edges", .bool config.resendEdges), ("close_timeout_ms", .int config.closeTimeout),
    ("transport", .table (transportSettings config.transport)),
    ("dataset", .table [("kind", .text config.dataset.kind.name),
      ("chords_per_cluster", .int config.dataset.chordsPerCluster)])]

/-- One line of a printed configuration. -/
def line (name value : String) : String := name ++ " = " ++ value ++ "\n"

/-- The lines of a transport. -/
def transportLines : TransportChoice → String
  | .inProcess => line "type" (Toml.quote "in_process")
  | .tcp address => line "type" (Toml.quote "tcp") ++ line "addr" (Toml.quote address)

/-- A configuration as a TOML document, if its numbers fit one. -/
def render (config : Config) : Except ConfigError String :=
  if [config.queueCapacity, config.closeTimeout, config.dataset.chordsPerCluster].any
      (Int64.maxValue.toInt < ·) then .error .unprintable
  else
    .ok (line "queue_capacity" (toString config.queueCapacity) ++
      line "max_iter" (toString config.iterations) ++
      line "node_col_names" (Toml.quoteList config.nodeColumns) ++
      line "edge_col_names" (Toml.quoteList config.edgeColumns) ++
      line "resend_edges" (if config.resendEdges then "true" else "false") ++
      line "close_timeout_ms" (toString config.closeTimeout) ++
      "\n[transport]\n" ++ transportLines config.transport ++
      "\n[dataset]\n" ++ line "kind" (Toml.quote config.dataset.kind.name) ++
      line "chords_per_cluster" (toString config.dataset.chordsPerCluster))

/-- The valid configuration that a TOML document at some path gives. -/
def parse (path text : String) : Except StreamError Config :=
  match (Toml.parse? text).bind (ofDatum? .toml) with
  | none => .error (ConfigError.notUnderstood path)
  | some config =>
    match config.validate with
    | .ok () => .ok config
    | .error error => .error ⟨.config error, [s!"Invalid config in {path}"]⟩

/-- The valid configuration in a file at some path, from its bytes or why they cannot be read. -/
def load (path : String) (content : Except FileError Bytes) : Except StreamError Config :=
  match content with
  | .error error => .error (ConfigError.unreadable path error)
  | .ok bytes =>
    match Utf8.decode bytes with
    | .error _ => .error (ConfigError.unreadable path .notText)
    | .ok text => parse path text

end Config

end LiveLayout
