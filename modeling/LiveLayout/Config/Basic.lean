import LiveLayout.Error
import LiveLayout.Graph.Clustered
import LiveLayout.Session.Options
import LiveLayout.Text.Blank

/-!
# Configurations

The settings of a streaming run. A configuration is valid when its queue holds something, its
frames have known columns once each and the nodes can be placed, and a connection has an address.
-/

namespace LiveLayout

/-- Where frames go. -/
inductive TransportChoice where
  | inProcess
  | tcp (address : String)
  deriving DecidableEq, Repr

/-- A transport as it is shown. -/
def TransportChoice.name : TransportChoice → String
  | inProcess => "in-process"
  | tcp address => "tcp://" ++ address

/-- The settings of a run. -/
structure Config where
  queueCapacity : Nat
  iterations : Nat
  nodeColumns : List String
  edgeColumns : List String
  resendEdges : Bool
  closeTimeout : Nat
  transport : TransportChoice
  dataset : Dataset
  deriving DecidableEq, Repr

namespace Config

/-- The settings that hold unless told otherwise. -/
def standard : Config :=
  ⟨64, 100, ColumnName.nodeDefaults, ColumnName.edgeDefaults, false, 500, .inProcess, .standard⟩

/-- The columns named by a setting are known and named once. -/
def checkColumns (setting : String) (known seen : List String) :
    List String → Except ConfigError Unit
  | [] => .ok ()
  | name :: rest =>
    if name ∉ known then .error (.unknownColumn setting name known)
    else if name ∈ seen then .error (.repeatedColumn setting name)
    else checkColumns setting known (name :: seen) rest

/-- The column is among those of a setting. -/
def checkIncluded (setting : String) (names : List String) (name : String) :
    Except ConfigError Unit :=
  if name ∈ names then .ok () else .error (.lacksColumn setting name)

/-- The transport can be addressed. -/
def checkTransport : TransportChoice → Except ConfigError Unit
  | .inProcess => .ok ()
  | .tcp address => if isBlankText address then .error .noAddress else .ok ()

/-- Finds the first thing wrong with a configuration. -/
def validate (config : Config) : Except ConfigError Unit := do
  if config.queueCapacity = 0 then .error .emptyQueue
  checkColumns "node_col_names" ColumnName.nodeDefaults [] config.nodeColumns
  [ColumnName.id, ColumnName.x, ColumnName.y].forM
    (checkIncluded "node_col_names" config.nodeColumns)
  checkColumns "edge_col_names" ColumnName.edgeDefaults [] config.edgeColumns
  checkTransport config.transport

/-- The options of a session of this run. -/
def sessionOptions (config : Config) : SessionOptions :=
  ⟨config.nodeColumns, config.edgeColumns, config.resendEdges, config.closeTimeout⟩

end Config

end LiveLayout
