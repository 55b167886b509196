import LiveLayout.Document.Datum

/-!
# Session states

A session is opened once and closed once. What it may do depends on where it stands.
-/

namespace LiveLayout

/-- Where a session stands. -/
inductive SessionState where
  | unopened
  | live
  | closed
  deriving DecidableEq, Repr

namespace SessionState

/-- The name of a state. -/
def name : SessionState → String
  | unopened => "Unopened"
  | live => "Open"
  | closed => "Closed"

/-- The state of exactly that name. -/
def ofName? (text : String) : Option SessionState :=
  [unopened, live, closed].find? fun state => state.name = text

/-- The state that a document records. -/
def ofDatum? (datum : Datum) : Option SessionState := (datum.choice? .json).bind ofName?

end SessionState

/-- What was asked of a session. -/
inductive Operation where
  | start
  | update
  | refreshEdges
  | iterate
  | described (phrase : String)
  deriving DecidableEq, Repr

/-- An operation as it appears in messages. -/
def Operation.phrase : Operation → String
  | start => "open a session"
  | update => "send an update"
  | refreshEdges => "refresh edges"
  | iterate => "stream an iteration"
  | described phrase => phrase

end LiveLayout
