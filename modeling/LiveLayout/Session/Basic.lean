import LiveLayout.Layout.Algorithm
import LiveLayout.Session.Framing
import LiveLayout.Session.Summary

/-!
# Sessions

A session is opened once with a graph and a channel, streams batches while it is open, and is
closed once: closing sends the sentinel and closes the channel. A call that its state forbids
changes nothing.
-/

namespace LiveLayout

/-- Where a session stands, with what it holds there. -/
inductive Phase (τ : Type) where
  | unopened
  | live (openedAt : Instant) (framing : Framing) (channel : Channel τ)
  | closed (summary : Summary) (channel : Channel τ)

/-- One streaming run. -/
structure Session (τ : Type) where
  options : SessionOptions
  phase : Phase τ

namespace Session

variable {τ : Type}

/-- A session that was not opened yet. -/
def new (options : SessionOptions) : Session τ := ⟨options, .unopened⟩

/-- Where the session stands. -/
def state (session : Session τ) : SessionState :=
  match session.phase with
  | .unopened => .unopened
  | .live .. => .live
  | .closed .. => .closed

/-- The number of batches streamed. -/
def iteration (session : Session τ) : Nat :=
  match session.phase with
  | .unopened => 0
  | .live _ framing _ => framing.iteration
  | .closed summary _ => summary.iterations

/-- The channel of the session; one without a transport if it never had another. -/
def channel (session : Session τ) : Channel τ :=
  match session.phase with
  | .unopened => .unopened
  | .live _ _ channel => channel
  | .closed _ channel => channel

/-- The summary recorded on closing. -/
def summary? (session : Session τ) : Option Summary :=
  match session.phase with
  | .closed summary _ => some summary
  | _ => none

/-- The error of an operation that the state of the session forbids. -/
def refusal (session : Session τ) (operation : Operation) : StreamError :=
  ⟨.invalidState operation session.state, []⟩

/-- Changes the transport where it can still be reached, as its consumer does. -/
def mapTransport (session : Session τ) (change : τ → τ) : Session τ :=
  match session.phase with
  | .unopened => session
  | .live openedAt framing channel =>
    { session with phase := .live openedAt framing (channel.mapTransport change) }
  | .closed summary channel =>
    { session with phase := .closed summary (channel.mapTransport change) }

variable [Transport τ]

/-- Opens the session over a channel. A channel that cannot be used is closed and handed back
beside the error. -/
def startHeld (now : Instant) (graph : Graph) (mapper : PositionMapper) (channel : Channel τ) :
    EStateM (StreamError × Channel τ) (Session τ) Unit := do
  let held ← get
  match held.phase with
  | .unopened =>
    match Framing.start mapper graph held.options with
    | .ok framing => modify fun session => { session with phase := .live now framing channel }
    | .error error => throw (error, channel.close)
  | _ => throw (held.refusal .start, channel.close)

/-- The session behind a start that was not refused. -/
def start (session : Session τ) (now : Instant) (graph : Graph) (mapper : PositionMapper)
    (channel : Channel τ) : Except (StreamError × Channel τ) (Session τ) :=
  match (startHeld now graph mapper channel).run session with
  | .ok _ started => .ok started
  | .error refused _ => .error refused

/-- Streams one batch of positions. -/
def iterate (session : Session τ) (buffer : PositionBuffer) :
    Except StreamError Unit × Session τ :=
  match session.phase with
  | .live openedAt framing channel =>
    let (result, framing, channel) := framing.invoke buffer channel
    (result, { session with phase := .live openedAt framing channel })
  | _ => (.error (session.refusal .iterate), session)

/-- Sends a payload that is no frame of the session. -/
def update (session : Session τ) (payload : Bytes) :
    Except StreamError SendResult × Session τ :=
  match session.phase with
  | .live openedAt framing channel =>
    let (result, channel) := channel.send payload
    (.ok result, { session with phase := .live openedAt framing channel })
  | _ => (.error (session.refusal .update), session)

omit [Transport τ] in
/-- Takes over a new edge table, to be sent in front of the next node frame. -/
def refreshEdges (session : Session τ) (edges : EdgeTable) :
    Except StreamError Unit × Session τ :=
  match session.phase with
  | .live openedAt framing channel =>
    match (Framing.refreshHeld edges).run framing with
    | .ok _ framing => (.ok (), { session with phase := .live openedAt framing channel })
    | .error error framing =>
      (.error error, { session with phase := .live openedAt framing channel })
  | _ => (.error (session.refusal .refreshEdges), session)

/-- Closes the session, after the sentinel if it was open. Closing again changes nothing. -/
def teardown (session : Session τ) (now : Instant) : Summary × Session τ :=
  match session.phase with
  | .unopened =>
    let summary : Summary := ⟨0, 0, 0, .zero, false, none, now⟩
    (summary, { session with phase := .closed summary .unopened })
  | .live openedAt framing channel =>
    let (result, channel) := channel.sendFinal closeSentinel session.options.closeTimeout
    let channel := channel.close
    let summary : Summary := ⟨framing.iteration, framing.edgeFrames, framing.framesSkipped,
      channel.stats, result.isDelivered, some openedAt, now⟩
    (summary, { session with phase := .closed summary channel })
  | .closed summary _ => (summary, session)

/-- Lets go of the session, closing its channel without a word if it is still open. -/
def release (session : Session τ) : Channel τ := session.channel.close

/-- The session as what a layout reports to. -/
def callback (now : Instant) : Callback (Session τ) where
  onIteration buffer session := session.iterate buffer
  onClose session := (.ok (), (session.teardown now).2)

/-- Runs a layout against the session and then closes it, whatever came of the layout. -/
def streamLayout (session : Session τ) (now : Instant) (layout : Layout) :
    Except StreamError Summary × Session τ :=
  let (outcome, session) := layout.run (callback now) session
  let (summary, session) := session.teardown now
  (outcome.map fun _ => summary, session)

end Session

end LiveLayout
