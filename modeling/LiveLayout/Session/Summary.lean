import LiveLayout.Channel.Rate
import LiveLayout.Document.Datum
import LiveLayout.Time.Instant

/-!
# Session summaries

What a session did, recorded when it is closed, and its record as a document.
-/

namespace LiveLayout

/-- What a session did. -/
structure Summary where
  iterations : Nat
  edgeFrames : Nat
  framesSkipped : Nat
  channel : ChannelStats
  sentinelDelivered : Bool
  openedAt? : Option Instant
  closedAt : Instant
  deriving DecidableEq, Repr

/-- The counters of a channel as a document. -/
def ChannelStats.toDatum (stats : ChannelStats) : Datum :=
  .table [("sent", .int stats.sent), ("dropped", .int stats.dropped),
    ("rejected", .int stats.rejected), ("bytes_sent", .int stats.bytesSent)]

/-- A counter of a document. -/
def counter? (datum : Datum) (name : String) : Option Nat :=
  (datum.get? name).bind (Datum.natUpTo? (UInt64.size - 1))

/-- The counters that a document records. -/
def ChannelStats.ofDatum? (datum : Datum) : Option ChannelStats := do
  let record ← datum.record? .json ["sent", "dropped", "rejected", "bytes_sent"]
  let sent ← counter? record "sent"
  let dropped ← counter? record "dropped"
  let rejected ← counter? record "rejected"
  let bytesSent ← counter? record "bytes_sent"
  return ⟨sent, dropped, rejected, bytesSent⟩

namespace Summary

/-- The milliseconds that a session was open. -/
def openMillis? (summary : Summary) : Option Int :=
  summary.openedAt?.map fun openedAt => Instant.millisBetween openedAt summary.closedAt

/-- A summary as a document. -/
def toDatum (summary : Summary) : Datum :=
  .table [("iterations", .int summary.iterations), ("edge_frames", .int summary.edgeFrames),
    ("frames_skipped", .int summary.framesSkipped), ("channel", summary.channel.toDatum),
    ("sentinel_delivered", .bool summary.sentinelDelivered),
    ("opened_at", match summary.openedAt? with
      | some openedAt => .date openedAt.render
      | none => .null),
    ("closed_at", .date summary.closedAt.render)]

/-- The time that a document names. -/
def instant? (datum : Datum) : Option Instant := datum.text?.bind Instant.parse?

/-- The time that a session was opened at, if the document names one. -/
def openedAt?Of (datum : Datum) : Option (Option Instant) :=
  match datum.get? "opened_at" with
  | none => some none
  | some .null => some none
  | some value => (instant? value).map some

/-- The names of what a summary records. -/
def fieldNames : List String :=
  ["iterations", "edge_frames", "frames_skipped", "channel", "sentinel_delivered", "opened_at",
    "closed_at"]

/-- The summary that a document records. -/
def ofDatum? (datum : Datum) : Option Summary := do
  let record ← datum.record? .json fieldNames
  let iterations ← counter? record "iterations"
  let edgeFrames ← counter? record "edge_frames"
  let framesSkipped ← counter? record "frames_skipped"
  let channel ← ChannelStats.ofDatum? (← record.get? "channel")
  let sentinelDelivered ← (← record.get? "sentinel_delivered").bool?
  let openedAt? ← openedAt?Of record
  let closedAt ← instant? (← record.get? "closed_at")
  return ⟨iterations, edgeFrames, framesSkipped, channel, sentinelDelivered, openedAt?, closedAt⟩

/-- The line that reports a summary. -/
def line (summary : Summary) : String :=
  s!"{summary.iterations} iterations, {summary.channel.sent} sent, " ++
    s!"{summary.channel.dropped} dropped ({summary.channel.lossPercent})"

end Summary

end LiveLayout
