import LiveLayout.Channel.Basic

/-!
# Channels in logs

A channel as a log line shows it: the name of its transport, while it has one, and its counters.
-/

namespace LiveLayout

/-- A record in a log: its name and its fields in order. -/
def shownRecord (name : String) (fields : List (String × String)) : String :=
  name ++ " \x7b " ++ ", ".intercalate (fields.map fun (field, value) => field ++ ": " ++ value) ++
    " \x7d"

/-- The counters of a channel in a log. -/
def ChannelStats.shown (stats : ChannelStats) : String :=
  shownRecord "ChannelStats"
    [("sent", toString stats.sent), ("dropped", toString stats.dropped),
      ("rejected", toString stats.rejected), ("bytes_sent", toString stats.bytesSent)]

/-- A channel in a log. Once closed it has no transport to name. -/
def Channel.shown {τ : Type} [Transport τ] (channel : Channel τ) : String :=
  let transport := match channel.endpoint with
    | .attached transport => "Some(\"" ++ Transport.name transport ++ "\")"
    | _ => "None"
  shownRecord "StreamChannel" [("transport", transport), ("stats", channel.stats.shown)]

end LiveLayout
