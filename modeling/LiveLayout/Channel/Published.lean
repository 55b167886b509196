import LiveLayout.Channel.Queue
import LiveLayout.Wire.Word

/-!
# Publishing over a connection

The producer only touches a bounded queue. A writer takes payloads off it and writes each behind
its length in four bytes to the one subscriber; with nobody connected it discards them. Closing
lets the writer finish what is queued and then ends the connection.
-/

namespace LiveLayout

/-- A payload on a connection: its length in four bytes, then its bytes. -/
def delimited (payload : Bytes) : Bytes := Word.encode 4 payload.length ++ payload

/-- A publisher: the queue in front of its writer, and the bytes written to the subscriber so far,
if one is connected. -/
structure Publisher where
  queue : Queue
  written? : Option Bytes
  deriving DecidableEq, Repr

namespace Publisher

/-- A publisher with nobody connected. -/
def ofCapacity (capacity : Nat) : Publisher := ⟨Queue.ofCapacity capacity, none⟩

/-- A subscriber connects. -/
def subscribe (publisher : Publisher) : Publisher := { publisher with written? := some [] }

/-- Somebody is connected and the publisher is not closed. -/
def hasSubscriber (publisher : Publisher) : Bool :=
  publisher.written?.isSome && publisher.queue.producing

/-- The writer takes the next payload and writes or discards it. -/
def write (publisher : Publisher) : Publisher :=
  match publisher.queue.waiting with
  | [] => publisher
  | payload :: rest =>
    ⟨{ publisher.queue with waiting := rest }, publisher.written?.map (· ++ delimited payload)⟩

/-- The writer takes everything that waits. -/
def flush (publisher : Publisher) : Publisher :=
  ⟨{ publisher.queue with waiting := [] },
    publisher.written?.map (· ++ publisher.queue.waiting.flatMap delimited)⟩

instance : Transport Publisher where
  name _ := "tcp"
  trySend publisher payload :=
    let (result, queue) := publisher.queue.push payload
    (result, { publisher with queue })
  sendTimeout publisher payload _ :=
    let (result, queue) := publisher.queue.push payload
    (result, { publisher with queue })
  close publisher :=
    let publisher := publisher.flush
    { publisher with queue := publisher.queue.hangUp }

end Publisher

end LiveLayout
