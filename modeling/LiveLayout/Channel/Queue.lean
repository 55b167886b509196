import LiveLayout.Channel.Basic
import LiveLayout.Numeric.Power

/-!
# Bounded queues

A transport inside one process: a first-in-first-out queue of bounded length. A payload is refused
when the queue is full, when nobody is left to read it, or once the producer has hung up. A queue
of length zero refuses everything, since nobody is ever waiting at the other end.
-/

namespace LiveLayout

/-- A queue between a producer and a consumer. -/
structure Queue where
  capacity : Nat
  waiting : List Bytes
  producing : Bool
  consuming : Bool
  deriving DecidableEq, Repr

namespace Queue

/-- The bytes of memory that a place of a queue takes. -/
def placeBytes : Nat := 32

/-- Memory has addresses for a queue of this capacity, all of whose places are made in advance. -/
def fits (capacity : Nat) : Bool := capacity * placeBytes < twoPow 63

/-- An empty queue with both ends in use. -/
def ofCapacity (capacity : Nat) : Queue := ⟨capacity, [], true, true⟩

/-- Adds a payload at the end if there is room. -/
def push (queue : Queue) (payload : Bytes) : SendResult × Queue :=
  if !queue.producing then (.dropped .closed, queue)
  else if !queue.consuming then (.dropped .disconnected, queue)
  else if queue.capacity ≤ queue.waiting.length then (.dropped .wouldBlock, queue)
  else (.delivered, { queue with waiting := queue.waiting ++ [payload] })

/-- The producer hangs up; what waits can still be read. -/
def hangUp (queue : Queue) : Queue := { queue with producing := false }

/-- The consumer leaves, and what waits is lost. -/
def abandon (queue : Queue) : Queue := { queue with waiting := [], consuming := false }

/-- Reads up to `most` payloads from the front. -/
def drain (queue : Queue) (most : Nat) : List Bytes × Queue :=
  (queue.waiting.take most, { queue with waiting := queue.waiting.drop most })

/-- The consumer is there and will get nothing more than what waits. -/
def isHungUp (queue : Queue) : Bool := queue.consuming && !queue.producing

/-- A timed send on a queue that nobody drains meanwhile ends as a send now would. -/
instance : Transport Queue where
  name _ := "in-process"
  trySend queue payload := queue.push payload
  sendTimeout queue payload _ := queue.push payload
  close := hangUp

end Queue

end LiveLayout
