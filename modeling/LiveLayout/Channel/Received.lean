import LiveLayout.Error
import LiveLayout.Wire.Decode

/-!
# Receiving over a connection

A receiver reads payloads off a connection, each behind its length in four bytes. The connection
may end between payloads; anywhere else its end is an error, and so is a payload that is longer
than the receiver allows.
-/

namespace LiveLayout

/-- The bytes of a connection that were not read yet, and the longest payload allowed. -/
structure Receiver where
  unread : Bytes
  limit : Nat
  deriving DecidableEq, Repr

namespace Receiver

/-- The longest payload a receiver allows unless told otherwise: 256 MiB. -/
def standardLimit : Nat := 256 * 1024 * 1024

/-- The next payload, or none at the end of the connection. -/
def next (receiver : Receiver) : Except StreamError (Option Bytes) × Receiver :=
  if receiver.unread.isEmpty then (.ok none, receiver)
  else
    let (lengthBytes, rest) := receiver.unread.splitAt 4
    if lengthBytes.length < 4 then
      (.error ⟨.codec .truncated, ["connection closed inside a length prefix"]⟩,
        { receiver with unread := [] })
    else
      let length := Word.value lengthBytes
      if receiver.limit < length then
        (.error (ChannelError.messageTooLong length receiver.limit),
          { receiver with unread := rest })
      else
        let (payload, rest) := rest.splitAt length
        if payload.length < length then
          (.error LinkError.unfilled, { receiver with unread := [] })
        else (.ok (some payload), { receiver with unread := rest })

/-- The next message, or none at the end of the connection. -/
def nextMessage (receiver : Receiver) : Except StreamError (Option Message) × Receiver :=
  match receiver.next with
  | (.error error, receiver) => (.error error, receiver)
  | (.ok none, receiver) => (.ok none, receiver)
  | (.ok (some payload), receiver) =>
    match Message.decode payload with
    | .ok message => (.ok (some message), receiver)
    | .error error =>
      (.error ⟨.codec error, [s!"Failed to decode {payload.length}-byte message"]⟩, receiver)

/-- Takes items, at most `fuel` of them, until the end, an error or an item that is the last. What
was taken is returned with how it ended. -/
def takeWhileMore {α : Type} (take : Receiver → Except StreamError (Option α) × Receiver)
    (isLast : α → Bool) (items : List α) :
    Nat → Receiver → List α × Except StreamError Unit × Receiver
  | 0, receiver => (items.reverse, .ok (), receiver)
  | fuel + 1, receiver =>
    match take receiver with
    | (.error error, receiver) => (items.reverse, .error error, receiver)
    | (.ok none, receiver) => (items.reverse, .ok (), receiver)
    | (.ok (some item), receiver) =>
      if isLast item then ((item :: items).reverse, .ok (), receiver)
      else takeWhileMore take isLast (item :: items) fuel receiver

/-- All payloads up to the end or an error. Every payload uses up bytes, so their number is
bounded by that of the bytes. -/
def payloads (receiver : Receiver) : List Bytes × Except StreamError Unit × Receiver :=
  takeWhileMore next (fun _ => false) [] (receiver.unread.length + 1) receiver

/-- All messages up to the end or an error. -/
def messages (receiver : Receiver) : List Message × Except StreamError Unit × Receiver :=
  takeWhileMore nextMessage (fun _ => false) [] (receiver.unread.length + 1) receiver

/-- The sentinel ends a stream. -/
def isClose : Message → Bool
  | .close => true
  | .frame _ => false

/-- All messages up to the sentinel or the end of the connection. -/
def collect (receiver : Receiver) : Except StreamError (List Message) × Receiver :=
  match takeWhileMore nextMessage isClose [] (receiver.unread.length + 1) receiver with
  | (messages, .ok (), receiver) => (.ok messages, receiver)
  | (_, .error error, receiver) => (.error error, receiver)

end Receiver

end LiveLayout
