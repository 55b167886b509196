import LiveLayout.Channel.Basic

/-!
# Scripted transports

A transport that answers by a script, whatever is sent: the answers to plain sends and those to
timed sends are two lists, each gone through over and over. It keeps what it took, how often it
was closed and how long each timed send would have waited.
-/

namespace LiveLayout

/-- A transport with prepared answers. -/
structure Scripted where
  answers : List SendResult
  finalAnswers : List SendResult
  asked : Nat
  taken : List Bytes
  timeouts : List Nat
  closes : Nat
  deriving DecidableEq, Repr

namespace Scripted

/-- A transport before its first payload. -/
def ofAnswers (answers finalAnswers : List SendResult) : Scripted :=
  ⟨answers, finalAnswers, 0, [], [], 0⟩

/-- The answer at a place of a list that starts again at its end. -/
def answerAt (answers : List SendResult) (place : Nat) : SendResult :=
  answers[place % answers.length]?.getD .delivered

/-- Keeps a payload that was taken. -/
def keep (script : Scripted) (answer : SendResult) (payload : Bytes) : Scripted :=
  if answer.isDelivered then { script with taken := script.taken ++ [payload] } else script

/-- Reads up to `most` payloads from the front. -/
def drain (script : Scripted) (most : Nat) : List Bytes × Scripted :=
  (script.taken.take most, { script with taken := script.taken.drop most })

instance : Transport Scripted where
  name _ := "pattern"
  trySend script payload :=
    let answer := answerAt script.answers script.asked
    (answer, { script.keep answer payload with asked := script.asked + 1 })
  sendTimeout script payload timeout :=
    let answer := answerAt script.finalAnswers script.timeouts.length
    (answer, { script.keep answer payload with timeouts := script.timeouts ++ [timeout] })
  close script := { script with closes := script.closes + 1 }

end Scripted

/-- Either of two transports. -/
instance {α β : Type} [Transport α] [Transport β] : Transport (α ⊕ β) where
  name
    | .inl transport => Transport.name transport
    | .inr transport => Transport.name transport
  trySend transport payload :=
    match transport with
    | .inl transport => Prod.map id .inl (Transport.trySend transport payload)
    | .inr transport => Prod.map id .inr (Transport.trySend transport payload)
  sendTimeout transport payload timeout :=
    match transport with
    | .inl transport => Prod.map id .inl (Transport.sendTimeout transport payload timeout)
    | .inr transport => Prod.map id .inr (Transport.sendTimeout transport payload timeout)
  close
    | .inl transport => .inl (Transport.close transport)
    | .inr transport => .inr (Transport.close transport)

end LiveLayout
