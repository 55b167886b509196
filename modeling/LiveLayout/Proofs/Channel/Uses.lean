import LiveLayout.Channel.Scripted
import LiveLayout.Proofs.Channel.Tally

/-!
# Channels in use

A channel is sent payloads and closed, in any order and any number of times, and is let go of in the
end. Up to the first closing each payload is put to the transport, and from then on each is turned
away. So what a channel did in its life falls into two parts, and its counters tell both.
-/

namespace LiveLayout

/-- One use of a channel. -/
inductive Use where
  | send (payload : Bytes)
  | sendFinal (payload : Bytes) (timeout : Nat)
  | close
  deriving DecidableEq, Repr

/-- The payload that is sent, if one is. -/
def Use.payload? : Use → Option Bytes
  | send payload => some payload
  | sendFinal payload _ => some payload
  | close => none

namespace Use

/-- The uses in front of the first closing. -/
def beforeClose (uses : List Use) : List Use := uses.takeWhile fun use => decide (use ≠ .close)

/-- The uses from the first closing on. -/
def fromClose (uses : List Use) : List Use := uses.dropWhile fun use => decide (use ≠ .close)

@[simp] theorem beforeClose_close (rest : List Use) : beforeClose (.close :: rest) = [] := rfl

variable {use : Use} (hsends : use ≠ .close) (rest : List Use)

include hsends

theorem beforeClose_cons : beforeClose (use :: rest) = use :: beforeClose rest := by
  simp [beforeClose, hsends]

theorem fromClose_cons : fromClose (use :: rest) = fromClose rest := by
  simp [fromClose, hsends]

end Use

/-- A payload that was sent, with what became of it. -/
abbrev Answered := Bytes × SendResult

/-- The payload was put to the transport and answered by it. -/
def Contact.ofAnswered (answered : Answered) : Contact := .offer answered.1 answered.2

/-- A payload that was turned away by a closed channel. -/
def Answered.turnedAway (payload : Bytes) : Answered := (payload, .dropped .closed)

/-- The payloads among those sent that were taken. -/
def accepted (answers : List Answered) : List Bytes :=
  (answers.filter fun answered => answered.2.isDelivered).map Prod.fst

theorem accepted_cons (answered : Answered) (rest : List Answered) :
    accepted (answered :: rest) =
      (if answered.2.isDelivered then [answered.1] else []) ++ accepted rest := by
  unfold accepted
  rw [List.filter_cons]
  split_ifs <;> rfl

theorem accepted_append (answers later : List Answered) :
    accepted (answers ++ later) = accepted answers ++ accepted later := by
  rw [accepted, List.filter_append, List.map_append, ← accepted, ← accepted]

theorem accepted_sublist (answers : List Answered) :
    (accepted answers).Sublist (answers.map Prod.fst) :=
  List.filter_sublist.map Prod.fst

theorem accepted_turnedAway (payloads : List Bytes) :
    accepted (payloads.map Answered.turnedAway) = [] := by
  induction payloads with
  | nil => rfl
  | cons payload rest ih => rw [List.map_cons, accepted_cons, ih]; rfl

theorem filterMap_taken_ofAnswered (answers : List Answered) :
    (answers.map Contact.ofAnswered).filterMap Contact.taken? = accepted answers := by
  induction answers with
  | nil => rfl
  | cons answered rest ih =>
      rw [List.map_cons, List.filterMap_cons, accepted_cons, ih]
      rcases answered with ⟨payload, _ | reason⟩ <;> rfl

/-- Putting payloads to a transport does not close it. -/
theorem count_close_ofAnswered (answers : List Answered) :
    (answers.map Contact.ofAnswered).count .close = 0 :=
  List.count_eq_zero.mpr fun hmem => by
    obtain ⟨answered, -, hclose⟩ := List.mem_map.mp hmem
    cases hclose

namespace ChannelStats

/-- Each counter counts the answers that it is for. -/
theorem tally_ofAnswered (stats : ChannelStats) (answers : List Answered) :
    stats.tally (answers.map Contact.ofAnswered) =
      ⟨stats.sent + (answers.map Prod.snd).count .delivered,
        stats.dropped + (answers.map Prod.snd).count (.dropped .wouldBlock),
        stats.rejected + ((answers.map Prod.snd).count (.dropped .disconnected) +
          (answers.map Prod.snd).count (.dropped .closed)),
        stats.bytesSent + ((accepted answers).map List.length).sum⟩ := by
  induction answers generalizing stats with
  | nil => rfl
  | cons answered rest ih =>
      rw [List.map_cons, tally_cons, ih, accepted_cons]
      rcases answered with ⟨payload, _ | _ | _ | _⟩ <;>
        simp [recordContact, record, Contact.ofAnswered, SendResult.isDelivered] <;> omega

theorem tally_turnedAway (stats : ChannelStats) (payloads : List Bytes) :
    stats.tally ((payloads.map Answered.turnedAway).map Contact.ofAnswered) =
      { stats with rejected := stats.rejected + payloads.length } := by
  induction payloads generalizing stats with
  | nil => rfl
  | cons payload rest ih =>
      rw [List.map_cons, List.map_cons, tally_cons, ih, List.length_cons, Nat.add_comm rest.length,
        ← Nat.add_assoc]
      rfl

end ChannelStats

namespace Channel

section Uses

variable {τ : Type} [Transport τ]

/-- The channel after a use. -/
def afterUse (channel : Channel τ) : Use → Channel τ
  | .send payload => (channel.send payload).2
  | .sendFinal payload timeout => (channel.sendFinal payload timeout).2
  | .close => channel.close

/-- What a use sends, with its answer. -/
def answered (channel : Channel τ) : Use → List Answered
  | .send payload => [(payload, (channel.send payload).1)]
  | .sendFinal payload timeout => [(payload, (channel.sendFinal payload timeout).1)]
  | .close => []

/-- The channel after some uses. -/
def afterUses (channel : Channel τ) (uses : List Use) : Channel τ :=
  uses.foldl afterUse channel

/-- What some uses send, each payload with its answer. -/
def answers (channel : Channel τ) : List Use → List Answered
  | [] => []
  | use :: rest => channel.answered use ++ (channel.afterUse use).answers rest

/-- Lets go of the channel, which closes it. -/
def letGo (channel : Channel τ) : Channel τ := channel.close

omit [Transport τ] in
/-- A new channel, over a transport or without any. -/
def ofTransport? : Option τ → Channel τ
  | none => .unopened
  | some transport => .onto transport

omit [Transport τ] in
theorem stats_ofTransport? (transport? : Option τ) :
    (ofTransport? transport?).stats = .zero := by
  cases transport? <;> rfl

theorem map_fst_answered (channel : Channel τ) (use : Use) :
    (channel.answered use).map Prod.fst = use.payload?.toList := by
  cases use <;> rfl

theorem map_fst_answers (channel : Channel τ) (uses : List Use) :
    (channel.answers uses).map Prod.fst = uses.filterMap Use.payload? := by
  induction uses generalizing channel with
  | nil => rfl
  | cons use rest ih =>
      rw [answers, List.map_append, map_fst_answered, ih]
      cases use <;> rfl

theorem stats_afterUse (channel : Channel τ) (use : Use) :
    (channel.afterUse use).stats =
      channel.stats.tally ((channel.answered use).map Contact.ofAnswered) := by
  rcases channel with ⟨_ | _ | _, stats⟩ <;> cases use <;> rfl

/-- The counters are a tally of the answers. -/
theorem stats_afterUses (channel : Channel τ) (uses : List Use) :
    (channel.afterUses uses).stats =
      channel.stats.tally ((channel.answers uses).map Contact.ofAnswered) := by
  induction uses generalizing channel with
  | nil => rfl
  | cons use rest ih =>
      calc (channel.afterUses (use :: rest)).stats
          = (channel.afterUse use).stats.tally
              (((channel.afterUse use).answers rest).map Contact.ofAnswered) := ih _
        _ = channel.stats.tally ((channel.answers (use :: rest)).map Contact.ofAnswered) := by
              rw [stats_afterUse, ← ChannelStats.tally_append, ← List.map_append, answers]

/-- Each payload that is sent is counted once. -/
theorem total_afterUses (channel : Channel τ) (uses : List Use) :
    (channel.afterUses uses).stats.total =
      channel.stats.total + (uses.filterMap Use.payload?).length := by
  have hoffered : ∀ answers : List Answered,
      (answers.map Contact.ofAnswered).filterMap Contact.offered? = answers.map Prod.fst :=
    fun answers => by rw [List.filterMap_map, ← List.filterMap_eq_map]; rfl
  rw [stats_afterUses, ChannelStats.total_tally, hoffered, map_fst_answers]

/-! ## Closed channels -/

theorem isClosed_close (channel : Channel τ) : channel.close.isClosed = true := by
  rcases channel with ⟨_ | _ | _, stats⟩ <;> rfl

theorem isClosed_afterUses_close (channel : Channel τ) (uses : List Use) :
    (channel.afterUses (uses ++ [.close])).isClosed = true := by
  rw [afterUses, List.foldl_append]
  exact isClosed_close _

/-- A closed channel only counts what it is sent. -/
theorem use_of_isClosed {channel : Channel τ} (hclosed : channel.isClosed = true) (use : Use) :
    (channel.afterUse use).endpoint = channel.endpoint ∧
      channel.answered use = use.payload?.toList.map Answered.turnedAway := by
  rcases channel with ⟨_ | _ | _, stats⟩
  case attached => cases hclosed
  all_goals cases use <;> exact ⟨rfl, rfl⟩

/-- Whatever a closed channel is used for, its transport is not reached any more. -/
theorem uses_of_isClosed {channel : Channel τ} (hclosed : channel.isClosed = true)
    (uses : List Use) :
    (channel.afterUses uses).letGo.endpoint = channel.endpoint ∧
      channel.answers uses = (uses.filterMap Use.payload?).map Answered.turnedAway := by
  induction uses generalizing channel with
  | nil => exact ⟨(use_of_isClosed hclosed .close).1, rfl⟩
  | cons use rest ih =>
      obtain ⟨hendpoint, hanswered⟩ := use_of_isClosed hclosed use
      have hstill : (channel.afterUse use).isClosed = true := by
        rw [isClosed, hendpoint, ← isClosed, hclosed]
      obtain ⟨hlast, hanswers⟩ := ih hstill
      refine ⟨hlast.trans hendpoint, ?_⟩
      rw [answers, hanswered, hanswers]
      cases use <;> rfl

/-- What is sent over a closed channel is rejected. -/
theorem stats_of_isClosed {channel : Channel τ} (hclosed : channel.isClosed = true)
    (uses : List Use) :
    (channel.afterUses uses).stats = { channel.stats with
      rejected := channel.stats.rejected + (uses.filterMap Use.payload?).length } := by
  rw [stats_afterUses, (uses_of_isClosed hclosed uses).2, ChannelStats.tally_turnedAway]

omit [Transport τ] in
theorem journal_congr {channel other : Channel (Observed τ)}
    (h : channel.endpoint = other.endpoint) : channel.journal = other.journal := by
  rw [journal, h, ← journal]

/-! ## The life of a channel -/

/-- What is sent over an open channel is put to the transport, and the channel stays open. -/
theorem afterUse_of_open {channel : Channel (Observed τ)} (hopen : channel.isClosed = false)
    {use : Use} (hsends : use ≠ .close) :
    (channel.afterUse use).isClosed = false ∧ (channel.afterUse use).journal =
      channel.journal ++ (channel.answered use).map Contact.ofAnswered := by
  rcases channel with ⟨_ | observed | _, stats⟩
  case attached =>
    cases use with
    | close => exact absurd rfl hsends
    | _ => exact ⟨rfl, rfl⟩
  all_goals cases hopen

/-- The first closing divides the uses of an open channel. What is sent in front of it is put to the
transport, and answered by it; what is sent behind it is turned away. -/
theorem life_of_open {channel : Channel (Observed τ)} (hopen : channel.isClosed = false)
    (uses : List Use) :
    channel.answers uses = channel.answers (Use.beforeClose uses) ++
        ((Use.fromClose uses).filterMap Use.payload?).map Answered.turnedAway ∧
      (channel.afterUses uses).letGo.journal = channel.journal ++
        (channel.answers (Use.beforeClose uses)).map Contact.ofAnswered ++ [.close] := by
  induction uses generalizing channel with
  | nil =>
      refine ⟨rfl, ?_⟩
      rw [Use.beforeClose, List.takeWhile_nil, answers, List.map_nil, List.append_nil]
      exact channel.journal_close hopen
  | cons use rest ih =>
      by_cases hsends : use = .close
      · subst hsends
        obtain ⟨hendpoint, hanswers⟩ := uses_of_isClosed channel.isClosed_close rest
        refine ⟨hanswers, ?_⟩
        rw [Use.beforeClose_close, answers, List.map_nil, List.append_nil,
          ← channel.journal_close hopen]
        exact journal_congr hendpoint
      · obtain ⟨hstill, hjournal⟩ := afterUse_of_open hopen hsends
        obtain ⟨hanswers, hlast⟩ := ih hstill
        rw [Use.beforeClose_cons hsends, Use.fromClose_cons hsends, answers, answers, hanswers,
          List.append_assoc, List.map_append, ← List.append_assoc channel.journal, ← hjournal]
        exact ⟨rfl, hlast⟩

end Uses

/-! ## Observation -/

section Faithful

variable {σ τ : Type} [Transport σ] [Transport τ] {g : Channel σ → Channel τ}

theorem Faithful.use (hg : Faithful g) (channel : Channel σ) (use : Use) :
    (g channel).afterUse use = g (channel.afterUse use) ∧
      (g channel).answered use = channel.answered use := by
  cases use with
  | send payload => simp only [afterUse, answered, hg.send, and_self]
  | sendFinal payload timeout => simp only [afterUse, answered, hg.sendFinal, and_self]
  | close => exact ⟨hg.close channel, rfl⟩

theorem Faithful.uses (hg : Faithful g) (channel : Channel σ) (uses : List Use) :
    (g channel).afterUses uses = g (channel.afterUses uses) ∧
      (g channel).answers uses = channel.answers uses := by
  induction uses generalizing channel with
  | nil => exact ⟨rfl, rfl⟩
  | cons use rest ih =>
      obtain ⟨hafter, hanswered⟩ := hg.use channel use
      obtain ⟨hlast, hanswers⟩ := ih (channel.afterUse use)
      constructor
      · rw [afterUses, List.foldl_cons, hafter]
        exact hlast
      · rw [answers, hafter, hanswered, hanswers, answers]

end Faithful

variable {τ : Type} [Transport τ]

/-- Keeping a journal beside the transport changes nothing of a channel in use. -/
theorem uses_observe (channel : Channel τ) (uses : List Use) :
    (channel.observe.afterUses uses).map Observed.transport = channel.afterUses uses ∧
      channel.observe.answers uses = channel.answers uses := by
  obtain ⟨hafter, hanswers⟩ :=
    (map_faithful (Observed.faithful τ)).uses channel.observe uses
  rw [map_transport_observe] at hafter hanswers
  exact ⟨hafter.symm, hanswers.symm⟩

/-- What becomes of a new channel. Over a transport, the answers in front of the first closing are
those of the transport, which is put no other payload and is closed once. -/
theorem life_ofTransport? (transport? : Option τ) (uses : List Use) :
    let channel : Channel τ := ofTransport? transport?
    let asked := if transport?.isSome then channel.answers (Use.beforeClose uses) else []
    let late := if transport?.isSome then Use.fromClose uses else uses
    channel.answers uses = asked ++ (late.filterMap Use.payload?).map Answered.turnedAway ∧
      (channel.observe.afterUses uses).letGo.journal = asked.map Contact.ofAnswered ++
        if transport?.isSome then [.close] else [] := by
  intro channel asked late
  cases transport? with
  | none =>
      have hclosed : channel.observe.isClosed = true := rfl
      obtain ⟨hendpoint, hanswers⟩ := uses_of_isClosed hclosed uses
      exact ⟨(channel.uses_observe uses).2.symm.trans hanswers, journal_congr hendpoint⟩
  | some transport =>
      have hopen : channel.observe.isClosed = false := rfl
      obtain ⟨hanswers, hjournal⟩ := life_of_open hopen uses
      rw [(channel.uses_observe _).2] at hanswers hjournal
      rw [(channel.uses_observe _).2] at hanswers
      exact ⟨hanswers, hjournal⟩

/-- What the transport of a new channel has taken in the end, and how often it was closed. -/
theorem journal_letGo (transport? : Option τ) (uses : List Use) :
    let channel : Channel τ := ofTransport? transport?
    let journal := (channel.observe.afterUses uses).letGo.journal
    journal.filterMap Contact.taken? = accepted (channel.answers uses) ∧
      journal.count .close = if transport?.isSome then 1 else 0 := by
  intro channel journal
  obtain ⟨hanswers, hlife⟩ := life_ofTransport? transport? uses
  have hjournal : journal = _ := hlife
  have hclosings : ((if transport?.isSome then [.close] else []) : List Contact).filterMap
      Contact.taken? = [] := by
    split_ifs <;> rfl
  rw [hanswers, hjournal, List.filterMap_append, filterMap_taken_ofAnswered, hclosings,
    accepted_append, accepted_turnedAway, List.count_append, count_close_ofAnswered]
  refine ⟨rfl, ?_⟩
  split_ifs <;> rfl

/-- Any uses of a new channel, over any transport or without one, and letting go of it in the end.
The answers in front of the first closing are those of the transport, in the order of its journal,
and all others turn a payload away. The counters are those of the answers: each payload is counted
once, as sent if it was delivered, as dropped if the transport was full and as rejected else, and
the bytes are those of the payloads delivered. These are what the transport took, a subsequence of
what was sent. The transport, if there is one, is closed once. Behind the first closing nothing
reaches it, and all that is sent is turned away and rejected. -/
theorem counted_and_closed_once (transport? : Option τ) (uses : List Use) :
    let channel : Channel τ := ofTransport? transport?
    let answers := channel.answers uses
    let results := answers.map Prod.snd
    let stats := (channel.afterUses uses).stats
    let journal := (channel.observe.afterUses uses).letGo.journal
    let asked := if transport?.isSome then channel.answers (Use.beforeClose uses) else []
    let late := if transport?.isSome then Use.fromClose uses else uses
    (channel.observe.afterUses uses).map Observed.transport = channel.afterUses uses ∧
    answers = asked ++ (late.filterMap Use.payload?).map Answered.turnedAway ∧
    journal = asked.map Contact.ofAnswered ++ (if transport?.isSome then [.close] else []) ∧
    answers.map Prod.fst = uses.filterMap Use.payload? ∧
    (channel.afterUses uses).letGo.stats = stats ∧
    stats.sent + stats.dropped + stats.rejected = (uses.filterMap Use.payload?).length ∧
    stats.sent = results.count .delivered ∧
    stats.dropped = results.count (.dropped .wouldBlock) ∧
    stats.rejected = results.count (.dropped .disconnected) + results.count (.dropped .closed) ∧
    stats.bytesSent = ((accepted answers).map List.length).sum ∧
    journal.filterMap Contact.taken? = accepted answers ∧
    (accepted answers).Sublist (uses.filterMap Use.payload?) ∧
    journal.count .close = (if transport?.isSome then 1 else 0) ∧
    ∀ earlier later,
      let closed := channel.afterUses (earlier ++ [.close])
      let observed := channel.observe.afterUses (earlier ++ [.close])
      closed.answers later = (later.filterMap Use.payload?).map Answered.turnedAway ∧
      (closed.afterUses later).stats = { closed.stats with
        rejected := closed.stats.rejected + (later.filterMap Use.payload?).length } ∧
      (observed.afterUses later).letGo.journal = observed.journal := by
  intro channel answers results stats journal asked late
  have hstats : stats = _ := channel.stats_afterUses uses
  rw [stats_ofTransport?, ChannelStats.tally_ofAnswered] at hstats
  simp only [ChannelStats.zero, Nat.zero_add] at hstats
  have htotal : stats.total = _ := channel.total_afterUses uses
  rw [stats_ofTransport?] at htotal
  have hpayloads : answers.map Prod.fst = _ := channel.map_fst_answers uses
  obtain ⟨hasked, hjournal⟩ := life_ofTransport? transport? uses
  obtain ⟨htaken, hclosings⟩ := journal_letGo transport? uses
  refine ⟨(channel.uses_observe uses).1, hasked, hjournal, hpayloads, stats_afterUse _ .close,
    htotal.trans (Nat.zero_add _), ?_, ?_, ?_, ?_, htaken, hpayloads ▸ accepted_sublist answers,
    hclosings, fun earlier later => ⟨?_, ?_, ?_⟩⟩
  · exact congrArg ChannelStats.sent hstats
  · exact congrArg ChannelStats.dropped hstats
  · exact congrArg ChannelStats.rejected hstats
  · exact congrArg ChannelStats.bytesSent hstats
  · exact (uses_of_isClosed (isClosed_afterUses_close _ earlier) later).2
  · exact stats_of_isClosed (isClosed_afterUses_close _ earlier) later
  · exact journal_congr (uses_of_isClosed (isClosed_afterUses_close _ earlier) later).1

/-- A transport that takes every other payload: the third is lost, and the one behind the closing is
turned away. -/
theorem counted_and_closed_once_alternating :
    let transport : Scripted := .ofAnswers [.delivered, .dropped .wouldBlock] [.delivered]
    let uses : List Use := [.send [1], .sendFinal [2, 3] 50, .send [4], .close, .send [5]]
    let channel : Channel Scripted := ofTransport? (some transport)
    (channel.afterUses uses).stats = ⟨2, 1, 1, 3⟩ ∧
    (channel.observe.afterUses uses).letGo.journal =
      [.offer [1] .delivered, .offer [2, 3] .delivered, .offer [4] (.dropped .wouldBlock),
        .close] := by
  intro transport uses channel
  obtain ⟨-, -, hjournal, -⟩ := counted_and_closed_once (some transport) uses
  exact ⟨by decide, hjournal⟩

end Channel

end LiveLayout
