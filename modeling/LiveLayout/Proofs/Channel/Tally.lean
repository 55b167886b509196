import LiveLayout.Proofs.Channel.Observed

/-!
# Counters and journals

The counters of a channel are a tally of its journal: each payload put to the transport is counted
once, by what became of it, and those that were taken with their bytes.
-/

namespace LiveLayout

namespace ChannelStats

/-- The counters after one more contact. -/
def recordContact (stats : ChannelStats) : Contact → ChannelStats
  | .offer payload answer => stats.record answer payload.length
  | .close => stats

/-- The counters after some more contacts. -/
def tally (stats : ChannelStats) (contacts : List Contact) : ChannelStats :=
  contacts.foldl recordContact stats

@[simp] theorem tally_nil (stats : ChannelStats) : stats.tally [] = stats := rfl

@[simp] theorem tally_cons (stats : ChannelStats) (contact : Contact) (rest : List Contact) :
    stats.tally (contact :: rest) = (stats.recordContact contact).tally rest := rfl

@[simp] theorem tally_append (stats : ChannelStats) (contacts later : List Contact) :
    stats.tally (contacts ++ later) = (stats.tally contacts).tally later :=
  List.foldl_append

theorem sent_tally (stats : ChannelStats) (contacts : List Contact) :
    (stats.tally contacts).sent = stats.sent + (contacts.filterMap Contact.taken?).length := by
  induction contacts generalizing stats with
  | nil => rfl
  | cons contact rest ih =>
      rw [tally_cons, ih]
      rcases contact with ⟨payload, _ | _ | _⟩ | _ <;>
        simp [recordContact, record, Contact.taken?, List.filterMap_cons, Nat.add_assoc,
          Nat.add_comm 1]

theorem bytesSent_tally (stats : ChannelStats) (contacts : List Contact) :
    (stats.tally contacts).bytesSent =
      stats.bytesSent + ((contacts.filterMap Contact.taken?).map List.length).sum := by
  induction contacts generalizing stats with
  | nil => rfl
  | cons contact rest ih =>
      rw [tally_cons, ih]
      rcases contact with ⟨payload, _ | _ | _⟩ | _ <;>
        simp [recordContact, record, Contact.taken?, List.filterMap_cons, Nat.add_assoc]

/-- The payloads that any counter counts. -/
def total (stats : ChannelStats) : Nat := stats.sent + stats.dropped + stats.rejected

theorem total_record (stats : ChannelStats) (answer : SendResult) (length : Nat) :
    (stats.record answer length).total = stats.total + 1 := by
  rcases answer with _ | ⟨_ | _ | _⟩ <;> simp only [record, total] <;> omega

theorem total_tally (stats : ChannelStats) (contacts : List Contact) :
    (stats.tally contacts).total =
      stats.total + (contacts.filterMap Contact.offered?).length := by
  induction contacts generalizing stats with
  | nil => rfl
  | cons contact rest ih =>
      rw [tally_cons, ih]
      cases contact with
      | offer payload answer =>
          simp only [recordContact, total_record, Contact.offered?, List.filterMap_cons,
            List.length_cons]
          omega
      | close => rfl

end ChannelStats

namespace Channel

variable {τ : Type} [Transport τ]

theorem sending_of_open {channel : Channel (Observed τ)} (hopen : channel.isClosed = false)
    (payload : Bytes) : channel.sending payload = [.offer payload (channel.send payload).1] := by
  rw [sending, if_neg (Bool.eq_false_iff.mp hopen)]

theorem stats_send (channel : Channel τ) (payload : Bytes) :
    (channel.send payload).2.stats =
      channel.stats.record (channel.send payload).1 payload.length := by
  rcases channel with ⟨endpoint, stats⟩
  cases endpoint <;> rfl

theorem journal_close (channel : Channel (Observed τ)) (hopen : channel.isClosed = false) :
    channel.close.journal = channel.journal ++ [.close] := by
  rcases channel with ⟨endpoint, stats⟩
  cases endpoint with
  | absent => cases hopen
  | attached observed => rfl
  | released observed => cases hopen

/-- The last payload and the closing of a channel. -/
theorem journal_sendFinal_close {channel : Channel (Observed τ)}
    (hopen : channel.isClosed = false) (payload : Bytes) (timeout : Nat) :
    (channel.sendFinal payload timeout).2.close.journal =
      channel.journal ++ [.offer payload (channel.sendFinal payload timeout).1, .close] := by
  rcases channel with ⟨endpoint, stats⟩
  cases endpoint with
  | absent => cases hopen
  | attached observed => exact List.append_assoc _ _ _
  | released observed => cases hopen

theorem stats_sendFinal_close (channel : Channel τ) (payload : Bytes) (timeout : Nat) :
    (channel.sendFinal payload timeout).2.close.stats =
      channel.stats.record (channel.sendFinal payload timeout).1 payload.length := by
  rcases channel with ⟨endpoint, stats⟩
  cases endpoint <;> rfl

end Channel

end LiveLayout
