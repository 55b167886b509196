import LiveLayout.Proofs.Session.Accounting
import LiveLayout.Proofs.Session.Ownership

/-!
# What every contact keeps

What a transport has become may be told from its contacts. A relation between the two that every
contact keeps also holds of the transport that a session leaves and all that the session put to it,
so what is known of a transport by itself is known of it under any session.
-/

namespace LiveLayout

variable {τ : Type}

/-- A start brings a transport that had no contact yet. -/
def Call.Brings (Holds : List Contact → τ → Prop) : Call τ → Prop
  | start _ _ _ channel => ∃ transport, channel.endpoint = .attached transport ∧ Holds [] transport
  | _ => True

variable [Transport τ]

theorem Step.closings_subset (step : Step (Observed τ)) :
    step.closings ⊆ step.contacts := by
  unfold Step.closings
  split
  · exact List.Subset.refl _
  · exact List.Subset.refl _
  · exact List.nil_subset _

namespace Session

/-- A session whose transport, if it has had one, has to do with its journal as told. -/
inductive Held (Holds : List Contact → τ → Prop) : Session (Observed (Endpoint τ)) → Prop where
  | unopened {options : SessionOptions} : Held Holds ⟨options, .unopened⟩
  | live {options : SessionOptions} {openedAt : Instant} {framing : Framing} {transport : τ}
      {journal : List Contact} {stats : ChannelStats} (h : Holds journal transport) :
      Held Holds
        ⟨options, .live openedAt framing ⟨.attached ⟨.attached transport, journal⟩, stats⟩⟩
  | closed {options : SessionOptions} {summary : Summary} {transport : τ}
      {journal : List Contact} {stats : ChannelStats} (h : Holds journal transport) :
      Held Holds ⟨options, .closed summary ⟨.released ⟨.released transport, journal⟩, stats⟩⟩
  | neverOpened {options : SessionOptions} {summary : Summary} :
      Held Holds ⟨options, .closed summary .unopened⟩

section Opened

variable {options : SessionOptions} {calls : List (Call τ)}

/-- A session that was opened is so over watched channels too, whatever is called behind that. -/
theorem openedUnused_watched_append (h : OpenedUnused ((new options).steps calls))
    (later : List (Call τ)) : OpenedUnused (watched options (calls ++ later)) := by
  apply openedUnused_watched
  obtain ⟨step, hmem, hstep⟩ := h
  rw [steps_append]
  exact ⟨step, List.mem_append_left _ hmem, hstep⟩

/-- A session that was opened and then closed has hung up. -/
theorem close_mem_watched {summary : Summary}
    (hopened : OpenedUnused (watched options calls))
    (hclosed : ((new options : Session (Observed (Endpoint τ))).after
      (calls.map Call.watch)).summary? = some summary) :
    .close ∈ (watched options calls).flatMap Step.contacts := by
  obtain ⟨-, answer, hclosings, -⟩ :=
    (run_watched options calls).2.ledger.closed summary hclosed hopened
  have hmem : Contact.close ∈ (watched options calls).flatMap Step.closings := by
    rw [hclosings]
    exact List.mem_cons_of_mem _ List.mem_cons_self
  obtain ⟨step, hstep, hclose⟩ := List.mem_flatMap.mp hmem
  exact List.mem_flatMap.mpr ⟨step, hstep, step.closings_subset hclose⟩

end Opened

section Kept

variable {Holds : List Contact → τ → Prop} {session next : Session (Observed (Endpoint τ))}
  {call : Call τ} {reply : Reply (Observed (Endpoint τ))}

theorem holds_of_passes (hkeeps : Transport.Keeps Holds)
    {first last : Endpoint (Observed (Endpoint τ))} {offers : List (Bytes × SendResult)}
    {transport : τ} {journal : List Contact} (h : first.Passes offers last)
    (hfirst : first = .attached ⟨.attached transport, journal⟩) (hholds : Holds journal transport) :
    ∃ used later, last = .attached ⟨.attached used, later⟩ ∧ Holds later used := by
  cases h with
  | attached h =>
      obtain rfl := Endpoint.attached.inj hfirst
      induction h with
      | nothing => exact ⟨_, _, rfl, hholds⟩
      | trySend _ payload ih =>
          obtain ⟨used, later, hlast, hused⟩ := ih
          obtain rfl := Endpoint.attached.inj hlast
          exact ⟨_, _, rfl, hkeeps.trySend hused payload⟩
      | sendTimeout _ payload timeout ih =>
          obtain ⟨used, later, hlast, hused⟩ := ih
          obtain rfl := Endpoint.attached.inj hlast
          exact ⟨_, _, rfl, hkeeps.sendTimeout hused payload timeout⟩
  | _ => cases hfirst

theorem Held.passes {options : SessionOptions} {openedAt : Instant} {framing settled : Framing}
    {channel later : Channel (Observed (Endpoint τ))} {offers : List (Bytes × SendResult)}
    (h : Held Holds ⟨options, .live openedAt framing channel⟩) (hkeeps : Transport.Keeps Holds)
    (hpasses : channel.endpoint.Passes offers later.endpoint) :
    Held Holds ⟨options, .live openedAt settled later⟩ := by
  cases h with
  | live hholds =>
      obtain ⟨used, journal, hlast, hused⟩ := holds_of_passes hkeeps hpasses rfl hholds
      rcases later with ⟨endpoint, stats⟩
      obtain rfl : endpoint = _ := hlast
      exact .live hused

theorem Held.teardown (h : Held Holds session) (hkeeps : Transport.Keeps Holds) (now : Instant) :
    Held Holds (session.teardown now).2 := by
  cases h with
  | unopened => exact .neverOpened
  | live hholds => exact .closed (hkeeps.close (hkeeps.sendTimeout hholds closeSentinel _))
  | closed hholds => exact .closed hholds
  | neverOpened => exact .neverOpened

theorem Held.transition (h : Held Holds session) (hkeeps : Transport.Keeps Holds)
    (htransition : Transition session call.watch reply next) (hbrings : call.Brings Holds) :
    Held Holds next := by
  generalize hcall : call.watch = watched at htransition
  cases htransition with
  | started hstart =>
      cases call <;> cases hcall
      obtain ⟨transport, hattached, hholds⟩ := hbrings
      rw [Channel.watch, hattached]
      exact .live hholds
  | @iterated options openedAt framing channel buffer positions named hbatch =>
      obtain ⟨offers, hoffers⟩ := named.passes_invoke buffer channel
      exact h.passes hkeeps hoffers
  | @updated options openedAt framing channel payload =>
      obtain ⟨offers, hoffers⟩ := channel.passes_send payload
      exact h.passes hkeeps hoffers
  | refreshed hrefresh =>
      cases h with
      | live hholds => exact .live hholds
  | tornDown => exact h.teardown hkeeps _
  | closed => exact h.teardown hkeeps _
  | _ => exact h

theorem held_watched (hkeeps : Transport.Keeps Holds) (options : SessionOptions)
    (calls : List (Call τ)) (hbrings : ∀ call ∈ calls, call.Brings Holds) :
    Held Holds ((new options).after (calls.map Call.watch)) := by
  induction calls using List.reverseRecOn with
  | nil => exact .unopened
  | append_singleton calls call ih =>
      obtain ⟨hsound, -⟩ := run_watched options calls
      have hearlier := ih fun call hcall => hbrings call (List.mem_append_left _ hcall)
      have hcall := hbrings call (List.mem_append_right _ List.mem_cons_self)
      rw [List.map_append, after_append]
      exact hearlier.transition hkeeps (hsound.named.transition call.watch) hcall

/-- What every contact keeps holds of the transport that a session leaves, and of all that the
session put to it. -/
theorem exists_left (hkeeps : Transport.Keeps Holds) (options : SessionOptions)
    (calls : List (Call τ)) (now : Instant) (hopened : OpenedUnused ((new options).steps calls))
    (hbrings : ∀ call ∈ calls, call.Brings Holds) :
    let journal := (watched options (calls ++ [.teardown now])).flatMap Step.contacts
    ∃ left, ((new options).after (calls ++ [.teardown now])).channel.endpoint = .released left ∧
      Holds journal left := by
  intro journal
  have hall : ∀ call ∈ calls ++ [.teardown now], call.Brings Holds := by
    intro call hcall
    rcases List.mem_append.mp hcall with hearlier | hlast
    · exact hbrings call hearlier
    · rw [List.mem_singleton.mp hlast]
      trivial
  have hheld := held_watched hkeeps options _ hall
  have hjournal : _ = [] ++ journal := (named_new options).journal_after _
  have hsummary := summary?_watched options calls now
  have hclose : .close ∈ journal :=
    close_mem_watched (openedUnused_watched_append hopened _) hsummary
  rw [List.nil_append] at hjournal
  rw [← hjournal] at hclose ⊢
  rw [← after_watched options (calls ++ [Call.teardown now])]
  generalize ((new options).after ((calls ++ [Call.teardown now]).map Call.watch)) = session
    at hheld hsummary hclose ⊢
  -- A session that was never opened has put nothing to a transport, not even its closing.
  cases hheld with
  | closed hholds => exact ⟨_, rfl, hholds⟩
  | neverOpened => cases hclose
  | _ => cases hsummary

end Kept

end Session

end LiveLayout
