import LiveLayout.Proofs.Session.Effect

/-!
# Frames in steps

What a batch puts to the transport is sorted by the kind of frame it is read as. A frame that has
no wire form is not seen there; it shows in the count of skipped frames.
-/

namespace LiveLayout

/-- The kind of frame that a payload is read as. -/
def frameKind? (payload : Bytes) : Option FrameKind :=
  match Message.decode payload with
  | .ok (.frame frame) => some frame.kind
  | _ => none

namespace Contact

/-- The kind of frame that was put to the transport, if one was. -/
def kind? (contact : Contact) : Option FrameKind := contact.offered?.bind frameKind?

theorem Carries.kind? {kind : FrameKind} {k : Nat} {contact : Contact}
    (h : contact.Carries kind k) : contact.kind? = some kind := by
  obtain ⟨wire, answer, table, rfl, hdecode⟩ := h
  simp only [Contact.kind?, offered?, Option.bind_some, frameKind?, hdecode]

end Contact

namespace Session

variable {τ : Type}

/-- The frames that a session skipped so far for want of a wire form. -/
def framesSkipped (session : Session τ) : Nat :=
  match session.phase with
  | .unopened => 0
  | .live _ framing _ => framing.framesSkipped
  | .closed summary _ => summary.framesSkipped

/-- The edge frames of a session that were taken so far, as it counts them. -/
def edgeFrames (session : Session τ) : Nat :=
  match session.phase with
  | .unopened => 0
  | .live _ framing _ => framing.edgeFrames
  | .closed summary _ => summary.edgeFrames

section Closing

variable {session next : Session (Observed τ)} {now : Instant} {summary : Summary}
  {contacts : List Contact}

theorem Closing.edgeFrames_eq (h : Closing session now summary contacts next) :
    next.edgeFrames = session.edgeFrames := by
  cases h <;> rfl

theorem Closing.iteration_eq (h : Closing session now summary contacts next) :
    next.iteration = session.iteration := by
  cases h <;> rfl

theorem Closing.framesSkipped_eq (h : Closing session now summary contacts next) :
    next.framesSkipped = session.framesSkipped := by
  cases h <;> rfl

theorem Closing.options_eq (h : Closing session now summary contacts next) :
    next.options = session.options := by
  cases h <;> rfl

theorem Closing.phase_eq (h : Closing session now summary contacts next) :
    ∃ channel, next.phase = .closed summary channel := by
  cases h <;> exact ⟨_, rfl⟩

end Closing

end Session

namespace Step

variable {τ : Type} [Transport τ]

/-- The frames of a kind that a batch puts to the transport, each with its answer. -/
def frames (kind : FrameKind) (step : Step (Observed τ)) : List Contact :=
  match step.call with
  | .iterate _ => step.contacts.filter fun contact => contact.kind? = some kind
  | _ => []

/-- The frames of a kind that the transport takes from a batch. -/
def takenFrames (kind : FrameKind) (step : Step (Observed τ)) : List Bytes :=
  (step.frames kind).filterMap Contact.taken?

/-- The frames that a step skips. -/
def skipped (step : Step τ) : Nat := step.after.framesSkipped - step.before.framesSkipped

/-- The edge frames that a step skips: all that it skips but the node frame, which is skipped where
none is put to the transport. -/
def skippedEdges (step : Step (Observed τ)) : Nat :=
  step.skipped - (1 - (step.frames .nodes).length)

/-- The step streams a batch while the edge frame is owed. -/
def edgesDue (step : Step τ) : Bool :=
  step.streamed && match step.before.phase with
    | .live _ framing _ => framing.owesEdges
    | _ => false

end Step

namespace Framing

variable {framing settled next : Framing} {positions : Positions} {edges nodes : List Contact}

theorem Settles.offer_eq (h : framing.Settles edges settled) :
    ∀ contact ∈ edges, ∃ wire answer, contact = .offer wire answer ∧
      framing.edgeFrame = .ok wire := by
  cases h with
  | taken owed h => exact List.forall_mem_singleton.mpr ⟨_, _, rfl, h⟩
  | lost owed h => exact List.forall_mem_singleton.mpr ⟨_, _, rfl, h⟩
  | _ => exact List.forall_mem_nil _

theorem Advances.offer_eq (h : framing.Advances positions nodes next) :
    ∀ contact ∈ nodes, ∃ wire answer, contact = .offer wire answer ∧
      framing.nodeFrame positions = .ok wire := by
  cases h with
  | offered h => exact List.forall_mem_singleton.mpr ⟨_, _, rfl, h⟩
  | skipped h => exact List.forall_mem_nil _

theorem Settles.carry (h : framing.Settles edges settled) (hnamed : framing.Named) :
    ∀ contact ∈ edges, contact.Carries .edges framing.iteration := by
  intro contact hcontact
  obtain ⟨wire, answer, rfl, hwire⟩ := h.offer_eq contact hcontact
  exact ⟨wire, answer, _, rfl, hnamed.decode_edgeFrame hwire⟩

theorem Advances.carry (h : framing.Advances positions nodes next) (hnamed : framing.Named) :
    ∀ contact ∈ nodes, contact.Carries .nodes framing.iteration := by
  intro contact hcontact
  obtain ⟨wire, answer, rfl, hwire⟩ := h.offer_eq contact hcontact
  exact ⟨wire, answer, _, rfl, hnamed.decode_nodeFrame hwire⟩

/-- An edge frame that is owed is put to the transport or skipped, and no other is. -/
theorem Settles.attempts (h : framing.Settles edges settled) :
    framing.framesSkipped ≤ settled.framesSkipped ∧
      edges.length + settled.framesSkipped =
        framing.framesSkipped + if framing.owesEdges then 1 else 0 := by
  cases h with
  | notOwed h => simp [h]
  | taken owed h => simp [owed, Nat.add_comm]
  | lost owed h => simp [owed, Nat.add_comm]
  | skipped owed h => simp [owed]

/-- A node frame is put to the transport or skipped. -/
theorem Advances.attempts (h : framing.Advances positions nodes next) :
    nodes.length ≤ 1 ∧ nodes.length + next.framesSkipped = framing.framesSkipped + 1 := by
  cases h with
  | offered h => exact ⟨Nat.le_refl 1, Nat.add_comm 1 _⟩
  | skipped h => exact ⟨Nat.zero_le 1, Nat.zero_add _⟩

theorem Settles.edgeFrames_eq (h : framing.Settles edges settled) :
    settled.edgeFrames = framing.edgeFrames + (edges.filterMap Contact.taken?).length := by
  cases h <;> rfl

theorem Settles.taken_length (h : framing.Settles edges settled) :
    (edges.filterMap Contact.taken?).length ≤ if framing.owesEdges then 1 else 0 := by
  refine (List.length_filterMap_le _ _).trans ?_
  obtain ⟨hskipped, hattempts⟩ := h.attempts
  omega

theorem Advances.edgeFrames_eq (h : framing.Advances positions nodes next) :
    next.edgeFrames = framing.edgeFrames := by
  cases h <;> rfl

end Framing

/-- Contacts of one kind are sorted to that kind. -/
theorem filter_kind_of_carries {kind other : FrameKind} {k : Nat} {contacts : List Contact}
    (h : ∀ contact ∈ contacts, contact.Carries kind k) :
    (contacts.filter fun contact => contact.kind? = some other) =
      if kind = other then contacts else [] := by
  split_ifs with hkind
  · refine List.filter_eq_self.mpr fun contact hcontact => ?_
    rw [(h contact hcontact).kind?, hkind, decide_eq_true rfl]
  · refine List.filter_eq_nil_iff.mpr fun contact hcontact => ?_
    rw [(h contact hcontact).kind?]
    simpa using hkind

namespace Step

variable {τ : Type} [Transport τ]

theorem frames_of_contacts_eq_nil {step : Step (Observed τ)} (h : step.contacts = [])
    (kind : FrameKind) : step.frames kind = [] := by
  unfold frames
  split
  · rw [h, List.filter_nil]
  · rfl

theorem takenFrames_of_contacts_eq_nil {step : Step (Observed τ)} {kind : FrameKind}
    (h : step.contacts = []) : step.takenFrames kind = [] := by
  rw [takenFrames, frames_of_contacts_eq_nil h, List.filterMap_nil]

section Streamed

variable {session : Session (Observed τ)} {buffer : PositionBuffer}
  {framing settled next : Framing} {positions : Positions} {edges nodes : List Contact}

/-- The contacts of a batch are sorted into those of its edge frame and those of its node frame. -/
theorem frames_streamed (hnamed : framing.Named) (hsettles : framing.Settles edges settled)
    (hadvances : settled.Advances positions nodes next)
    (hcontacts : (Step.mk session (.iterate buffer)).contacts = edges ++ nodes) :
    (Step.mk session (.iterate buffer)).frames .edges = edges ∧
      (Step.mk session (.iterate buffer)).frames .nodes = nodes := by
  have hedges := hsettles.carry hnamed
  have hnodes := hadvances.carry (hnamed.of_setup_eq hsettles.setup_eq)
  constructor
  · simp only [frames, hcontacts, List.filter_append, filter_kind_of_carries hedges,
      filter_kind_of_carries hnodes]
    simp
  · simp only [frames, hcontacts, List.filter_append, filter_kind_of_carries hedges,
      filter_kind_of_carries hnodes]
    simp

/-- What a batch skips beside its node frame is its edge frame. -/
theorem skippedEdges_streamed {options : SessionOptions} {openedAt : Instant}
    {channel later : Channel (Observed τ)} (hadvances : settled.Advances positions nodes next)
    (hframes : (Step.mk ⟨options, .live openedAt framing channel⟩ (.iterate buffer)).frames .nodes =
      nodes)
    (hafter : (Step.mk ⟨options, .live openedAt framing channel⟩ (.iterate buffer)).after =
      ⟨options, .live openedAt next later⟩) :
    (Step.mk ⟨options, .live openedAt framing channel⟩ (.iterate buffer)).skippedEdges =
      settled.framesSkipped - framing.framesSkipped := by
  obtain ⟨hlength, hattempts⟩ := hadvances.attempts
  simp only [skippedEdges, skipped, hframes, hafter, Session.framesSkipped]
  omega

end Streamed

end Step

namespace Session

variable {τ : Type} [Transport τ]

/-- A live session streams exactly the batches that its framing accepts. -/
theorem Named.streamed_eq {session : Session τ} (hnamed : session.Named) {openedAt : Instant}
    {framing : Framing} {channel : Channel τ}
    (hphase : session.phase = .live openedAt framing channel) (buffer : PositionBuffer) :
    (Step.mk session (.iterate buffer)).streamed = (framing.batch buffer).isOk := by
  have hframing := hnamed _ _ _ hphase
  simp only [Step.streamed, Step.reply, Session.perform, iterate, hphase, hframing.invoke_eq]
  cases framing.batch buffer <;> rfl

/-- What a streamed batch does: it settles its edge frame, then its node frame, and puts nothing
else to the transport. -/
theorem Sound.batch {session : Session (Observed τ)} (h : session.Sound) {buffer : PositionBuffer}
    (hstreamed : (Step.mk session (.iterate buffer)).streamed = true) :
    ∃ openedAt framing channel positions edges nodes settled next,
      session.phase = .live openedAt framing channel ∧ framing.Named ∧
        framing.batch buffer = .ok positions ∧
          framing.Settles edges settled ∧ settled.Advances positions nodes next ∧
            (Step.mk session (.iterate buffer)).frames .edges = edges ∧
              (Step.mk session (.iterate buffer)).frames .nodes = nodes ∧
                (Step.mk session (.iterate buffer)).skippedEdges =
                  settled.framesSkipped - framing.framesSkipped := by
  obtain ⟨reply, contacts, next, hreply, hcontacts, hafter, heffect⟩ :=
    h.exists_effect (.iterate buffer) trivial
  rw [Step.streamed, hreply] at hstreamed
  cases heffect with
  | streamed named hbatch settles advances counted =>
      obtain ⟨hedges, hnodes⟩ := Step.frames_streamed named settles advances hcontacts
      exact ⟨_, _, _, _, _, _, _, _, rfl, named, hbatch, settles, advances, hedges, hnodes,
        Step.skippedEdges_streamed advances hnodes hafter⟩
  | failed hfailed =>
      rw [hfailed.failed.not_streamed] at hstreamed
      cases hstreamed

/-- A batch that is refused puts nothing to the transport. -/
theorem Sound.contacts_of_refused {session : Session (Observed τ)} (h : session.Sound)
    {buffer : PositionBuffer} (hrefused : (Step.mk session (.iterate buffer)).streamed = false) :
    (Step.mk session (.iterate buffer)).contacts = [] := by
  obtain ⟨reply, contacts, next, hreply, hcontacts, -, heffect⟩ :=
    h.exists_effect (.iterate buffer) trivial
  rw [Step.streamed, hreply] at hrefused
  cases heffect with
  | streamed named hbatch settles advances counted => cases hrefused
  | failed hfailed => exact hcontacts

end Session

end LiveLayout
