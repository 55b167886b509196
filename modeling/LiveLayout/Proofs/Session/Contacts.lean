import LiveLayout.Proofs.Channel.Observed
import LiveLayout.Proofs.Session.Framing

/-!
# Contacts of a batch

A batch puts at most an edge frame and then at most a node frame to the transport, and both are
read as frames of the current iteration.
-/

namespace LiveLayout

section Wires

variable {framing : Framing}

theorem Framing.Named.decode_edgeFrame (hnamed : framing.Named) {wire : Bytes}
    (h : framing.edgeFrame = .ok wire) :
    Message.decode wire = .ok (.frame ⟨.edges, UInt64.ofNat framing.iteration,
      ⟨framing.edgeFrameColumns, framing.edges.length⟩⟩) := by
  apply Message.decode_of_nodup h
  refine List.Nodup.sublist ?_ hnamed.edges_nodup
  exact Table.map_fst_picked_sublist framing.edges.table framing.edgeColumns

theorem Framing.Named.decode_nodeFrame (hnamed : framing.Named) {positions : Positions}
    {wire : Bytes} (h : framing.nodeFrame positions = .ok wire) :
    Message.decode wire = .ok (.frame ⟨.nodes, UInt64.ofNat framing.iteration,
      ⟨framing.nodeFrameColumns positions, positions.length⟩⟩) := by
  apply Message.decode_of_nodup h
  refine List.Nodup.sublist ?_ hnamed.nodes_nodup
  exact framing.map_fst_nodeFrameColumns_sublist positions

end Wires

/-- A contact puts a frame of a kind and an iteration to the transport. -/
def Contact.Carries (kind : FrameKind) (k : Nat) (contact : Contact) : Prop :=
  ∃ wire answer table, contact = .offer wire answer ∧
    Message.decode wire = .ok (.frame ⟨kind, UInt64.ofNat k, table⟩)

section Contacts

variable {τ : Type} [Transport τ]

theorem Channel.sending_length (channel : Channel (Observed τ)) (payload : Bytes) :
    (channel.sending payload).length ≤ 1 := by
  unfold Channel.sending
  split_ifs <;> simp

theorem Channel.carries_of_mem_sending {channel : Channel (Observed τ)} {payload : Bytes}
    {kind : FrameKind} {k : Nat} {table : Table}
    (h : Message.decode payload = .ok (.frame ⟨kind, UInt64.ofNat k, table⟩)) :
    ∀ contact ∈ channel.sending payload, contact.Carries kind k := by
  intro contact hcontact
  unfold Channel.sending at hcontact
  split_ifs at hcontact
  · simp at hcontact
  · rw [List.mem_singleton] at hcontact
    exact ⟨payload, _, table, hcontact, h⟩

namespace Framing

/-- The contacts of the edge frame: none if it is not owed or has no wire form. -/
def edgeContacts (framing : Framing) (channel : Channel (Observed τ)) : List Contact :=
  if framing.owesEdges then
    match framing.edgeFrame with
    | .ok wire => channel.sending wire
    | .error _ => []
  else []

/-- The contacts of the node frame: none if it has no wire form. -/
def nodeContacts (framing : Framing) (positions : Positions) (channel : Channel (Observed τ)) :
    List Contact :=
  match framing.nodeFrame positions with
  | .ok wire => channel.sending wire
  | .error _ => []

theorem journal_settleEdges (framing : Framing) (channel : Channel (Observed τ)) :
    (framing.settleEdges channel).2.journal = channel.journal ++ framing.edgeContacts channel := by
  unfold settleEdges edgeContacts
  split_ifs with howed
  · unfold sendEdges
    cases framing.edgeFrame with
    | error error => exact (List.append_nil _).symm
    | ok wire =>
        simp only []
        split_ifs
        · exact Channel.journal_send channel wire
        · exact Channel.journal_send channel wire
  · exact (List.append_nil _).symm

theorem isClosed_settleEdges (framing : Framing) (channel : Channel τ) :
    (framing.settleEdges channel).2.isClosed = channel.isClosed := by
  unfold settleEdges
  split_ifs with howed
  · unfold sendEdges
    cases framing.edgeFrame with
    | error error => rfl
    | ok wire =>
        simp only []
        split_ifs
        · exact Channel.isClosed_send channel wire
        · exact Channel.isClosed_send channel wire
  · rfl

theorem Named.isClosed_invoke {framing : Framing} (hnamed : framing.Named)
    (buffer : PositionBuffer) (channel : Channel τ) :
    (framing.invoke buffer channel).2.2.isClosed = channel.isClosed := by
  rw [hnamed.invoke_eq]
  cases framing.batch buffer with
  | error error => rfl
  | ok positions =>
      rw [← framing.isClosed_settleEdges channel]
      simp only [sendNodes]
      split
      · exact Channel.isClosed_send _ _
      · rfl

theorem Named.journal_invoke {framing : Framing} (hnamed : framing.Named)
    {buffer : PositionBuffer} {positions : Positions} (h : framing.batch buffer = .ok positions)
    (channel : Channel (Observed τ)) :
    (framing.invoke buffer channel).2.2.journal = channel.journal ++
      (framing.edgeContacts channel ++
        framing.nodeContacts positions (framing.settleEdges channel).2) := by
  rw [hnamed.invoke_eq, h, ← List.append_assoc, ← journal_settleEdges]
  simp only [sendNodes, iteration_settleEdges, nodeContacts]
  rw [← nodeFrame]
  cases framing.nodeFrame positions with
  | error error => exact (List.append_nil _).symm
  | ok wire => exact Channel.journal_send _ wire

theorem edgeContacts_length (framing : Framing) (channel : Channel (Observed τ)) :
    (framing.edgeContacts channel).length ≤ 1 := by
  unfold edgeContacts
  split
  · split
    · exact Channel.sending_length channel _
    · exact Nat.zero_le 1
  · exact Nat.zero_le 1

theorem nodeContacts_length (framing : Framing) (positions : Positions)
    (channel : Channel (Observed τ)) : (framing.nodeContacts positions channel).length ≤ 1 := by
  unfold nodeContacts
  split
  · exact Channel.sending_length channel _
  · exact Nat.zero_le 1

theorem Named.edgeContacts_carry {framing : Framing} (hnamed : framing.Named)
    (channel : Channel (Observed τ)) :
    ∀ contact ∈ framing.edgeContacts channel, contact.Carries .edges framing.iteration := by
  unfold edgeContacts
  split
  · split
    · next wire hwire =>
        exact Channel.carries_of_mem_sending (hnamed.decode_edgeFrame hwire)
    · simp
  · simp

theorem Named.nodeContacts_carry {framing : Framing} (hnamed : framing.Named)
    (positions : Positions) (channel : Channel (Observed τ)) :
    ∀ contact ∈ framing.nodeContacts positions channel,
      contact.Carries .nodes framing.iteration := by
  unfold nodeContacts
  split
  · next wire hwire =>
      exact Channel.carries_of_mem_sending (hnamed.decode_nodeFrame hwire)
  · simp

theorem nodeContacts_eq_nil {framing : Framing} {positions : Positions}
    {channel : Channel (Observed τ)} (hattached : channel.isClosed = false)
    (h : framing.nodeContacts positions channel = []) :
    ∃ error, framing.nodeFrame positions = .error error := by
  unfold nodeContacts Channel.sending at h
  cases hframe : framing.nodeFrame positions with
  | error error => exact ⟨error, rfl⟩
  | ok wire => simp [hframe, hattached] at h

end Framing

end Contacts

end LiveLayout
