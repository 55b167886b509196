import LiveLayout.Proofs.Session.Driven
import LiveLayout.Proofs.Session.Joined

/-!
# Sessions over one graph

A session that takes over no other edge table frames the graph that it was started over until it is
closed. So all that it puts to its transport can be read, and every node frame among it has a row
for each node of that graph.
-/

namespace LiveLayout

/-- The call is one of a session that streams a graph and nothing else. -/
def Call.Over {τ : Type} (mapper : PositionMapper) (graph : Graph) : Call τ → Prop
  | start _ graph' mapper' _ => graph' = graph ∧ mapper' = mapper
  | update _ => False
  | refreshEdges _ => False
  | _ => True

theorem Call.Over.watch {τ : Type} {mapper : PositionMapper} {graph : Graph} {call : Call τ}
    (h : call.Over mapper graph) : call.watch.Over mapper graph := by
  cases call <;> exact h

theorem Call.FromLayout.over {τ : Type} {call : Call τ} (h : call.FromLayout)
    (mapper : PositionMapper) (graph : Graph) : call.Over mapper graph := by
  cases call <;> trivial

/-- Starting a session over a graph, running a layout and closing it streams nothing else. -/
theorem Layout.over_calls {τ : Type} [Transport τ] (layout : Layout) (session : Session τ)
    (mapper : PositionMapper) (graph : Graph) (opened closed : Instant) (channel : Channel τ) :
    ∀ call ∈ Call.start opened graph mapper channel ::
      (layout.calls closed session ++ [.teardown closed]), call.Over mapper graph := by
  refine List.forall_mem_cons.mpr ⟨⟨rfl, rfl⟩, List.forall_mem_append.mpr ⟨?_, ?_⟩⟩
  · intro call hcall
    exact (layout.fromLayout_calls session closed call hcall).over mapper graph
  · exact List.forall_mem_singleton.mpr trivial

/-- A node frame of the message has the columns asked for and a row for each node. -/
def Message.ShowsNodes (nodes : NodeTable) (names : List String) (message : Message) : Prop :=
  ∀ frame, message = .frame frame → frame.kind = .nodes →
    frame.table.WellFormed ∧ frame.table.rowCount = nodes.length ∧ frame.table.names = names

section Frames

variable {framing : Framing} {nodes : NodeTable} {names : List String} {positions : Positions}
  {wire : Bytes}

theorem Framing.Named.edgeFrame_shows (hnamed : framing.Named)
    (h : framing.edgeFrame = .ok wire) :
    ∃ message, Message.decode wire = .ok message ∧ message.ShowsNodes nodes names := by
  have hnodup : (framing.edgeFrameColumns.map Prod.fst).Nodup :=
    hnamed.edges_nodup.sublist (Table.map_fst_picked_sublist _ _)
  refine ⟨_, Message.decode_of_nodup h hnodup, ?_⟩
  rintro frame ⟨⟩ hkind
  cases hkind

theorem Framing.Named.nodeFrame_shows (hnamed : framing.Named)
    (hrows : positions.length = nodes.length) (h : framing.nodeFrame positions = .ok wire) :
    ∃ message, Message.decode wire = .ok message ∧
      message.ShowsNodes nodes framing.nodeColumns := by
  have hnames := hnamed.map_fst_nodeFrameColumns positions
  have hnodup : ((framing.nodeFrameColumns positions).map Prod.fst).Nodup :=
    hnames ▸ hnamed.nodes_nodup
  refine ⟨_, Message.decode_of_nodup h hnodup, ?_⟩
  rintro frame ⟨⟩ -
  exact ⟨(Frame.encode_of_decode (Frame.decode_of_nodup h hnodup)).2, hrows, hnames⟩

end Frames

namespace Session

variable {τ : Type} {mapper : PositionMapper} {graph : Graph} {options : SessionOptions}

/-- The session has these options, and its framing was started over this graph and kept its
tables. -/
structure Over (mapper : PositionMapper) (graph : Graph) (options : SessionOptions)
    (session : Session τ) : Prop where
  options_eq : session.options = options
  reached : ∀ openedAt framing channel, session.phase = .live openedAt framing channel →
    ∃ k, Framing.Reached mapper graph options graph.edges k framing

theorem over_new : (new options : Session τ).Over mapper graph options :=
  ⟨rfl, by rintro _ _ _ ⟨⟩⟩

theorem Over.named {session : Session τ} (h : session.Over mapper graph options) :
    session.Named := by
  intro openedAt framing channel hphase
  obtain ⟨k, hreached⟩ := h.reached openedAt framing channel hphase
  exact hreached.setup_eq.1

theorem over_live {openedAt : Instant} {framing : Framing} {channel : Channel τ} {k : Nat}
    (h : Framing.Reached mapper graph options graph.edges k framing) :
    Over mapper graph options ⟨options, .live openedAt framing channel⟩ := by
  refine ⟨rfl, ?_⟩
  rintro _ _ _ ⟨⟩
  exact ⟨k, h⟩

variable [Transport τ]

theorem Over.teardown {session : Session τ} (h : session.Over mapper graph options)
    (now : Instant) : (session.teardown now).2.Over mapper graph options := by
  obtain ⟨summary, channel, hclosed⟩ := session.teardown_phase now
  refine ⟨?_, ?_⟩
  · rw [← h.options_eq]
    rcases session with ⟨_, _ | _ | _⟩ <;> rfl
  · intro openedAt framing channel' hphase
    rw [hclosed] at hphase
    cases hphase

/-- Calls of a session that streams one graph keep it over that graph. -/
theorem Over.perform {session : Session τ} (h : session.Over mapper graph options)
    {call : Call τ} (hcall : call.Over mapper graph) :
    (session.perform call).2.Over mapper graph options := by
  have htransition := h.named.transition call
  generalize (session.perform call).1 = reply at htransition
  generalize (session.perform call).2 = next at htransition ⊢
  cases htransition with
  | started hstart =>
      obtain ⟨rfl, rfl⟩ := hcall
      cases h.options_eq
      exact over_live (.started hstart)
  | @iterated _ openedAt framing channel buffer positions named hbatch =>
      cases h.options_eq
      obtain ⟨k, hreached⟩ := h.reached openedAt framing channel rfl
      exact over_live (hreached.invoke hbatch channel)
  | updated => exact hcall.elim
  | refreshed hrefresh => exact hcall.elim
  | tornDown => exact h.teardown _
  | closed => exact h.teardown _
  | _ => exact h

omit [Transport τ] in
/-- Closing puts nothing to a transport but the sentinel. -/
theorem Closing.shows {session next : Session (Observed τ)} {now : Instant} {summary : Summary}
    {contacts : List Contact} (h : Closing session now summary contacts next) (nodes : NodeTable)
    (names : List String) :
    ∀ payload ∈ contacts.filterMap Contact.offered?,
      ∃ message, Message.decode payload = .ok message ∧ message.ShowsNodes nodes names := by
  intro payload hpayload
  by_cases hlive : session.state = .live
  · obtain ⟨answer, rfl, -⟩ := h.of_live hlive
    obtain rfl : payload = closeSentinel := by simpa [Contact.offered?] using hpayload
    exact ⟨.close, decode_eq_close_iff.mpr rfl, by rintro _ ⟨⟩⟩
  · rw [(h.of_not_live hlive).1] at hpayload
    cases hpayload

/-- What a call puts to any transport is read, and node frames among it show the graph. -/
theorem Effect.shows {session next : Session (Observed τ)} {call : Call (Observed τ)}
    {reply : Reply (Observed τ)} {contacts : List Contact}
    (h : Effect session call reply contacts next) (hover : session.Over mapper graph options)
    (hcall : call.Over mapper graph) :
    ∀ payload ∈ (contacts ++ reply.journal).filterMap Contact.offered?,
      ∃ message, Message.decode payload = .ok message ∧
        message.ShowsNodes graph.nodes options.nodeColumns := by
  cases h with
  | started _ => exact List.forall_mem_nil _
  | notStarted released =>
      rw [Reply.journal, released]
      exact List.forall_mem_nil _
  | @streamed _ _ framing settled _ _ _ _ _ edges nodes named hbatch settles advances counted =>
      obtain ⟨k, hreached⟩ := hover.reached _ _ _ rfl
      obtain ⟨-, hnodes, -, hnodeColumns, -⟩ := hreached.fields
      have hsettled := named.of_setup_eq settles.setup_eq
      obtain ⟨-, -, -, hsame, -⟩ := Framing.setup_eq_iff.mp settles.setup_eq
      intro payload hpayload
      simp only [Reply.journal, List.append_nil, List.filterMap_append, List.mem_append,
        List.mem_filterMap] at hpayload
      rcases hpayload with ⟨contact, hcontact, hoffered⟩ | ⟨contact, hcontact, hoffered⟩
      · obtain ⟨wire, answer, rfl, hwire⟩ := settles.offer_eq contact hcontact
        cases hoffered
        exact named.edgeFrame_shows hwire
      · obtain ⟨wire, answer, rfl, hwire⟩ := advances.offer_eq contact hcontact
        cases hoffered
        rw [← hnodeColumns, ← hsame]
        exact hsettled.nodeFrame_shows ((Framing.length_of_batch hbatch).trans (by rw [hnodes])) hwire
  | updated => exact hcall.elim
  | refreshed _ => exact hcall.elim
  | failed hrefused => cases hrefused <;> exact List.forall_mem_nil _
  | tornDown closing =>
      simp only [Reply.journal, List.append_nil]
      exact closing.shows _ _
  | closed closing =>
      simp only [Reply.journal, List.append_nil]
      exact closing.shows _ _

/-- All that such a session puts to any transport is read, and node frames among it show the
graph. -/
theorem shows_watched {calls : List (Call τ)} (h : ∀ call ∈ calls, call.Over mapper graph) :
    ∀ payload ∈ (watched options calls).flatMap Step.offers,
      ∃ message, Message.decode payload = .ok message ∧
        message.ShowsNodes graph.nodes options.nodeColumns := by
  intro payload hpayload
  obtain ⟨step, hstep, hoffer⟩ := List.mem_flatMap.mp hpayload
  have hcalls : ∀ call ∈ calls.map Call.watch, call.Over mapper graph :=
    List.forall_mem_map.mpr fun call hcall => (h call hcall).watch
  obtain ⟨hcall, hover⟩ := steps_invariant (P := fun session => session.Over mapper graph options)
    over_new (fun session call hcall hover => hover.perform (hcalls call hcall)) step hstep
  exact (effect_of_mem_watched hstep).shows hover (hcalls _ hcall) payload hoffer

end Session

end LiveLayout
