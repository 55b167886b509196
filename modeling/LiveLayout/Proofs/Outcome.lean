import Mathlib

/-!
# Results that are values or errors

A chain of steps that may fail gives a value exactly when each step does, and a write behind checks
leaves what is held as it was when one of them fails.
-/

namespace LiveLayout

variable {ε α β : Type}

@[simp] theorem ok_bind (a : α) (f : α → Except ε β) : (Except.ok a >>= f) = f a := rfl

@[simp] theorem error_bind (e : ε) (f : α → Except ε β) :
    (Except.error e >>= f) = .error e := rfl

@[simp] theorem pure_eq_ok_iff {a b : α} : (pure a : Except ε α) = .ok b ↔ a = b :=
  ⟨Except.ok.inj, congrArg Except.ok⟩

theorem isOk_iff {x : Except ε α} : x.isOk = true ↔ ∃ a, x = .ok a := by
  cases x with
  | error e => simp [Except.isOk, Except.toBool]
  | ok a => simp [Except.isOk, Except.toBool]

theorem bind_eq_ok_iff {x : Except ε α} {f : α → Except ε β} {b : β} :
    (x >>= f) = .ok b ↔ ∃ a, x = .ok a ∧ f a = .ok b := by
  cases x with
  | error e => simp
  | ok a => simp

/-- Behind a check there is a result exactly if the check passes and what follows gives it. -/
theorem check_bind_eq_ok_iff {check : Except ε Unit} {x : Except ε β} {b : β} :
    (check >>= fun _ => x) = .ok b ↔ check = .ok () ∧ x = .ok b := by
  cases check with
  | error e => simp
  | ok passed => simp

theorem map_eq_ok_iff {x : Except ε α} {f : α → β} {b : β} :
    f <$> x = .ok b ↔ ∃ a, x = .ok a ∧ f a = b := by
  cases x with
  | error e => simp [Functor.map, Except.map]
  | ok a => simp [Functor.map, Except.map]

/-- What is held behind a write to it that may be refused: the outcome of the write, or what was
held before. -/
def heldBehind (held : α) : Except ε α → EStateM.Result ε α Unit
  | .ok written => .ok () written
  | .error e => .error e held

theorem heldBehind_eq_ok_iff {held written : α} {write : Except ε α} :
    heldBehind held write = .ok () written ↔ write = .ok written := by
  cases write with
  | error e => simp [heldBehind]
  | ok next => simp [heldBehind]

theorem heldBehind_eq_error_iff {held left : α} {write : Except ε α} {e : ε} :
    heldBehind held write = .error e left ↔ write = .error e ∧ left = held := by
  cases write with
  | error other => simp [heldBehind, eq_comm]
  | ok next => simp [heldBehind]

/-- A list is checked through exactly when each item passes. -/
theorem forM_eq_ok_iff {check : α → Except ε Unit} {items : List α} :
    items.forM check = .ok () ↔ ∀ item ∈ items, check item = .ok () := by
  induction items with
  | nil => exact ⟨fun _ => List.forall_mem_nil _, fun _ => rfl⟩
  | cons item rest ih =>
      have hcons : (item :: rest).forM check = (check item >>= fun _ => rest.forM check) := rfl
      rw [hcons, check_bind_eq_ok_iff, List.forall_mem_cons, ih]

/-- A list is gone through exactly when each item gives a value. -/
theorem mapM_eq_ok_iff {f : α → Except ε β} {items : List α} {values : List β} :
    items.mapM f = .ok values ↔ List.Forall₂ (fun item value => f item = .ok value) items values := by
  induction items generalizing values with
  | nil =>
      simp only [List.mapM_nil, List.forall₂_nil_left_iff]
      constructor
      · intro h
        exact (Except.ok.inj h).symm
      · intro h
        exact congrArg Except.ok h.symm
  | cons item rest ih =>
      rw [List.mapM_cons, List.forall₂_cons_left_iff]
      constructor
      · intro h
        obtain ⟨value, hvalue, h⟩ := bind_eq_ok_iff.mp h
        obtain ⟨others, hothers, h⟩ := bind_eq_ok_iff.mp h
        exact ⟨value, others, hvalue, ih.mp hothers, (Except.ok.inj h).symm⟩
      · rintro ⟨value, others, hvalue, hothers, rfl⟩
        rw [hvalue, ok_bind, ih.mpr hothers]
        rfl

/-- The values of a list that is gone through stand where their items do. -/
theorem getElem?_of_mapM {f : α → Except ε β} {items : List α} {values : List β}
    (h : items.mapM f = .ok values) :
    values.length = items.length ∧ ∀ (position : Nat) (value : β), values[position]? = some value →
      ∃ item, items[position]? = some item ∧ f item = .ok value := by
  obtain ⟨hlength, hvalues⟩ := List.forall₂_iff_get.mp (mapM_eq_ok_iff.mp h)
  refine ⟨hlength.symm, fun position value hvalue => ?_⟩
  obtain ⟨hinside, rfl⟩ := List.getElem?_eq_some_iff.mp hvalue
  have hitem : position < items.length := hlength ▸ hinside
  exact ⟨items[position], List.getElem?_eq_getElem hitem, hvalues position hitem hinside⟩

theorem exists_forall₂ {R : α → β → Prop} {items : List α}
    (h : ∀ item ∈ items, ∃ value, R item value) : ∃ values, List.Forall₂ R items values := by
  induction items with
  | nil => exact ⟨[], .nil⟩
  | cons item rest ih =>
      obtain ⟨⟨value, hvalue⟩, hrest⟩ := List.forall_mem_cons.mp h
      obtain ⟨values, hvalues⟩ := ih hrest
      exact ⟨value :: values, .cons hvalue hvalues⟩

/-- Where going through a list ends with an error, it is that of the first item without a
value. -/
theorem exists_first_error_of_mapM {f : α → Except ε β} {items : List α} {error : ε}
    (h : items.mapM f = .error error) :
    ∃ (position : Nat) (item : α), items[position]? = some item ∧ f item = .error error ∧
      ∀ earlier < position, ∀ other, items[earlier]? = some other →
        ∃ value, f other = .ok value := by
  induction items with
  | nil => cases h
  | cons item rest ih =>
      rw [List.mapM_cons] at h
      cases hitem : f item with
      | error fault =>
          rw [hitem, error_bind] at h
          obtain rfl := Except.error.inj h
          exact ⟨0, item, rfl, hitem, fun _ hearlier => absurd hearlier (Nat.not_lt_zero _)⟩
      | ok value =>
          cases hrest : rest.mapM f with
          | ok values =>
              rw [hitem, ok_bind, hrest] at h
              cases h
          | error fault =>
              rw [hitem, ok_bind, hrest, error_bind] at h
              obtain rfl := Except.error.inj h
              obtain ⟨position, first, hfirst, hfault, hbefore⟩ := ih hrest
              refine ⟨position + 1, first, hfirst, hfault, ?_⟩
              intro earlier hearlier other hother
              cases earlier with
              | zero =>
                  obtain rfl : item = other := Option.some.inj hother
                  exact ⟨value, hitem⟩
              | succ earlier =>
                  exact hbefore earlier (Nat.lt_of_succ_lt_succ hearlier) other hother

/-- What every step of a fold keeps holds of where it ends. -/
theorem foldlM_invariant {Keeps : β → Prop} {f : β → α → Except ε β}
    (hstep : ∀ {state next : β} {item : α}, Keeps state → f state item = .ok next → Keeps next)
    {items : List α} {state last : β} (hstart : Keeps state)
    (h : items.foldlM f state = .ok last) : Keeps last := by
  induction items generalizing state with
  | nil =>
      obtain rfl := Except.ok.inj h
      exact hstart
  | cons item rest ih =>
      rw [List.foldlM_cons] at h
      obtain ⟨next, hnext, hrest⟩ := bind_eq_ok_iff.mp h
      exact ih (hstep hstart hnext) hrest

/-- A fold that ends well took a step for each item. -/
theorem exists_step_of_foldlM {f : β → α → Except ε β} {items : List α} {state last : β}
    (h : items.foldlM f state = .ok last) :
    ∀ item ∈ items, ∃ before next, f before item = .ok next := by
  induction items generalizing state with
  | nil => exact List.forall_mem_nil _
  | cons item rest ih =>
      rw [List.foldlM_cons] at h
      obtain ⟨next, hnext, hrest⟩ := bind_eq_ok_iff.mp h
      intro other hother
      rcases List.mem_cons.mp hother with rfl | hlater
      · exact ⟨state, next, hnext⟩
      · exact ih hrest other hlater

end LiveLayout
