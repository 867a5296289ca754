import Osmium.Lib.Result

/-! Fallible computations that update a state in place. A failure keeps whatever was written before
it, so whether an operation is all-or-nothing is a theorem about it and not a property of the monad.
-/

namespace Stateful
variable {ε σ α β : Type}

def lift (x : Except ε α) : EStateM ε σ α := fun s =>
  match x with
  | .ok a => .ok a s
  | .error e => .error e s

/-- Runs a computation on a state of its own. -/
def runOn {τ : Type} (m : EStateM ε τ α) (t : τ) : Except ε (α × τ) :=
  match m t with
  | .ok a t' => .ok (a, t')
  | .error e _ => .error e

/-- Runs a computation on a part of the state, and puts the part back whatever the outcome. -/
def zoom {ε' τ : Type} (view : σ → τ) (put : σ → τ → σ) (raise : ε' → ε) (m : EStateM ε' τ α) :
    EStateM ε σ α := fun s =>
  match m (view s) with
  | .ok a t => .ok a (put s t)
  | .error e t => .error (raise e) (put s t)

/-- The state a call leaves behind, whether or not it failed. -/
def stateAfter (r : EStateM.Result ε σ α) : σ :=
  match r with
  | .ok _ s => s
  | .error _ s => s

theorem bind_ok (m : EStateM ε σ α) (f : α → EStateM ε σ β) (s s' : σ) (b : β) :
    (m >>= f) s = .ok b s' ↔ ∃ a s₁, m s = .ok a s₁ ∧ f a s₁ = .ok b s' := by
  change EStateM.bind m f s = _ ↔ _
  unfold EStateM.bind
  cases m s <;> simp

theorem bind_error (m : EStateM ε σ α) (f : α → EStateM ε σ β) (s s' : σ) (e : ε) :
    (m >>= f) s = .error e s' ↔ m s = .error e s' ∨ ∃ a s₁, m s = .ok a s₁ ∧
    f a s₁ = .error e s' := by
  change EStateM.bind m f s = _ ↔ _
  unfold EStateM.bind
  cases m s <;> simp

theorem lift_ok (x : Except ε α) (s s' : σ) (a : α) : lift x s = .ok a s' ↔ x = .ok a ∧ s = s' := by
  unfold lift
  cases x <;> simp

theorem lift_error (x : Except ε α) (s s' : σ) (e : ε) : lift x s = .error e s' ↔
    x = .error e ∧ s = s' := by
  unfold lift
  cases x <;> simp

theorem get_ok (s s' a : σ) : (get : EStateM ε σ σ) s = .ok a s' ↔ a = s ∧ s = s' := by
  change EStateM.Result.ok s s = _ ↔ _
  simp [eq_comm]

theorem get_error (s s' : σ) (e : ε) : (get : EStateM ε σ σ) s = .error e s' ↔ False := by
  change EStateM.Result.ok s s = _ ↔ _
  simp

theorem set_ok (s s' t : σ) (u : PUnit) : (set t : EStateM ε σ PUnit) s = .ok u s' ↔ t = s' := by
  change EStateM.Result.ok _ t = _ ↔ _
  simp

theorem set_error (s s' t : σ) (e : ε) : (set t : EStateM ε σ PUnit) s = .error e s' ↔ False := by
  change EStateM.Result.ok _ t = _ ↔ _
  simp

theorem modify_ok (f : σ → σ) (s s' : σ) (u : PUnit) : (modify f : EStateM ε σ PUnit) s = .ok u s' ↔
    f s = s' := by
  change EStateM.Result.ok _ (f s) = _ ↔ _
  simp

theorem modify_error (f : σ → σ) (s s' : σ) (e : ε) :
    (modify f : EStateM ε σ PUnit) s = .error e s' ↔ False := by
  change EStateM.Result.ok _ (f s) = _ ↔ _
  simp

theorem pure_ok (s s' : σ) (a b : α) : (pure a : EStateM ε σ α) s = .ok b s' ↔ a = b ∧ s = s' := by
  change EStateM.Result.ok a s = _ ↔ _
  simp

theorem pure_error (s s' : σ) (a : α) (e : ε) :
    (pure a : EStateM ε σ α) s = .error e s' ↔ False := by
  change EStateM.Result.ok a s = _ ↔ _
  simp

theorem map_ok (f : α → β) (m : EStateM ε σ α) (s s' : σ) (b : β) :
    (f <$> m) s = .ok b s' ↔ ∃ a, m s = .ok a s' ∧ f a = b := by
  change EStateM.map f m s = _ ↔ _
  unfold EStateM.map
  cases m s with
  | ok a s₁ => simp [and_comm]
  | error e s₁ => simp

theorem map_error (f : α → β) (m : EStateM ε σ α) (s s' : σ) (e : ε) : (f <$> m) s = .error e s' ↔
    m s = .error e s' := by
  change EStateM.map f m s = _ ↔ _
  unfold EStateM.map
  cases m s <;> simp

theorem throw_ok (s s' : σ) (e : ε) (b : α) : (throw e : EStateM ε σ α) s = .ok b s' ↔ False := by
  change EStateM.Result.error e s = _ ↔ _
  simp

theorem throw_error (s s' : σ) (e e' : ε) : (throw e : EStateM ε σ α) s = .error e' s' ↔
    e = e' ∧ s = s' := by
  change EStateM.Result.error e s = _ ↔ _
  simp

theorem zoom_ok {ε' τ : Type} (view : σ → τ) (put : σ → τ → σ) (raise : ε' → ε) (m : EStateM ε' τ α)
    (s s' : σ) (a : α) :
    zoom view put raise m s = .ok a s' ↔ ∃ t, m (view s) = .ok a t ∧ put s t = s' := by
  unfold zoom
  cases m (view s) <;> simp

theorem zoom_error {ε' τ : Type} (view : σ → τ) (put : σ → τ → σ) (raise : ε' → ε)
    (m : EStateM ε' τ α) (s s' : σ) (e : ε) : zoom view put raise m s = .error e s' ↔
    ∃ e' t, m (view s) = .error e' t ∧ raise e' = e ∧ put s t = s' := by
  unfold zoom
  cases m (view s) <;> simp

theorem bind_of_ok {m : EStateM ε σ α} {s s₁ : σ} {a : α} (h : m s = .ok a s₁)
    (f : α → EStateM ε σ β) :
    (m >>= f) s = f a s₁ := by
  change EStateM.bind m f s = _
  rw [EStateM.bind, h]

theorem bind_of_error {m : EStateM ε σ α} {s s₁ : σ} {e : ε} (h : m s = .error e s₁)
    (f : α → EStateM ε σ β) :
    (m >>= f) s = .error e s₁ := by
  change EStateM.bind m f s = _
  rw [EStateM.bind, h]

theorem modify_bind (g : σ → σ) (f : PUnit → EStateM ε σ β) (s : σ) :
    ((modify g : EStateM ε σ PUnit) >>= f) s = f () (g s) :=
  rfl

theorem get_bind (f : σ → EStateM ε σ β) (s : σ) : ((get : EStateM ε σ σ) >>= f) s = f s s := rfl

theorem lift_bind {x : Except ε α} {a : α} (h : x = .ok a) (f : α → EStateM ε σ β) (s : σ) :
    (lift x >>= f) s = f a s := by
  subst h
  rfl

theorem lift_bind_ok {x : Except ε α} {f : α → EStateM ε σ β} {s s' : σ} {b : β} :
    (lift x >>= f) s = .ok b s' ↔ ∃ a, x = .ok a ∧ f a s = .ok b s' := by
  cases x with
  | ok a => simp [lift_bind]
  | error e =>
    refine (bind_ok _ _ _ _ _).trans ?_
    simp [lift_ok]

theorem lift_bind_error {x : Except ε α} {e : ε} (h : x = .error e)
    (f : α → EStateM ε σ β) (s : σ) :
    (lift x >>= f) s = .error e s := by
  subst h
  rfl

theorem stateAfter_bind_pure (m : EStateM ε σ α) (f : α → β) (s : σ) :
    stateAfter ((m >>= fun a => pure (f a)) s) = stateAfter (m s) := by
  cases h : m s with
  | ok a s' =>
    rw [bind_of_ok h]
    rfl
  | error e s' =>
    rw [bind_of_error h]
    rfl

theorem runOn_eq_ok {τ : Type} (m : EStateM ε τ α) (t t' : τ) (a : α) :
    runOn m t = .ok (a, t') ↔ m t = .ok a t' := by
  unfold runOn
  cases m t <;> simp

theorem runOn_eq_error {τ : Type} {m : EStateM ε τ α} {t : τ} {e : ε} : runOn m t = .error e ↔
    ∃ t', m t = .error e t' := by
  unfold runOn
  cases m t <;> simp

/-- One step for each item, up to the first failure. -/
def each (step : α → EStateM ε σ Unit) : List α → EStateM ε σ Unit
  | [] => pure ()
  | a :: rest => do
    step a
    each step rest

theorem each_append (step : α → EStateM ε σ Unit) (l m : List α) :
    each step (l ++ m) = (do each step l; each step m) := by
  induction l with
  | nil => simp [each]
  | cons a l ih => simp [each, ih]

theorem each_map {step : α → EStateM ε σ Unit} {step' : β → EStateM ε σ Unit} {f : α → β}
    {l : List α} (h : ∀ a ∈ l, step a = step' (f a)) : each step l = each step' (l.map f) := by
  induction l with
  | nil => rfl
  | cons a l ih =>
    rw [each, List.map_cons, each, h a List.mem_cons_self, ih fun b hb =>
      h b (List.mem_cons_of_mem a hb)]

/-- The step that failed, and those before it. -/
theorem each_error {step : α → EStateM ε σ Unit} {l : List α} {s s' : σ} {e : ε}
    (h : each step l s = .error e s') :
    ∃ done a rest before, l = done ++ a :: rest ∧ each step done s = .ok () before ∧
    step a before = .error e s' := by
  induction l generalizing s with
  | nil => cases h
  | cons a l ih =>
    rcases (bind_error _ _ _ _ _).1 h with h | ⟨_, between, hstep, h⟩
    · exact ⟨[], a, l, s, rfl, rfl, h⟩
    · obtain ⟨done, b, rest, before, rfl, hdone, hb⟩ := ih h
      exact ⟨a :: done, b, rest, before, rfl, (bind_ok _ _ _ _ _).2 ⟨_, between, hstep, hdone⟩, hb⟩

/-- A test of the failure and the state it leaves behind. -/
def failsAnd (r : EStateM.Result ε σ α) (p : ε → σ → Bool) : Bool :=
  match r with
  | .ok _ _ => false
  | .error e s => p e s

theorem exists_of_failsAnd {r : EStateM.Result ε σ α} {p : ε → σ → Bool} (h : failsAnd r p = true) :
    ∃ e s, r = .error e s ∧ p e s = true := by
  cases r with
  | ok a s => cases h
  | error e s => exact ⟨e, s, rfl, h⟩

/-- A test of the value and the state that are returned. -/
def returnsAnd (r : EStateM.Result ε σ α) (p : α → σ → Bool) : Bool :=
  match r with
  | .ok a s => p a s
  | .error _ _ => false

theorem exists_of_returnsAnd {r : EStateM.Result ε σ α} {p : α → σ → Bool}
    (h : returnsAnd r p = true) :
    ∃ a s, r = .ok a s ∧ p a s = true := by
  cases r with
  | ok a s => exact ⟨a, s, rfl, h⟩
  | error e s => cases h

/-- A failed run leaves the state as it was. -/
def Atomic (m : EStateM ε σ α) : Prop := ∀ s e s', m s = .error e s' → s' = s

/-- Whatever happens, the state is only read. -/
structure ReadOnly (m : EStateM ε σ α) : Prop where
  ok : ∀ s a s', m s = .ok a s' → s' = s
  error : ∀ s e s', m s = .error e s' → s' = s

theorem ReadOnly.lift (x : Except ε α) : ReadOnly (lift x : EStateM ε σ α) :=
  ⟨fun _ _ _ h => ((lift_ok _ _ _ _).1 h).2.symm, fun _ _ _ h => ((lift_error _ _ _ _).1 h).2.symm⟩

theorem ReadOnly.get : ReadOnly (get : EStateM ε σ σ) :=
  ⟨fun _ _ _ h => ((get_ok _ _ _).1 h).2.symm, fun _ _ _ h => ((get_error _ _ _).1 h).elim⟩

theorem Atomic.set (t : σ) : Atomic (set t : EStateM ε σ PUnit) :=
  fun _ _ _ h => ((set_error _ _ _ _).1 h).elim

/-- Reading first and writing afterwards is all-or-nothing. -/
theorem Atomic.bind {m : EStateM ε σ α} {f : α → EStateM ε σ β} (hm : ReadOnly m)
    (hf : ∀ a, Atomic (f a)) :
    Atomic (m >>= f) := by
  intro s e s' h
  rcases (bind_error _ _ _ _ _).1 h with h | ⟨a, s₁, h₁, h₂⟩
  · exact hm.error s e s' h
  · rw [hf a s₁ e s' h₂, hm.ok s a s₁ h₁]

/-- Every failure, from whatever state, satisfies `P`. -/
def Refuses (P : ε → Prop) (m : EStateM ε σ α) : Prop := ∀ s e s', m s = .error e s' → P e

section Failures
variable {P : ε → Prop}

theorem Refuses.bind {m : EStateM ε σ α} {f : α → EStateM ε σ β} (hm : Refuses P m)
    (hf : ∀ a, Refuses P (f a)) :
    Refuses P (m >>= f) := by
  intro s e s' h
  rcases (bind_error _ _ _ _ _).1 h with h | ⟨a, s₁, -, h⟩
  · exact hm s e s' h
  · exact hf a s₁ e s' h

theorem Refuses.lift {x : Except ε α} (h : Result.FailsIn P x) :
    Refuses P (lift x : EStateM ε σ α) :=
  fun _ e _ h' => h e ((lift_error _ _ _ _).1 h').1

theorem Refuses.get : Refuses P (get : EStateM ε σ σ) := fun _ _ _ h => ((get_error _ _ _).1 h).elim

theorem Refuses.set (t : σ) : Refuses P (set t : EStateM ε σ PUnit) :=
  fun _ _ _ h => ((set_error _ _ _ _).1 h).elim

theorem Refuses.modify (f : σ → σ) : Refuses P (modify f : EStateM ε σ PUnit) :=
  fun _ _ _ h => ((modify_error _ _ _ _).1 h).elim

theorem Refuses.pure (a : α) : Refuses P (pure a : EStateM ε σ α) :=
  fun _ _ _ h => ((pure_error _ _ _ _).1 h).elim

/-- Every failure of a run from this state satisfies `P`. -/
def RefusesAt (P : ε → Prop) (m : EStateM ε σ α) (s : σ) : Prop := ∀ e s', m s = .error e s' → P e

theorem RefusesAt.get_bind {f : σ → EStateM ε σ β} {s : σ} (h : RefusesAt P (f s) s) :
    RefusesAt P (get >>= f) s := h

theorem RefusesAt.lift_bind {x : Except ε α} {f : α → EStateM ε σ β} {s : σ}
    (hx : Result.FailsIn P x)
    (hf : ∀ a, x = .ok a → RefusesAt P (f a) s) : RefusesAt P (Stateful.lift x >>= f) s := by
  intro e s' h
  rcases (bind_error _ _ _ _ _).1 h with h | ⟨a, s₁, ha, h⟩
  · exact hx e ((lift_error _ _ _ _).1 h).1
  · obtain ⟨hok, rfl⟩ := (lift_ok _ _ _ _).1 ha
    exact hf a hok e s' h

end Failures

end Stateful
