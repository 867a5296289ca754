import Osmium.Lib.Stateful

/-! Postconditions of stateful operations at a given state: what holds where the operation returns,
and what holds where it fails. -/

namespace Stateful
variable {ε ε' σ τ α β : Type}

/-- The outcome is a return into `Q` or a failure into `E`. -/
def Meets (r : EStateM.Result ε σ α) (Q : α → σ → Prop) (E : ε → σ → Prop) : Prop :=
  match r with
  | .ok a s => Q a s
  | .error e s => E e s

section Rules
variable {m : EStateM ε σ α} {f : α → EStateM ε σ β} {Q : α → σ → Prop} {R : β → σ → Prop}
  {E : ε → σ → Prop} {s : σ}

theorem Meets.imp {r : EStateM.Result ε σ α} {Q' : α → σ → Prop} {E' : ε → σ → Prop}
    (h : Meets r Q E)
    (hQ : ∀ a s, Q a s → Q' a s) (hE : ∀ e s, E e s → E' e s) : Meets r Q' E' := by
  cases r with
  | ok a s => exact hQ a s h
  | error e s => exact hE e s h

theorem Meets.and {r : EStateM.Result ε σ α} {Q' : α → σ → Prop} {E' : ε → σ → Prop}
    (h : Meets r Q E)
    (h' : Meets r Q' E') : Meets r (fun a s => Q a s ∧ Q' a s) (fun e s => E e s ∧ E' e s) := by
  cases r with
  | ok a s => exact ⟨h, h'⟩
  | error e s => exact ⟨h, h'⟩

theorem Meets.bind (h : Meets (m s) Q E) (hf : ∀ a s', Q a s' → Meets (f a s') R E) :
    Meets ((m >>= f) s) R E := by
  cases hm : m s with
  | ok a s' =>
    rw [bind_of_ok hm]
    rw [hm] at h
    exact hf a s' h
  | error e s' =>
    rw [bind_of_error hm]
    rw [hm] at h
    exact h

theorem Meets.lift {x : Except ε α} (hQ : ∀ a, x = .ok a → Q a s) (hE : ∀ e, x = .error e → E e s) :
    Meets (Stateful.lift x s) Q E := by
  cases x with
  | ok a => exact hQ a rfl
  | error e => exact hE e rfl

/-- A computation without effects keeps what holds of the state. -/
theorem Meets.lift_keeps {x : Except ε α} {P : σ → Prop} (h : P s) :
    Meets (Stateful.lift x s) (fun _ => P) (fun _ => P) := Meets.lift (fun _ _ => h) fun _ _ => h

theorem Meets.zoom {view : σ → τ} {put : σ → τ → σ} {raise : ε' → ε} {op : EStateM ε' τ α}
    (h : Meets (op (view s)) (fun a t => Q a (put s t)) (fun e t => E (raise e) (put s t))) :
    Meets (Stateful.zoom view put raise op s) Q E := by
  unfold Stateful.zoom
  cases hop : op (view s) with
  | ok a t =>
    rw [hop] at h
    exact h
  | error e t =>
    rw [hop] at h
    exact h

/-- What every step keeps, whether it returns or fails, all of them keep. -/
theorem Meets.each {step : α → EStateM ε σ Unit} {P : σ → Prop} {F : ε → σ → Prop} {l : List α}
    (hstep : ∀ a ∈ l, ∀ s, P s → Meets (step a s) (fun _ => P) F) (hs : P s) :
    Meets (Stateful.each step l s) (fun _ => P) F := by
  induction l generalizing s with
  | nil => exact hs
  | cons a l ih =>
    refine (hstep a List.mem_cons_self s hs).bind fun _ s' hs' => ?_
    exact ih (fun b hb => hstep b (List.mem_cons_of_mem a hb)) hs'

theorem Meets.of_stateAfter {r : EStateM.Result ε σ α} {P : σ → Prop} (h : P (stateAfter r)) :
    Meets r (fun _ => P) (fun _ => P) := by
  cases r with
  | ok a s => exact h
  | error e s => exact h

theorem stateAfter_of_meets {r : EStateM.Result ε σ α} {P : σ → Prop}
    (h : Meets r (fun _ => P) (fun _ => P)) :
    P (stateAfter r) := by
  cases r with
  | ok a s => exact h
  | error e s => exact h

end Rules

section Ends
variable {m : EStateM ε σ α} {f : σ → EStateM ε σ β} {Q : α → σ → Prop} {R : β → σ → Prop}
  {E : ε → σ → Prop} {s : σ}

/-- `Meets` of a run that is not applied yet, so that the cases of the operation can be split. -/
def Ends (m : EStateM ε σ α) (s : σ) (Q : α → σ → Prop) (E : ε → σ → Prop) : Prop := Meets (m s) Q E

theorem Ends.get_bind (h : Ends (f s) s R E) : Ends (get >>= f) s R E := h

theorem Ends.lift_bind {x : Except ε α} {f : α → EStateM ε σ β}
    (hx : ∀ a, x = .ok a → Ends (f a) s R E)
    (hE : ∀ e, x = .error e → E e s) : Ends (Stateful.lift x >>= f) s R E := by
  cases x with
  | ok a => exact hx a rfl
  | error e => exact hE e rfl

theorem Ends.ite {c : Prop} [Decidable c] {m' : EStateM ε σ α} (h : c → Ends m s Q E)
    (h' : ¬ c → Ends m' s Q E) :
    Ends (if c then m else m') s Q E := by
  split_ifs with hc
  · exact h hc
  · exact h' hc

end Ends

section Along
variable {R : σ → σ → Prop} {F : ε → Prop} {m : EStateM ε σ α} {f : α → EStateM ε σ β} {s : σ}

/-- However it ends, a run from `s` leaves a state that `s` is related to, and a failure is one of
`F`. -/
def Along (R : σ → σ → Prop) (F : ε → Prop) (m : EStateM ε σ α) (s : σ) : Prop :=
  Meets (m s) (fun _ => R s) fun e s' => R s s' ∧ F e

/-- Any failure at all. -/
def AnyFailure : ε → Prop := fun _ => True

theorem failsIn_any (x : Except ε α) : Result.FailsIn AnyFailure x := fun _ _ => trivial

theorem Along.stateAfter (h : Along R F m s) : R s (stateAfter (m s)) :=
  stateAfter_of_meets (Meets.imp h (fun _ _ h => h) fun _ _ h => h.1)

theorem Along.of_ok (h : Along R F m s) {a : α} {s' : σ} (hm : m s = .ok a s') : R s s' := by
  have hafter := h.stateAfter
  rwa [hm] at hafter

theorem Along.pure [Std.Refl R] (a : α) : Along R F (pure a : EStateM ε σ α) s := Std.Refl.refl s

theorem Along.throw [Std.Refl R] {e : ε} (h : F e) : Along R F (throw e : EStateM ε σ α) s :=
  ⟨Std.Refl.refl s, h⟩

theorem Along.set {t : σ} (h : R s t) : Along R F (set t : EStateM ε σ PUnit) s := h

theorem Along.modify {g : σ → σ} (h : R s (g s)) : Along R F (modify g : EStateM ε σ PUnit) s := h

theorem Along.bind [IsTrans σ R] (hm : Along R F m s) (hf : ∀ a s', R s s' → Along R F (f a) s') :
    Along R F (m >>= f) s :=
  Meets.bind (Meets.imp hm (fun _ _ h => h) fun _ _ h => h) fun a s' hs' =>
    (hf a s' hs').imp (fun _ _ h => IsTrans.trans _ _ _ hs' h) fun _ _ h =>
      ⟨IsTrans.trans _ _ _ hs' h.1, h.2⟩

theorem Along.get_bind {f : σ → EStateM ε σ β} (h : Along R F (f s) s) :
    Along R F (get >>= f) s := h

theorem Along.lift_bind [Std.Refl R] {x : Except ε α} (hx : Result.FailsIn F x)
    (h : ∀ a, x = .ok a → Along R F (f a) s) :
    Along R F (Stateful.lift x >>= f) s := by
  cases x with
  | ok a => exact h a rfl
  | error e => exact ⟨Std.Refl.refl s, hx e rfl⟩

theorem Along.imp {R' : σ → σ → Prop} {F' : ε → Prop} (h : Along R F m s)
    (himp : ∀ s', R s s' → R' s s') (hfails : ∀ e, F e → F' e) : Along R' F' m s :=
  Meets.imp h (fun _ => himp) fun e s' h => ⟨himp s' h.1, hfails e h.2⟩

/-- A run from a state that `s` is related to. -/
theorem Along.after [IsTrans σ R] {s' : σ} (h : R s s') (hm : Along R F m s') :
    Meets (m s') (fun _ => R s) (fun e s'' => R s s'' ∧ F e) :=
  Meets.imp hm (fun _ _ h' => IsTrans.trans _ _ _ h h') fun _ _ h' =>
    ⟨IsTrans.trans _ _ _ h h'.1, h'.2⟩

theorem Along.ite {c : Prop} [Decidable c] {m' : EStateM ε σ α} (h : c → Along R F m s)
    (h' : ¬ c → Along R F m' s) :
    Along R F (if c then m else m') s := by
  split_ifs with hc
  · exact h hc
  · exact h' hc

theorem Along.zoom {view : σ → τ} {put : σ → τ → σ} {raise : ε' → ε} {op : EStateM ε' τ α}
    (hraise : ∀ e, F (raise e)) (h : ∀ t, t = Stateful.stateAfter (op (view s)) → R s (put s t)) :
    Along R F (Stateful.zoom view put raise op) s := by
  unfold Along Stateful.zoom
  cases hop : op (view s) with
  | ok a t => exact h t (by rw [hop]; rfl)
  | error e t => exact ⟨h t (by rw [hop]; rfl), hraise e⟩

end Along

end Stateful
