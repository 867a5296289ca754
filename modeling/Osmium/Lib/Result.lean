import Mathlib.Tactic

/-! Fallible computations. `Except` carries a failure out of a pure function; the inversion
lemmas below take a successful run apart into the successful runs of its steps, so that no proof
about a caller has to unfold the sequencing. -/

namespace Result
variable {ε ε' : Type} {α β : Type}

def okOr (e : ε) : Option α → Except ε α
  | some a => .ok a
  | none => .error e

/-- Fails with `e` unless the condition holds. -/
def ensure (c : Prop) [Decidable c] (e : ε) : Except ε Unit := if c then .ok () else .error e

theorem ok_bind (a : α) (f : α → Except ε β) : ((.ok a : Except ε α) >>= f) = f a := rfl

@[simp] theorem bind_eq_ok (x : Except ε α) (f : α → Except ε β) (b : β) :
    (x >>= f) = .ok b ↔ ∃ a, x = .ok a ∧ f a = .ok b := by
  cases x with
  | error e => simp [bind, Except.bind]
  | ok a => simp [bind, Except.bind]

@[simp] theorem map_eq_ok (x : Except ε α) (f : α → β) (b : β) :
    (f <$> x) = .ok b ↔ ∃ a, x = .ok a ∧ f a = b := by
  cases x with
  | error e => simp [Functor.map, Except.map]
  | ok a => simp [Functor.map, Except.map]

@[simp] theorem pure_eq_ok (a b : α) : (pure a : Except ε α) = .ok b ↔ a = b := by
  simp [pure, Except.pure]

@[simp] theorem throw_ne_ok (e : ε) (b : α) : (throw e : Except ε α) = .ok b ↔ False := by
  simp [throw, throwThe, MonadExceptOf.throw]

@[simp] theorem okOr_eq_ok (e : ε) (o : Option α) (a : α) : okOr e o = .ok a ↔ o = some a := by
  cases o <;> simp [okOr]

@[simp] theorem ensure_eq_ok (c : Prop) [Decidable c] (e : ε) (u : Unit) :
    ensure c e = .ok u ↔ c := by
  unfold ensure; split_ifs with h <;> simp [h]

@[simp] theorem mapError_eq_ok (x : Except ε α) (f : ε → ε') (a : α) :
    x.mapError f = .ok a ↔ x = .ok a := by
  cases x <;> simp [Except.mapError]

theorem toOption_eq_some (x : Except ε α) (a : α) : x.toOption = some a ↔ x = .ok a := by
  cases x <;> simp [Except.toOption]

section ToOption

@[simp] theorem toOption_ok (a : α) : (.ok a : Except ε α).toOption = some a := rfl

@[simp] theorem toOption_error (e : ε) : (.error e : Except ε α).toOption = none := rfl

@[simp] theorem toOption_bind (x : Except ε α) (f : α → Except ε β) :
    (x >>= f).toOption = x.toOption.bind fun a => (f a).toOption := by
  cases x <;> rfl

@[simp] theorem toOption_map (x : Except ε α) (f : α → β) :
    (f <$> x).toOption = x.toOption.map f := by
  cases x <;> rfl

@[simp] theorem toOption_mapError (x : Except ε α) (f : ε → ε') :
    (x.mapError f).toOption = x.toOption := by
  cases x <;> rfl

@[simp] theorem toOption_okOr (e : ε) (o : Option α) : (okOr e o).toOption = o := by
  cases o <;> rfl

@[simp] theorem toOption_ensure (c : Prop) [Decidable c] (e : ε) :
    (ensure c e).toOption = if c then some () else none := by
  unfold ensure
  split_ifs <;> rfl

theorem toOption_bind_congr {x y : Except ε α} {f g : α → Except ε β} (h : x.toOption = y.toOption)
    (hrest : ∀ a, (f a).toOption = (g a).toOption) : (x >>= f).toOption = (y >>= g).toOption := by
  rw [toOption_bind, toOption_bind, h]
  exact Option.bind_congr fun a _ => hrest a

theorem toOption_ite_congr {c : Prop} [Decidable c] {x x' y y' : Except ε α}
    (h : x.toOption = x'.toOption) (h' : y.toOption = y'.toOption) :
    (if c then x else y).toOption = (if c then x' else y').toOption := by
  split_ifs
  · exact h
  · exact h'

theorem toOption_mapM_congr {f g : α → Except ε β} {h : α → α}
    (hf : ∀ a, (f (h a)).toOption = (g a).toOption)
    (l : List α) : ((l.map h).mapM f).toOption = (l.mapM g).toOption := by
  induction l with
  | nil => rfl
  | cons a l ih =>
    rw [List.map_cons, List.mapM_cons, List.mapM_cons]
    exact toOption_bind_congr (hf a) fun b => toOption_bind_congr ih fun rest => rfl

theorem isOk_eq_isSome (x : Except ε α) : x.isOk = x.toOption.isSome := by
  cases x <;> rfl

end ToOption

/-- Each element must succeed, and the results are those of the elements. -/
theorem eq_of_mapM_ok {f : α → Except ε β} {l : List α} {bs : List β} (h : l.mapM f = .ok bs) :
    (∀ a ∈ l, (f a).isOk = true) ∧ bs = l.flatMap fun a => (f a).toOption.toList := by
  induction l generalizing bs with
  | nil =>
    cases h
    simp
  | cons a l ih =>
    rw [List.mapM_cons] at h
    obtain ⟨b, hb, h⟩ := (bind_eq_ok _ _ _).1 h
    obtain ⟨rest, hrest, heq⟩ := (bind_eq_ok _ _ _).1 h
    obtain rfl := (pure_eq_ok _ _).1 heq
    obtain ⟨hall, rfl⟩ := ih hrest
    rw [List.forall_mem_cons, List.flatMap_cons, hb]
    exact ⟨⟨rfl, hall⟩, rfl⟩

/-- A check of each element succeeds where all of them do. -/
theorem forM_eq_ok {f : α → Except ε Unit} {l : List α} : l.forM f = .ok () ↔
    ∀ a ∈ l, f a = .ok () := by
  induction l with
  | nil => simp [List.forM, pure, Except.pure]
  | cons a rest ih =>
    rw [List.forM, bind_eq_ok, List.forall_mem_cons, ← ih]
    constructor
    · rintro ⟨⟨⟩, hfirst, hrest⟩
      exact ⟨hfirst, hrest⟩
    · exact fun h => ⟨(), h.1, h.2⟩

theorem bind_eq_error (x : Except ε α) (f : α → Except ε β) (e : ε) :
    (x >>= f) = .error e ↔ x = .error e ∨ ∃ a, x = .ok a ∧ f a = .error e := by
  cases x with
  | error e' => simp [bind, Except.bind]
  | ok a => simp [bind, Except.bind]

theorem map_eq_error (x : Except ε α) (f : α → β) (e : ε) : (f <$> x) = .error e ↔
    x = .error e := by
  cases x <;> simp [Functor.map, Except.map]

theorem pure_eq_error (a : α) (e : ε) : (pure a : Except ε α) = .error e ↔ False := by
  simp [pure, Except.pure]

theorem okOr_eq_error (e e' : ε) (o : Option α) : okOr e o = .error e' ↔ o = none ∧ e = e' := by
  cases o <;> simp [okOr]

theorem ensure_eq_error (c : Prop) [Decidable c] (e e' : ε) : ensure c e = .error e' ↔
    ¬ c ∧ e = e' := by
  unfold ensure
  split_ifs with h <;> simp [h]

theorem mapError_eq_error (x : Except ε α) (f : ε → ε') (e' : ε') :
    x.mapError f = .error e' ↔ ∃ e, x = .error e ∧ f e = e' := by
  cases x <;> simp [Except.mapError]

/-- Every failure satisfies `P`. -/
def FailsIn (P : ε → Prop) (x : Except ε α) : Prop := ∀ e, x = .error e → P e

theorem FailsIn.imp {P Q : ε → Prop} {x : Except ε α} (hx : FailsIn P x) (h : ∀ e, P e → Q e) :
    FailsIn Q x :=
  fun e he => h e (hx e he)

theorem FailsIn.bind {P : ε → Prop} {x : Except ε α} {f : α → Except ε β} (hx : FailsIn P x)
    (hf : ∀ a, FailsIn P (f a)) :
    FailsIn P (x >>= f) := by
  intro e h
  rcases (bind_eq_error _ _ _).1 h with h | ⟨a, -, h⟩
  · exact hx e h
  · exact hf a e h

theorem FailsIn.bind_of_ok {P : ε → Prop} {x : Except ε α} {f : α → Except ε β} (hx : FailsIn P x)
    (hf : ∀ a, x = .ok a → FailsIn P (f a)) : FailsIn P (x >>= f) := by
  intro e h
  rcases (bind_eq_error _ _ _).1 h with h | ⟨a, ha, h⟩
  · exact hx e h
  · exact hf a ha e h

theorem FailsIn.pure {P : ε → Prop} (a : α) : FailsIn P (pure a : Except ε α) :=
  fun _ h => ((pure_eq_error _ _).1 h).elim

theorem FailsIn.ensure {P : ε → Prop} {c : Prop} [Decidable c] {e : ε} (h : P e) :
    FailsIn P (ensure c e) := by
  intro e' h'
  rw [← ((ensure_eq_error _ _ _).1 h').2]
  exact h

theorem FailsIn.okOr {P : ε → Prop} {e : ε} {o : Option α} (h : P e) : FailsIn P (okOr e o) := by
  intro e' h'
  rw [← ((okOr_eq_error _ _ _).1 h').2]
  exact h

theorem FailsIn.mapError {P : ε' → Prop} {x : Except ε α} {f : ε → ε'} (h : ∀ e, P (f e)) :
    FailsIn P (x.mapError f) := by
  intro e' h'
  obtain ⟨e, -, rfl⟩ := (mapError_eq_error _ _ _).1 h'
  exact h e

/-- A success that can be computed gives the value. -/
theorem exists_of_isOk {x : Except ε α} (h : x.isOk = true) : ∃ a, x = .ok a := by
  cases x with
  | error e => exact absurd h (by simp [Except.isOk, Except.toBool])
  | ok a => exact ⟨a, rfl⟩

end Result
