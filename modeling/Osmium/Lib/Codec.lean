import Osmium.Lib.Bytes
import Osmium.Lib.Result

/-! Encoders and parsers of byte strings. `Reads p R` says what a parser accepts, in both
directions and with the bytes it leaves: it succeeds on exactly the strings that start with an
encoding `R` allows. The rules below build such a description along the parser's own structure,
and every description makes the code it describes prefix free. -/

namespace Codec
variable {ε ε' α β : Type}

/-- The bytes an encoder appends, or the reason why it cannot. -/
abbrev Encoded (ε : Type) := Except ε (List UInt8)

def Encoded.append (x y : Except ε (List UInt8)) : Except ε (List UInt8) := do
  let a ← x
  let b ← y
  return a ++ b

instance : Append (Encoded ε) := ⟨Encoded.append⟩

@[simp] theorem append_eq_ok (x y : Encoded ε) (b : List UInt8) :
    x ++ y = .ok b ↔ ∃ b₁, x = .ok b₁ ∧ ∃ b₂, y = .ok b₂ ∧ b₁ ++ b₂ = b := by
  change Encoded.append x y = .ok b ↔ _
  simp [Encoded.append]

theorem exists_append_eq_ok (x y : Encoded ε) :
    (∃ b, x ++ y = .ok b) ↔ (∃ b, x = .ok b) ∧ ∃ b, y = .ok b := by
  simp only [append_eq_ok]
  constructor
  · rintro ⟨_, b₁, h₁, b₂, h₂, -⟩; exact ⟨⟨b₁, h₁⟩, b₂, h₂⟩
  · rintro ⟨⟨b₁, h₁⟩, b₂, h₂⟩; exact ⟨_, b₁, h₁, b₂, h₂, rfl⟩

theorem encoded_append_assoc (x y z : Encoded ε) : x ++ y ++ z = x ++ (y ++ z) := by
  change Encoded.append (Encoded.append x y) z = Encoded.append x (Encoded.append y z)
  cases x <;> cases y <;> cases z <;> simp [Encoded.append, bind, Except.bind, pure, Except.pure]

@[simp] theorem ok_append_ok (a b : List UInt8) : (.ok a ++ .ok b : Encoded ε) = .ok (a ++ b) := rfl

abbrev Parser (ε : Type) := StateT (List UInt8) (Except ε)

def take (e : ε) (n : ℕ) : Parser ε (List UInt8) := fun bs =>
  if n ≤ bs.length then .ok (bs.take n, bs.drop n) else .error e

/-- Fails with `e` unless the number of bytes still to be read satisfies `P`. -/
def checkRemaining (P : ℕ → Prop) [DecidablePred P] (e : ε) : Parser ε Unit := fun bs =>
  if P bs.length then .ok ((), bs) else .error e

def Reads (p : Parser ε α) (R : α → List UInt8 → Prop) : Prop :=
  ∀ bs a rest, p.run bs = .ok (a, rest) ↔ ∃ b, R a b ∧ bs = b ++ rest

theorem Reads.congr {p : Parser ε α} {R S : α → List UInt8 → Prop} (h : Reads p R)
    (e : ∀ a b, R a b ↔ S a b) : Reads p S := by
  intro bs a rest
  rw [h bs a rest]
  simp only [e]

theorem Reads.pure (a : α) : Reads (Pure.pure a : Parser ε α) fun a' b => a' = a ∧ b = [] := by
  intro bs a' rest
  rw [StateT.run_pure, Result.pure_eq_ok, Prod.mk.injEq]
  constructor
  · rintro ⟨rfl, rfl⟩; exact ⟨[], ⟨rfl, rfl⟩, rfl⟩
  · rintro ⟨b, ⟨rfl, rfl⟩, rfl⟩; exact ⟨rfl, rfl⟩

theorem Reads.fail (e : ε) : Reads (throw e : Parser ε α) fun _ _ => False := by
  intro bs a rest
  simp [throw, throwThe, MonadExceptOf.throw, StateT.run, StateT.lift, bind, Except.bind]

/-- A validating constructor consumes nothing and keeps what it accepts. -/
theorem Reads.lift (x : Except ε α) : Reads (liftM x : Parser ε α) fun a b => x = .ok a ∧
    b = [] := by
  intro bs a rest
  cases x with
  | error e =>
    simp [liftM, monadLift, MonadLift.monadLift, StateT.run, StateT.lift, bind, Except.bind]
  | ok v =>
    simp [liftM, monadLift, MonadLift.monadLift, StateT.run, StateT.lift, bind, Except.bind]

theorem Reads.bind {p : Parser ε α} {f : α → Parser ε β} {R : α → List UInt8 → Prop}
    {S : α → β → List UInt8 → Prop} (hp : Reads p R) (hf : ∀ a, Reads (f a) (S a)) :
    Reads (p >>= f) fun c b => ∃ a b₁ b₂, R a b₁ ∧ S a c b₂ ∧ b = b₁ ++ b₂ := by
  intro bs c rest
  rw [StateT.run_bind]
  simp only [Result.bind_eq_ok, Prod.exists]
  constructor
  · rintro ⟨a, mid, h₁, h₂⟩
    obtain ⟨b₁, hR, rfl⟩ := (hp _ _ _).1 h₁
    obtain ⟨b₂, hS, rfl⟩ := (hf a _ _ _).1 h₂
    exact ⟨b₁ ++ b₂, ⟨a, b₁, b₂, hR, hS, rfl⟩, by simp⟩
  · rintro ⟨b, ⟨a, b₁, b₂, hR, hS, rfl⟩, rfl⟩
    refine ⟨a, b₂ ++ rest, (hp _ _ _).2 ⟨b₁, hR, by simp⟩, (hf a _ _ _).2 ⟨b₂, hS, rfl⟩⟩

theorem Reads.map {p : Parser ε α} {R : α → List UInt8 → Prop} (hp : Reads p R) (f : α → β) :
    Reads (f <$> p) fun c b => ∃ a, R a b ∧ f a = c := by
  intro bs c rest
  rw [StateT.run_map]
  simp only [Result.map_eq_ok, Prod.exists, Prod.mk.injEq]
  constructor
  · rintro ⟨a, mid, h, rfl, rfl⟩
    obtain ⟨b, hR, rfl⟩ := (hp _ _ _).1 h
    exact ⟨b, ⟨a, hR, rfl⟩, rfl⟩
  · rintro ⟨b, ⟨a, hR, rfl⟩, rfl⟩
    exact ⟨a, rest, (hp _ _ _).2 ⟨b, hR, rfl⟩, rfl, rfl⟩

theorem Reads.take (e : ε) (n : ℕ) : Reads (Codec.take e n) fun a b => a = b ∧ b.length = n := by
  intro bs a rest
  simp only [Codec.take, StateT.run]
  split_ifs with h
  · simp only [Except.ok.injEq, Prod.mk.injEq]
    constructor
    · rintro ⟨rfl, rfl⟩
      exact ⟨_, ⟨rfl, by simp [h]⟩, (List.take_append_drop n bs).symm⟩
    · rintro ⟨b, ⟨rfl, rfl⟩, rfl⟩
      simp
  · simp only [false_iff, not_exists, not_and]
    rintro b ⟨rfl, rfl⟩ rfl
    exact h (by simp)

/-- A bound on the bytes that remain may be left out of the description when every encoding that
the rest of the parser reads is long enough to meet it. -/
theorem Reads.checked {p : Parser ε α} {R : α → List UInt8 → Prop} (hp : Reads p R) (P : ℕ → Prop)
    [DecidablePred P] (e : ε) (hlen : ∀ a b, R a b → ∀ n, b.length ≤ n → P n) :
    Reads (checkRemaining P e >>= fun _ => p) R := by
  intro bs a rest
  rw [StateT.run_bind]
  simp only [Result.bind_eq_ok, Prod.exists, StateT.run, checkRemaining]
  constructor
  · rintro ⟨_, mid, hcheck, hrun⟩
    split_ifs at hcheck
    obtain rfl : bs = mid := by simpa using hcheck
    exact (hp _ _ _).1 hrun
  · rintro ⟨b, hR, rfl⟩
    refine ⟨(), b ++ rest, ?_, (hp _ _ _).2 ⟨b, hR, rfl⟩⟩
    rw [if_pos (hlen a b hR _ (by simp))]

theorem Reads.bindPure {p : Parser ε α} {R : α → List UInt8 → Prop} (hp : Reads p R) (g : α → β) :
    Reads (p >>= fun a => Pure.pure (g a)) fun c b => ∃ a, R a b ∧ g a = c := by
  refine (Reads.bind hp fun a => Reads.pure (g a)).congr fun c b => ⟨?_, ?_⟩
  · rintro ⟨a, b₁, b₂, hR, ⟨rfl, rfl⟩, rfl⟩
    exact ⟨a, by simpa using hR, rfl⟩
  · rintro ⟨a, hR, rfl⟩
    exact ⟨a, b, [], hR, ⟨rfl, rfl⟩, by simp⟩

/-- `p` accepts exactly the encodings of the values in `P`. -/
def Decodes (p : Parser ε α) (P : α → Prop) (enc : α → Encoded ε') : Prop :=
  Reads p fun a b => P a ∧ enc a = .ok b

/-- A value led by its tag byte: it is enough to describe what follows each tag. -/
theorem Decodes.tagged {u8 : Parser ε UInt8} {f : UInt8 → Parser ε α} {P : α → Prop}
    {enc : α → Encoded ε'}
    (tag : α → UInt8) (body : α → Encoded ε') (hu8 : Reads u8 fun t b => b = [t])
    (henc : ∀ a, enc a = .ok [tag a] ++ body a)
    (hf : ∀ t, Reads (f t) fun a b => tag a = t ∧ P a ∧ body a = .ok b) :
    Decodes (u8 >>= f) P enc := by
  refine (Reads.bind hu8 hf).congr fun a b => ?_
  rw [henc, append_eq_ok]
  constructor
  · rintro ⟨t, b₁, b₂, rfl, ⟨rfl, hP, hbody⟩, rfl⟩
    exact ⟨hP, _, rfl, b₂, hbody, rfl⟩
  · rintro ⟨hP, b₁, h₁, b₂, hbody, rfl⟩
    cases h₁
    exact ⟨tag a, [tag a], b₂, rfl, ⟨rfl, hP, hbody⟩, rfl⟩

/-- `n` values of one kind, one after the other. -/
def replicate (p : Parser ε α) : ℕ → Parser ε (List α)
  | 0 => Pure.pure []
  | n + 1 => do let a ← p; let rest ← replicate p n; Pure.pure (a :: rest)

def encodeAll (enc : α → Encoded ε) : List α → Encoded ε
  | [] => .ok []
  | a :: rest => enc a ++ encodeAll enc rest

theorem length_encodeAll {enc : α → Encoded ε} (k : ℕ) (henc : ∀ a b, enc a = .ok b → b.length = k)
    (l : List α) (b : List UInt8) (h : encodeAll enc l = .ok b) : b.length = l.length * k := by
  induction l generalizing b with
  | nil =>
    obtain rfl : [] = b := by simpa [encodeAll] using h
    simp
  | cons a rest ih =>
    obtain ⟨b₁, ha, b₂, hrest, rfl⟩ := (append_eq_ok _ _ _).1 h
    rw [List.length_append, henc a b₁ ha, ih b₂ hrest, List.length_cons]
    ring

theorem Reads.replicate {p : Parser ε α} {enc : α → Encoded ε'}
    (hp : Reads p fun a b => enc a = .ok b) (n : ℕ) :
    Reads (Codec.replicate p n) fun l b => l.length = n ∧ encodeAll enc l = .ok b := by
  induction n with
  | zero =>
    refine (Reads.pure []).congr fun l b => ?_
    rw [List.length_eq_zero_iff]
    constructor
    · rintro ⟨rfl, rfl⟩; exact ⟨rfl, rfl⟩
    · rintro ⟨rfl, h⟩; exact ⟨rfl, by simpa [encodeAll, eq_comm] using h⟩
  | succ n ih =>
    refine (Reads.bind hp fun a => Reads.bind ih fun rest => Reads.pure (a :: rest)).congr
      fun l b => ?_
    constructor
    · rintro ⟨a, b₁, b', ha, ⟨rest, b₂, b₃, ⟨hl, hrest⟩, ⟨rfl, rfl⟩, rfl⟩, rfl⟩
      exact ⟨by simp [hl], by simp [encodeAll, ha, hrest]⟩
    · rintro ⟨hl, h⟩
      cases l with
      | nil => simp at hl
      | cons a rest =>
        simp only [encodeAll, append_eq_ok] at h
        obtain ⟨b₁, ha, b₂, hrest, rfl⟩ := h
        exact ⟨a, b₁, b₂, ha, ⟨rest, b₂, [], ⟨by simpa using hl, hrest⟩, ⟨rfl, rfl⟩, by simp⟩, rfl⟩

/-- No encoding starts another one, and an encoding has one value. -/
def PrefixFree (R : α → List UInt8 → Prop) : Prop :=
  ∀ a a' b b' r r', R a b → R a' b' → b ++ r = b' ++ r' → a = a' ∧ b = b' ∧ r = r'

/-- Where a value has one encoding, it is enough that the value is found again. -/
theorem PrefixFree.of_found {R : α → List UInt8 → Prop} (hone : ∀ a b b', R a b → R a b' → b = b')
    (h : ∀ a a' b b' r r', R a b → R a' b' → b ++ r = b' ++ r' → a = a') : PrefixFree R := by
  intro a a' b b' r r' ha ha' heq
  obtain rfl := h a a' b b' r r' ha ha' heq
  obtain rfl := hone a b b' ha ha'
  exact ⟨rfl, rfl, List.append_cancel_left heq⟩

theorem Reads.prefixFree {p : Parser ε α} {R : α → List UInt8 → Prop} (h : Reads p R) :
    PrefixFree R := by
  intro a a' b b' r r' ha ha' heq
  have h₁ := (h (b ++ r) a r).2 ⟨b, ha, rfl⟩
  have h₂ := (h (b ++ r) a' r').2 ⟨b', ha', heq⟩
  rw [h₁] at h₂
  obtain ⟨rfl, rfl⟩ : a = a' ∧ r = r' := by simpa using h₂
  exact ⟨rfl, List.append_cancel_right heq, rfl⟩

theorem PrefixFree.seq {enc : α → Encoded ε} {enc' : β → Encoded ε}
    (h : PrefixFree fun a b => enc a = .ok b) (h' : PrefixFree fun a b => enc' a = .ok b) :
    PrefixFree fun (v : α × β) b => enc v.1 ++ enc' v.2 = .ok b := by
  rintro ⟨a, c⟩ ⟨a', c'⟩ b b' r r' hb hb' heq
  obtain ⟨b₁, ha, b₂, hc, rfl⟩ := (append_eq_ok _ _ _).1 hb
  obtain ⟨b₁', ha', b₂', hc', rfl⟩ := (append_eq_ok _ _ _).1 hb'
  simp only [List.append_assoc] at heq
  obtain ⟨rfl, rfl, hrest⟩ := h a a' b₁ b₁' _ _ ha ha' heq
  obtain ⟨rfl, rfl, rfl⟩ := h' c c' b₂ b₂' _ _ hc hc' hrest
  exact ⟨rfl, rfl, rfl⟩

/-- Behind equal tag bytes it is enough to compare the bodies. -/
theorem PrefixFree.tagged {enc : α → Encoded ε} (tag : α → UInt8) (body : α → Encoded ε)
    (henc : ∀ a, enc a = .ok [tag a] ++ body a)
    (hbody : ∀ a a', tag a = tag a' → ∀ b b' r r', body a = .ok b → body a' = .ok b' →
      b ++ r = b' ++ r' →
      a = a' ∧ b = b' ∧ r = r') : PrefixFree fun a b => enc a = .ok b := by
  intro a a' b b' r r' ha ha' heq
  rw [henc, append_eq_ok] at ha ha'
  obtain ⟨_, h₁, b₂, h₂, rfl⟩ := ha
  obtain ⟨_, h₁', b₂', h₂', rfl⟩ := ha'
  obtain rfl := Except.ok.inj h₁
  obtain rfl := Except.ok.inj h₁'
  obtain ⟨htag, hrest⟩ : tag a = tag a' ∧ b₂ ++ r = b₂' ++ r' := by simpa using heq
  obtain ⟨rfl, rfl, rfl⟩ := hbody a a' htag b₂ b₂' r r' h₂ h₂' hrest
  exact ⟨rfl, rfl, rfl⟩

/-- Values of one kind, one after the other. -/
inductive Sequence (R : α → List UInt8 → Prop) : List α → List UInt8 → Prop
  | nil : Sequence R [] []
  | cons {a : α} {l : List α} {b b' : List UInt8} (head : R a b) (tail : Sequence R l b') :
      Sequence R (a :: l) (b ++ b')

section Sequences
variable {R : α → List UInt8 → Prop}

theorem Sequence.encodeAll {enc : α → Encoded ε} {l : List α} {b : List UInt8}
    (h : Codec.encodeAll enc l = .ok b) :
    Sequence (fun a b => enc a = .ok b) l b := by
  induction l generalizing b with
  | nil =>
    obtain rfl := Except.ok.inj h
    exact .nil
  | cons a rest ih =>
    obtain ⟨b₁, ha, b₂, hrest, rfl⟩ := (append_eq_ok _ _ _).1 h
    exact .cons ha (ih hrest)

theorem Sequence.flatMap {f : α → List UInt8} {l : List α} (h : ∀ a ∈ l, R a (f a)) :
    Sequence R l (l.flatMap f) := by
  induction l with
  | nil => exact .nil
  | cons a rest ih =>
    rw [List.flatMap_cons]
    exact .cons (h a List.mem_cons_self) (ih fun c hc => h c (List.mem_cons_of_mem _ hc))

/-- The same bytes as the encodings of other values. -/
theorem Sequence.map {S : β → List UInt8 → Prop} {f : α → β} {l : List α} {b : List UInt8}
    (h : Sequence R l b) (hf : ∀ a ∈ l, ∀ b, R a b → S (f a) b) : Sequence S (l.map f) b := by
  induction h with
  | nil => exact .nil
  | cons head tail ih =>
    exact .cons (hf _ List.mem_cons_self _ head) (ih fun c hc => hf c (List.mem_cons_of_mem _ hc))

/-- As many values of a prefix-free code on both sides. -/
theorem PrefixFree.sequence (h : PrefixFree R) {l l' : List α} (hlength : l.length = l'.length)
    {b b' r r' : List UInt8}
    (hb : Sequence R l b) (hb' : Sequence R l' b') (heq : b ++ r = b' ++ r') :
    l = l' ∧ b = b' ∧ r = r' := by
  induction hb generalizing l' b' with
  | nil =>
    obtain rfl := List.length_eq_zero_iff.1 hlength.symm
    cases hb'
    exact ⟨rfl, rfl, heq⟩
  | cons head tail ih =>
    cases hb' with
    | nil => cases hlength
    | cons head' tail' =>
      simp only [List.append_assoc] at heq
      obtain ⟨rfl, rfl, hlater⟩ := h _ _ _ _ _ _ head head' heq
      obtain ⟨rfl, rfl, rfl⟩ := ih (Nat.succ.inj hlength) tail' hlater
      exact ⟨rfl, rfl, rfl⟩

/-- Where no value is encoded by nothing, whole strings of encodings are read in one way, whatever
their number. -/
theorem PrefixFree.sequence_injective (h : PrefixFree R) (hne : ∀ a, ¬ R a []) {l l' : List α}
    {b : List UInt8} (hb : Sequence R l b) (hb' : Sequence R l' b) : l = l' := by
  induction hb generalizing l' with
  | nil =>
    generalize hnil : ([] : List UInt8) = b at hb'
    cases hb' with
    | nil => rfl
    | cons head tail =>
      obtain ⟨rfl, -⟩ := List.append_eq_nil_iff.1 hnil.symm
      exact absurd head (hne _)
  | @cons a l b₁ b₂ head tail ih =>
    generalize hwhole : b₁ ++ b₂ = b at hb'
    cases hb' with
    | nil =>
      obtain ⟨rfl, -⟩ := List.append_eq_nil_iff.1 hwhole
      exact absurd head (hne _)
    | cons head' tail' =>
      obtain ⟨rfl, rfl, rfl⟩ := h _ _ _ _ _ _ head head' hwhole
      rw [ih tail']

theorem PrefixFree.encodeAll {enc : α → Encoded ε} (h : PrefixFree fun a b => enc a = .ok b)
    {l l' : List α}
    (hlength : l.length = l'.length) {b b' r r' : List UInt8} (hb : Codec.encodeAll enc l = .ok b)
    (hb' : Codec.encodeAll enc l' = .ok b') (heq : b ++ r = b' ++ r') : l = l' ∧ b = b' ∧ r = r' :=
  h.sequence hlength (.encodeAll hb) (.encodeAll hb') heq

end Sequences

/-- Values of a prefix-free code up to a byte that starts none of them. -/
theorem PrefixFree.terminated {enc : α → Encoded ε} (h : PrefixFree fun a b => enc a = .ok b)
    {stop : UInt8}
    (hstop : ∀ a b, enc a = .ok b → ∃ first rest, b = first :: rest ∧ first ≠ stop) {l l' : List α}
    {b b' r r' : List UInt8}
    (hb : Codec.encodeAll enc l = .ok b) (hb' : Codec.encodeAll enc l' = .ok b')
    (heq : b ++ stop :: r = b' ++ stop :: r') :
    l = l' ∧ b = b' ∧ r = r' := by
  induction l generalizing l' b b' with
  | nil =>
    obtain rfl := Except.ok.inj hb
    cases l' with
    | nil =>
      obtain rfl := Except.ok.inj hb'
      exact ⟨rfl, rfl, (List.cons.inj heq).2⟩
    | cons a' rest' =>
      obtain ⟨b₁, ha, b₂, -, rfl⟩ := (append_eq_ok _ _ _).1 hb'
      obtain ⟨first, rest, rfl, hne⟩ := hstop a' b₁ ha
      exact absurd (List.cons.inj heq).1.symm hne
  | cons a rest ih =>
    obtain ⟨b₁, ha, b₂, hrest, rfl⟩ := (append_eq_ok _ _ _).1 hb
    cases l' with
    | nil =>
      obtain rfl := Except.ok.inj hb'
      obtain ⟨first, tail, rfl, hne⟩ := hstop a b₁ ha
      exact absurd (List.cons.inj heq).1 hne
    | cons a' rest' =>
      obtain ⟨b₁', ha', b₂', hrest', rfl⟩ := (append_eq_ok _ _ _).1 hb'
      simp only [List.append_assoc] at heq
      obtain ⟨rfl, rfl, hlater⟩ := h a a' b₁ b₁' _ _ ha ha' heq
      obtain ⟨rfl, rfl, rfl⟩ := ih hrest hrest' hlater
      exact ⟨rfl, rfl, rfl⟩

theorem PrefixFree.comap {R : α → List UInt8 → Prop} (h : PrefixFree R) (g : β → α)
    (hg : Function.Injective g) : PrefixFree fun v b => R (g v) b := by
  intro v v' b b' r r' hv hv' heq
  obtain ⟨he, hb, hr⟩ := h _ _ b b' r r' hv hv' heq
  exact ⟨hg he, hb, hr⟩

end Codec
