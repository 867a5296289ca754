import Osmium.Lib.SortedQueue
import Osmium.Lib.Stateful
import Osmium.Spec.Values

/-! Control time: the queue of controls ordered by time, phase and insertion sequence. The queue is
its entries in key order, and its type says that they are in key order and older than the next
sequence number. -/

namespace Osmium
open Machine Result Stateful SortedQueue

inductive ControlPhase
  | releaseObservation | strategyDecision | orderExpiry | orderActivation | fillAllocation
  | accounting | feedback
deriving DecidableEq

def ControlPhase.discriminant : ControlPhase → ℕ
  | .releaseObservation => 1
  | .strategyDecision => 2
  | .orderExpiry => 3
  | .orderActivation => 4
  | .fillAllocation => 5
  | .accounting => 6
  | .feedback => 7

theorem ControlPhase.discriminant_injective : Function.Injective ControlPhase.discriminant := by
  intro a b h; cases a <;> cases b <;> first | rfl | exact absurd h (by decide)

@[ext] structure ControlOrderingKey where
  time : MatchTime
  phase : ControlPhase
  sequence : U64
deriving DecidableEq

/-- The fields in the order they are compared. -/
def ControlOrderingKey.rank (key : ControlOrderingKey) : ℤ ×ₗ ℕ ×ₗ ℕ :=
  toLex (key.time.key, toLex (key.phase.discriminant, key.sequence.val))

theorem ControlOrderingKey.rank_injective : Function.Injective ControlOrderingKey.rank := by
  intro a b h
  have htime := congrArg (fun rank => (ofLex rank).1) h
  have hphase := congrArg (fun rank => (ofLex (ofLex rank).2).1) h
  have hsequence := congrArg (fun rank => (ofLex (ofLex rank).2).2) h
  exact ControlOrderingKey.ext (MatchTime.key_injective htime)
    (ControlPhase.discriminant_injective hphase)
    (Unsigned.ext hsequence)

instance : LinearOrder ControlOrderingKey :=
  LinearOrder.lift' ControlOrderingKey.rank ControlOrderingKey.rank_injective

theorem ControlOrderingKey.lt_iff (a b : ControlOrderingKey) : a < b ↔
    a.time < b.time ∨ a.time = b.time ∧
    (a.phase.discriminant < b.phase.discriminant ∨ a.phase = b.phase ∧
      a.sequence < b.sequence) := by
  change a.rank < b.rank ↔ _
  rw [ControlOrderingKey.rank, ControlOrderingKey.rank, Prod.Lex.toLex_lt_toLex,
    Prod.Lex.toLex_lt_toLex,
    ControlPhase.discriminant_injective.eq_iff, MatchTime.key_injective.eq_iff]
  rfl

theorem ControlOrderingKey.time_le_of_lt {a b : ControlOrderingKey} (h : a < b) :
    a.time ≤ b.time := by
  rcases (ControlOrderingKey.lt_iff a b).1 h with h | ⟨h, -⟩
  · exact h.le
  · exact h.le

structure ScheduledControl (τ : Type) where
  time : MatchTime
  phase : ControlPhase
  sequence : U64
  payload : τ

def ScheduledControl.key {τ : Type} (control : ScheduledControl τ) : ControlOrderingKey :=
  ⟨control.time, control.phase, control.sequence⟩

inductive ControlTimeQueueError | sequenceOverflow
deriving DecidableEq

structure ControlTimeQueue (τ : Type) where
  pending : List (ScheduledControl τ)
  nextSequence : U64
  sorted : Increasing ScheduledControl.key pending
  fresh : ∀ control ∈ pending, control.sequence < nextSequence

namespace ControlTimeQueue
variable {τ : Type}

@[ext] theorem ext {a b : ControlTimeQueue τ} (hpending : a.pending = b.pending)
    (hnext : a.nextSequence = b.nextSequence) :
    a = b := by
  cases a; cases b; cases hpending; cases hnext; rfl

theorem pairwise_time (queue : ControlTimeQueue τ) :
    queue.pending.Pairwise fun a b => a.time ≤ b.time :=
  queue.sorted.imp fun hlt => ControlOrderingKey.time_le_of_lt hlt

/-- Sequence numbers start at one. -/
def new : ControlTimeQueue τ where
  pending := []
  nextSequence := Unsigned.wrap 64 1
  sorted := List.Pairwise.nil
  fresh := by simp

/-- No entry has the key of the next one, so that an insertion never replaces an entry. -/
theorem key_ne (self : ControlTimeQueue τ) (control : ScheduledControl τ)
    (h : control.sequence = self.nextSequence) :
    ∀ entry ∈ self.pending, entry.key ≠ control.key := by
  intro entry hentry heq
  have hsame : entry.sequence = control.sequence := congrArg ControlOrderingKey.sequence heq
  have hlt := self.fresh entry hentry
  rw [hsame, h] at hlt
  exact lt_irrefl _ hlt

/-- The queue with one more entry, and the next sequence number advanced. -/
def push (self : ControlTimeQueue τ) (time : MatchTime) (phase : ControlPhase) (payload : τ)
    (next : U64) (h : self.nextSequence < next) : ControlTimeQueue τ where
  pending := insert ScheduledControl.key ⟨time, phase, self.nextSequence, payload⟩ self.pending
  nextSequence := next
  sorted := self.sorted.insert (self.key_ne ⟨time, phase, self.nextSequence, payload⟩ rfl)
  fresh := by
    intro control hcontrol
    rcases mem_insert.1 hcontrol with rfl | hcontrol
    · exact h
    · exact (self.fresh control hcontrol).trans h

def schedule (time : MatchTime) (phase : ControlPhase) (payload : τ) :
    EStateM ControlTimeQueueError (ControlTimeQueue τ) U64 := do
  let self ← get
  match h : self.nextSequence.checkedAdd (Unsigned.wrap 64 1) with
  | none => throw .sequenceOverflow
  | some next =>
    set (self.push time phase payload next (by
      have hval := (Unsigned.checkedAdd_eq_some _ _ _).1 h
      rw [Unsigned.lt_iff, hval]
      exact Nat.lt_add_one _))
    return self.nextSequence

def nextTime (self : ControlTimeQueue τ) : Option MatchTime :=
  self.pending.head?.map ScheduledControl.time

/-- Takes entries off the front as long as their key satisfies the predicate. -/
def popWhile (self : ControlTimeQueue τ) (predicate : ControlOrderingKey → Bool) :
    List (ScheduledControl τ) × ControlTimeQueue τ :=
  (self.pending.takeWhile fun control => predicate control.key, {
    pending := self.pending.dropWhile fun control => predicate control.key
    nextSequence := self.nextSequence
    sorted := (self.sorted.split _).2.1
    fresh := fun control h => self.fresh control (List.dropWhile_sublist _ |>.mem h) })

def popBefore (self : ControlTimeQueue τ) (boundary : MatchTime) :
    List (ScheduledControl τ) × ControlTimeQueue τ :=
  self.popWhile fun key => key.time < boundary

def popAt (self : ControlTimeQueue τ) (time : MatchTime) :
    List (ScheduledControl τ) × ControlTimeQueue τ :=
  self.popWhile fun key => key.time = time

end ControlTimeQueue

end Osmium
