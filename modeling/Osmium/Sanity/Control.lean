import Mathlib.Data.List.TakeWhile
import Osmium.Lib.Hoare
import Osmium.Spec.Control

/-! The operations of the queue of controls: what a pop takes and leaves, and what is put into the
queue. -/

namespace Osmium
open Machine Result Stateful SortedQueue

section Pops
variable {τ : Type} (queue : ControlTimeQueue τ)

theorem ControlTimeQueue.of_mem_popWhile {queue : ControlTimeQueue τ}
    {predicate : ControlOrderingKey → Bool}
    {control : ScheduledControl τ} (h : control ∈ (queue.popWhile predicate).1) :
    predicate control.key = true :=
  List.mem_takeWhile_imp (p := fun control : ScheduledControl τ => predicate control.key) h

/-- Everything before the boundary is popped, and everything else remains. -/
theorem popBefore_eq (boundary : MatchTime) :
    (queue.popBefore boundary).1 = queue.pending.filter (fun control => control.time < boundary) ∧
      (queue.popBefore boundary).2.pending = queue.pending.filter fun control =>
        !decide (control.time < boundary) := by
  refine takeWhile_eq_filter (queue.pairwise_time.imp fun hle hlt => ?_)
  exact decide_eq_true (hle.trans_lt (of_decide_eq_true hlt))

/-- Everything at the time is popped when nothing pending comes before it. -/
theorem popAt_eq {time : MatchTime} (h : ∀ control ∈ queue.pending, time ≤ control.time) :
    (queue.popAt time).1 = queue.pending.filter (fun control => control.time = time) ∧
      (queue.popAt time).2.pending = queue.pending.filter fun control =>
        !decide (control.time = time) := by
  refine takeWhile_eq_filter (queue.pairwise_time.imp_of_mem fun {a b} ha _ hle heq => ?_)
  have hb : b.time = time := of_decide_eq_true heq
  exact decide_eq_true (le_antisymm (hb ▸ hle) (h a ha))

/-- Nothing is popped past a control that is pending before. -/
theorem popAt_blocked {time : MatchTime} (h : ∃ control ∈ queue.pending, control.time < time) :
    (queue.popAt time).1 = [] ∧ (queue.popAt time).2.pending = queue.pending := by
  obtain ⟨control, hmem, hlt⟩ := h
  obtain ⟨first, rest, hpending⟩ := List.exists_cons_of_ne_nil (List.ne_nil_of_mem hmem)
  have hsorted := queue.pairwise_time
  rw [hpending] at hmem hsorted
  have hfirst : first.time < time := by
    rcases List.mem_cons.1 hmem with rfl | hrest
    · exact hlt
    · exact (List.rel_of_pairwise_cons hsorted hrest).trans_lt hlt
  have hne : decide (first.key.time = time) = false := decide_eq_false hfirst.ne
  simp only [ControlTimeQueue.popAt, ControlTimeQueue.popWhile, hpending]
  exact ⟨List.takeWhile_cons_of_neg (by simp [hne]), List.dropWhile_cons_of_neg (by simp [hne])⟩

/-- A control is put into the queue under the next number, or the numbers have run out. -/
theorem schedule_ends (time : MatchTime) (phase : ControlPhase) (payload : τ) :
    Ends (ControlTimeQueue.schedule time phase payload) queue
      (fun sequence queue' => sequence = queue.nextSequence ∧
      queue'.pending.Perm (⟨time, phase, sequence, payload⟩ :: queue.pending) ∧
      queue.nextSequence < queue'.nextSequence)
      (fun _ queue' => queue' = queue) := by
  unfold ControlTimeQueue.schedule
  refine Ends.get_bind ?_
  split
  · rfl
  · rename_i next hnext
    have hval := (Unsigned.checkedAdd_eq_some _ _ _).1 hnext
    have hlt : queue.nextSequence < next := by
      rw [Unsigned.lt_iff, hval]
      exact Nat.lt_add_one _
    exact ⟨rfl, perm_insert, hlt⟩

end Pops

end Osmium
