import Osmium.Sanity.Control

/-! The queue of controls over any history of calls. Nothing that is scheduled is lost or popped
twice, and a pop takes a front of the queue: everything before a boundary, or everything at a time
that nothing pending precedes. -/

namespace Osmium
open Machine Bytes Result Stateful SortedQueue

section Histories
variable {τ : Type}

inductive QueueCall (τ : Type)
  | schedule (time : MatchTime) (phase : ControlPhase) (payload : τ)
  | popBefore (boundary : MatchTime)
  | popAt (time : MatchTime)

/-- A queue with all that was scheduled, in the order of the calls, and all that was popped. -/
structure QueueHistory (τ : Type) where
  queue : ControlTimeQueue τ
  scheduled : List (ScheduledControl τ)
  popped : List (List (ScheduledControl τ))

namespace QueueHistory

def start : QueueHistory τ := ⟨.new, [], []⟩

def call (history : QueueHistory τ) : QueueCall τ → QueueHistory τ
  | .schedule time phase payload =>
    match ControlTimeQueue.schedule time phase payload history.queue with
    | .ok sequence queue =>
      ⟨queue, history.scheduled ++ [⟨time, phase, sequence, payload⟩], history.popped⟩
    | .error _ queue => { history with queue := queue }
  | .popBefore boundary =>
    ⟨(history.queue.popBefore boundary).2, history.scheduled,
      history.popped ++ [(history.queue.popBefore boundary).1]⟩
  | .popAt time =>
    ⟨(history.queue.popAt time).2, history.scheduled,
      history.popped ++ [(history.queue.popAt time).1]⟩

def run (calls : List (QueueCall τ)) : QueueHistory τ := calls.foldl call start

/-- What was scheduled is what was popped and what is pending, each control under a number of its
own. -/
structure Kept (history : QueueHistory τ) : Prop where
  conserved : history.scheduled.Perm (history.popped.flatten ++ history.queue.pending)
  numbered : history.scheduled.Pairwise fun a b => a.sequence < b.sequence
  fresh : ∀ control ∈ history.scheduled, control.sequence < history.queue.nextSequence

theorem Kept.pop {history : QueueHistory τ} (h : Kept history)
    (predicate : ControlOrderingKey → Bool) :
    Kept ⟨(history.queue.popWhile predicate).2, history.scheduled,
      history.popped ++ [(history.queue.popWhile predicate).1]⟩ where
  conserved := by
    have hsplit :
        (history.queue.popWhile predicate).1 ++ (history.queue.popWhile predicate).2.pending =
        history.queue.pending := List.takeWhile_append_dropWhile
    rw [List.flatten_append, List.flatten_singleton, List.append_assoc, hsplit]
    exact h.conserved
  numbered := h.numbered
  fresh := h.fresh

theorem Kept.call {history : QueueHistory τ} (h : Kept history) (call : QueueCall τ) :
    Kept (history.call call) := by
  cases call with
  | popBefore boundary => exact h.pop _
  | popAt time => exact h.pop _
  | schedule time phase payload =>
    have hends := schedule_ends history.queue time phase payload
    unfold Ends at hends
    unfold QueueHistory.call
    cases hrun : ControlTimeQueue.schedule time phase payload history.queue with
    | error e queue =>
      rw [hrun] at hends
      obtain rfl : queue = history.queue := hends
      simp only [hrun]
      exact h
    | ok sequence queue =>
      rw [hrun] at hends
      obtain ⟨hsequence, hperm, hnext⟩ := hends
      simp only [hrun]
      refine ⟨?_, ?_, ?_⟩
      · have hpending := h.conserved.append_right [⟨time, phase, sequence, payload⟩]
        rw [List.append_assoc] at hpending
        refine hpending.trans (List.Perm.append_left _ ?_)
        exact (List.perm_append_singleton _ _).trans hperm.symm
      · refine List.pairwise_append.2 ⟨h.numbered, List.pairwise_singleton _ _, fun a ha b hb => ?_⟩
        rw [List.mem_singleton.1 hb, hsequence]
        exact h.fresh a ha
      · intro control hcontrol
        rcases List.mem_append.1 hcontrol with hold | hnew
        · exact (h.fresh control hold).trans hnext
        · rw [List.mem_singleton.1 hnew, hsequence]
          exact hnext

theorem kept_run (calls : List (QueueCall τ)) : Kept (run calls) := by
  have hstart : Kept (start : QueueHistory τ) := ⟨.refl _, .nil, by simp [start]⟩
  unfold run
  induction calls using List.reverseRecOn with
  | nil => exact hstart
  | append_singleton calls call ih =>
    rw [List.foldl_concat]
    exact ih.call call

end QueueHistory

/-- After any calls, every control that was scheduled has been popped once or is pending, and a
further pop takes in key order everything before its boundary, or everything at its time where
nothing is pending before that time. -/
theorem control_queue_conserves (calls : List (QueueCall τ)) (time : MatchTime) :
    let history := QueueHistory.run calls
    history.scheduled.Perm (history.popped.flatten ++ history.queue.pending) ∧
    (history.scheduled.map ScheduledControl.sequence).Nodup ∧
    Increasing ScheduledControl.key history.queue.pending ∧
    ((history.queue.popBefore time).1 =
      history.queue.pending.filter (fun control => control.time < time) ∧
      (history.queue.popBefore time).2.pending =
        history.queue.pending.filter fun control => !decide (control.time < time)) ∧
    ((∀ control ∈ history.queue.pending, time ≤ control.time) →
      (history.queue.popAt time).1 =
        history.queue.pending.filter (fun control => control.time = time) ∧
        (history.queue.popAt time).2.pending =
          history.queue.pending.filter fun control => !decide (control.time = time)) ∧
    ((∃ control ∈ history.queue.pending, control.time < time) →
      (history.queue.popAt time).1 = [] ∧
      (history.queue.popAt time).2.pending = history.queue.pending) := by
  have hkept := QueueHistory.kept_run calls
  have hnumbers : ((QueueHistory.run calls).scheduled.map ScheduledControl.sequence).Nodup :=
    List.pairwise_map.2 (hkept.numbered.imp fun hlt => hlt.ne)
  exact ⟨hkept.conserved, hnumbers, (QueueHistory.run calls).queue.sorted, popBefore_eq _ time,
    popAt_eq _, popAt_blocked _⟩

/-- A control at nine keeps the one at ten in the queue. -/
theorem popAt_takes_none : ∃ calls : List (QueueCall Unit), ∃ time : MatchTime,
    ((QueueHistory.run calls).queue.popAt time).1 ≠
      (QueueHistory.run calls).queue.pending.filter fun control => control.time = time := by
  refine ⟨[.schedule ⟨Signed.wrap 64 9⟩ .feedback (), .schedule ⟨Signed.wrap 64 10⟩ .feedback ()],
    ⟨Signed.wrap 64 10⟩, ?_⟩
  intro h
  have hlength := congrArg List.length h
  revert hlength
  decide +kernel

end Histories

end Osmium
