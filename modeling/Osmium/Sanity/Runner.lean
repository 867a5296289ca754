import Osmium.Sanity.Coordinator
import Osmium.Sanity.Replay
import Osmium.Sanity.Streams
import Osmium.Spec.Runner

/-! A scheduled run as a whole. What the pops, the processing of one control and the commit of one
event keep holds at the end of every run, whichever way it ends. -/

namespace Osmium
open Machine Result Stateful

namespace RunState
variable {σ : Type} {setup : ScheduledSetup σ}

/-- The time of the last commit. -/
def now (self : RunState σ) : Option MatchTime :=
  self.core.lastOrderingKey.map OrderingKey.matchTime

abbrev queue (self : RunState σ) : ControlTimeQueue ScheduledBacktestControl :=
  self.coordinator.controls

/-- The state with another queue of controls. -/
def withQueue (self : RunState σ) (controls : ControlTimeQueue ScheduledBacktestControl) :
    RunState σ :=
  { self with coordinator := { self.coordinator with controls := controls } }

/-- The commit of an event and the observation that is scheduled of it. -/
def commitAndBuffer (setup : ScheduledSetup σ) (event : DomainEvent) : Op σ CoreCommit := do
  let commit ← commitEvent setup event
  let self ← get
  onCoordinator (ScheduledCoordinator.bufferCommitted setup self.core event commit.occurrence)
  return commit

theorem runEvent_eq (fuel : ℕ) (prepared : PreparedOrderEvent) : runEvent setup fuel prepared = (do
    processBefore setup prepared.event.matchTime fuel
    let commit ← commitAndBuffer setup prepared.event
    processAt setup commit.occurrence.orderingKey.matchTime fuel) := by
  simp only [runEvent, commitAndBuffer, bind_assoc, pure_bind]

/-- An event has been committed to the core. -/
structure Commits (setup : ScheduledSetup σ) (event : DomainEvent) (commit : CoreCommit)
    (before after : RunState σ) :
    Prop where
  applied : ReplayCore.applyOrdered setup.hash event before.core = .ok commit after.core
  committed : after.committed = before.committed ++ [event]
  trace : after.trace = before.trace

/-- An event has been committed, and its observation put into the queue behind what else the commit
schedules. -/
structure Buffers (setup : ScheduledSetup σ) (event : DomainEvent) (commit : CoreCommit)
    (observation : BufferedObservation)
    (before after : RunState σ) : Prop extends Commits setup event commit before after where
  buffered : ScheduledCoordinator.Buffered setup event commit.occurrence observation
  queued : ∃ between, ScheduledCoordinator.Acts event.matchTime before.coordinator between ∧
    ScheduledCoordinator.Releases observation between.controls after.queue ∧
    after.coordinator = { between with controls := after.queue }

section Times
variable {event : DomainEvent} {commit : CoreCommit} {s s' : RunState σ}

theorem Commits.matchTime (h : Commits setup event commit s s') :
    commit.occurrence.orderingKey.matchTime = event.matchTime := by
  obtain ⟨canonical, hkey, -⟩ := (ReplayCore.applyOrdered_ok h.applied).key
  exact (OrderingKey.forEventAndCanonical_ok hkey).1

theorem Commits.now (h : Commits setup event commit s s') : s'.now = some event.matchTime := by
  rw [RunState.now, (ReplayCore.applyOrdered_ok h.applied).lastKey, Option.map_some, h.matchTime]

/-- Commits are made in the order of their match times. -/
theorem Commits.now_le (h : Commits setup event commit s s') :
    ∀ now ∈ s.now, now ≤ event.matchTime := by
  intro now hnow
  obtain ⟨previous, hprevious, rfl⟩ := Option.map_eq_some_iff.1 hnow
  rw [← h.matchTime]
  exact OrderingKey.matchTime_le ((ReplayCore.applyOrdered_ok h.applied).ordered previous hprevious)

end Times

/-- The commit went through as far as the coordinator, or was refused before it. -/
structure CommitFails (setup : ScheduledSetup σ) (event : DomainEvent)
    (before after : RunState σ) : Prop where
  trace : after.trace = before.trace
  coordinator : ScheduledCoordinator.Acts event.matchTime before.coordinator after.coordinator
  committed : after.core = before.core ∧ after.committed = before.committed ∨
      ∃ commit, Commits setup event commit before after

theorem ends_commitAndBuffer (event : DomainEvent) (s : RunState σ) :
    Ends (commitAndBuffer setup event) s
    (fun commit s' => ∃ observation, Buffers setup event commit observation s s')
    (fun e s' => e ≠ .replay .occurrenceDiffers ∧ CommitFails setup event s s') := by
  have hrefl : ScheduledCoordinator.Acts event.matchTime s.coordinator s.coordinator :=
    Std.Refl.refl _
  have hcommit : Meets (commitEvent setup event s)
      (fun commit s' => Commits setup event commit s s' ∧ s'.coordinator = s.coordinator)
      (fun e s' => e ≠ .replay .occurrenceDiffers ∧ CommitFails setup event s s') := by
    cases happly : ReplayCore.applyOrdered setup.hash event s.core with
    | error e core =>
      obtain rfl : core = s.core :=
        ReplayCore.atomic_applyOrdered setup.hash event s.core e core happly
      have hrun : commitEvent setup event s = .error (.replay (.core e)) s :=
        bind_of_error ((zoom_error _ _ _ _ _ _ _).2 ⟨e, s.core, happly, rfl, rfl⟩) _
      rw [hrun]
      exact ⟨by simp, rfl, hrefl, .inl ⟨rfl, rfl⟩⟩
    | ok commit core =>
      have hcore : onCore (ReplayCore.applyOrdered setup.hash event) s =
          .ok commit { s with core := core } :=
        (zoom_ok _ _ _ _ _ _ _).2 ⟨core, happly, rfl⟩
      have hrun : commitEvent setup event s =
          .ok commit { s with core := core, committed := s.committed ++ [event] } :=
        bind_of_ok hcore _
      rw [hrun]
      exact ⟨⟨happly, rfl, rfl⟩, rfl⟩
  refine Meets.bind hcommit fun commit s' hs' => Ends.get_bind ?_
  obtain ⟨hcommits, hsame⟩ := hs'
  refine Meets.bind
    (Meets.zoom (Meets.imp (ScheduledCoordinator.ends_bufferCommitted s'.core) ?_ ?_))
      fun _ _ h => h
  · rintro ⟨⟩ coordinator ⟨between, observation, hacts, hbuffered, hreleases, hafter⟩
    exact ⟨observation, ⟨hcommits.applied, hcommits.committed, hcommits.trace⟩, hbuffered, between,
      hsame ▸ hacts, hreleases, hafter⟩
  · rintro e coordinator ⟨hacts, hne⟩
    exact ⟨hne, hcommits.trace, hsame ▸ hacts,
      .inr ⟨commit, hcommits.applied, hcommits.committed, hcommits.trace⟩⟩

/-- A commit schedules controls that are due no earlier than the event. -/
theorem Buffers.adds {event : DomainEvent} {commit : CoreCommit} {observation : BufferedObservation}
    {s s' : RunState σ} (h : Buffers setup event commit observation s s') :
    Adds (fun control => event.matchTime ≤ control.time ∧ Proper control) s.queue s'.queue := by
  obtain ⟨between, hacts, hreleases, -⟩ := h.queued
  have hbefore : Adds (fun control => event.matchTime ≤ control.time ∧ Proper control) s.queue
      between.controls :=
    hacts.controls.imp fun _ h => ⟨h.later, h.proper⟩
  refine hbefore.trans ⟨⟨[_], hreleases.pending, fun control hcontrol => ?_⟩, hreleases.next.le⟩
  rw [List.mem_singleton.1 hcontrol]
  refine ⟨⟨ScheduledCoordinator.le_of_addMilliseconds h.buffered.visibleAt, rfl, ?_⟩, le_rfl⟩
  simp [ScheduledBacktestControl.dueAt]

/-- The phase and the time of every control that waits, popped or not, are those of its payload. -/
def AllProper (waiting : List BacktestControl) (self : RunState σ) : Prop :=
  ∀ control ∈ waiting ++ self.queue.pending, Proper control

section AllProper
variable {control : BacktestControl} {waiting : List BacktestControl} {s : RunState σ}

theorem split_popWhile (s : RunState σ) (predicate : ControlOrderingKey → Bool) :
    (s.queue.popWhile predicate).1 ++ (s.queue.popWhile predicate).2.pending = s.queue.pending :=
  List.takeWhile_append_dropWhile

theorem AllProper.pop (h : AllProper [] s) (predicate : ControlOrderingKey → Bool) :
    AllProper (s.queue.popWhile predicate).1 (s.withQueue (s.queue.popWhile predicate).2) :=
  fun control hmem =>
  h control (split_popWhile s predicate ▸ hmem)

theorem AllProper.process (h : AllProper (control :: waiting) s) {s' : RunState σ}
    (hadds : Adds (Ensues control.time) s.queue s'.queue) : AllProper waiting s' := by
  intro other hother
  rcases List.mem_append.1 hother with hwaits | hpending
  · exact h other (List.mem_cons_of_mem _ (List.mem_append_left _ hwaits))
  · rcases hadds.mem hpending with hold | ⟨hnew, -⟩
    · exact h other (List.mem_cons_of_mem _ (List.mem_append_right _ hold))
    · exact hnew.proper

theorem AllProper.commit (h : AllProper [] s) {event : DomainEvent} {commit : CoreCommit}
    {observation : BufferedObservation}
    {s' : RunState σ} (hbuffers : Buffers setup event commit observation s s') :
    AllProper [] s' := by
  intro control hcontrol
  rcases hbuffers.adds.mem hcontrol with hold | ⟨hnew, -⟩
  · exact h control hold
  · exact hnew.2

end AllProper

/-- The state after a control, with the control in the trace. -/
def processed (self : RunState σ) (control : BacktestControl) (waiting : List BacktestControl)
    (coordinator : ScheduledCoordinator σ) : RunState σ :=
  { self with
    coordinator := coordinator
    trace := self.trace ++ [⟨control, waiting, self.coordinator, self.committed.length⟩] }

/-- What a run keeps: `P` at a state whose popped controls still wait, where the controls popped
since the last commit are due at its time or at one of `times`; and `E` where the run fails. -/
structure Invariant (setup : ScheduledSetup σ)
    (P : Set MatchTime → List BacktestControl → RunState σ → Prop)
    (E : MultiBacktestError → RunState σ → Prop) : Prop where
  widen : ∀ {times times' s}, times ⊆ times' → P times [] s → P times' [] s
  pop : ∀ {times s} (predicate : ControlOrderingKey → Bool), P times [] s →
    (∀ control ∈ (s.queue.popWhile predicate).1, control.time ∈ times ∨ s.now = some control.time) →
    P times (s.queue.popWhile predicate).1 (s.withQueue (s.queue.popWhile predicate).2)
  process : ∀ {times control waiting s}, P times (control :: waiting) s →
      AllProper (control :: waiting) s →
    Meets (ScheduledCoordinator.processControl setup control s.coordinator)
      (fun _ coordinator => P times waiting (s.processed control waiting coordinator))
      (fun e coordinator => E e (s.processed control waiting coordinator))
  commit : ∀ {event commit observation s s'}, P (Set.Iio event.matchTime) [] s → AllProper [] s →
    (∀ control ∈ s.queue.pending, event.matchTime ≤ control.time) →
    Buffers setup event commit observation s s' → P ∅ [] s'
  refused : ∀ {event s s'} (e : MultiBacktestError), P (Set.Iio event.matchTime) [] s →
    e ≠ .replay .occurrenceDiffers → CommitFails setup event s s' → E e s'
  fault : ∀ {times s} (e : MultiBacktestError), P times [] s →
      e ≠ .replay .occurrenceDiffers → E e s

namespace Invariant
variable {P : Set MatchTime → List BacktestControl → RunState σ → Prop}
  {E : MultiBacktestError → RunState σ → Prop}
  {times : Set MatchTime} {s : RunState σ}

theorem processOne (h : Invariant setup P E) {control : BacktestControl}
    {waiting : List BacktestControl}
    (hs : P times (control :: waiting) s) (hproper : AllProper (control :: waiting) s) :
    Meets (processOne setup control waiting s)
      (fun _ s' => P times waiting s' ∧ AllProper waiting s' ∧ s'.core = s.core) E := by
  refine Meets.bind (Q := fun _ s' => s' = s.processed control waiting s.coordinator) rfl
    fun _ s' hs' => ?_
  subst hs'
  have hadds : Meets (ScheduledCoordinator.processControl setup control s.coordinator)
      (fun _ coordinator => Adds (Ensues control.time) s.queue coordinator.controls)
        (fun _ _ => True) :=
    Meets.imp
      (Meets.of_stateAfter (P := fun after => Adds (Ensues control.time) s.queue after.controls)
      (ScheduledCoordinator.schedules_processControl (hproper control List.mem_cons_self)))
        (fun _ _ h => h) fun _ _ _ => trivial
  have hboth := Meets.and (h.process hs hproper) hadds
  exact Meets.zoom (Meets.imp hboth (fun _ _ hkept => ⟨hkept.1, hproper.process hkept.2, rfl⟩)
    fun _ _ hfault => hfault.1)

theorem processBatch (h : Invariant setup P E) {controls : List BacktestControl}
    (hs : P times controls s) (hproper : AllProper controls s) :
    Meets (processBatch setup controls s)
      (fun _ s' => P times [] s' ∧ AllProper [] s' ∧ s'.core = s.core) E := by
  induction controls generalizing s with
  | nil => exact ⟨hs, hproper, rfl⟩
  | cons control waiting ih =>
    refine Meets.bind (h.processOne hs hproper) fun _ s' hs' => ?_
    obtain ⟨hkept, hproper', hcore⟩ := hs'
    exact (ih hkept hproper').imp (fun _ _ hrest => ⟨hrest.1, hrest.2.1, hrest.2.2.trans hcore⟩)
      fun _ _ hfault => hfault

theorem popBatch (h : Invariant setup P E) (predicate : ControlOrderingKey → Bool)
    (hs : P times [] s) (hproper : AllProper [] s)
    (htimes : ∀ control ∈ (s.queue.popWhile predicate).1, control.time ∈ times ∨
      s.now = some control.time) :
    Meets ((do
      setControls (s.queue.popWhile predicate).2
      RunState.processBatch setup (s.queue.popWhile predicate).1) s)
      (fun _ s' => P times [] s' ∧ AllProper [] s' ∧ s'.core = s.core) E :=
  Meets.bind (Q := fun _ s' => s' = s.withQueue (s.queue.popWhile predicate).2) rfl
    fun _ s' hs' => by
    subst hs'
    exact h.processBatch (h.pop predicate hs htimes) (hproper.pop predicate)

theorem processBefore (h : Invariant setup P E) {boundary : MatchTime} (fuel : ℕ)
    (hs : P (Set.Iio boundary) [] s) (hproper : AllProper [] s) :
    Meets (processBefore setup boundary fuel s) (fun _ s' => P (Set.Iio boundary) [] s' ∧
      AllProper [] s' ∧ ∀ control ∈ s'.queue.pending, boundary ≤ control.time) E := by
  induction fuel generalizing s with
  | zero => exact h.fault _ hs (by simp)
  | succ fuel ih =>
    unfold RunState.processBefore
    refine Ends.get_bind (Ends.ite (fun hnext => ?_) fun hnext => ?_)
    · have htimes : ∀ control ∈ (s.queue.popBefore boundary).1, control.time ∈ Set.Iio boundary ∨
          s.now = some control.time := by
        intro control hmem
        exact .inl (of_decide_eq_true (ControlTimeQueue.of_mem_popWhile hmem))
      rw [← bind_assoc]
      exact Meets.bind (h.popBatch _ hs hproper htimes) fun _ s' hs' => ih hs'.1 hs'.2.1
    · refine ⟨hs, hproper, fun control hmem => ?_⟩
      -- the first control is not due before the boundary, and the others come after it
      obtain ⟨first, rest, hpending⟩ := List.exists_cons_of_ne_nil (List.ne_nil_of_mem hmem)
      have hfirst : boundary ≤ first.time := by
        simpa [ControlTimeQueue.nextTime, hpending] using hnext
      have hsorted := s.queue.pairwise_time
      rw [hpending] at hmem hsorted
      rcases List.mem_cons.1 hmem with rfl | hrest
      · exact hfirst
      · exact hfirst.trans (List.rel_of_pairwise_cons hsorted hrest)

theorem processAt (h : Invariant setup P E) {time : MatchTime} (fuel : ℕ) (hs : P times [] s)
    (hproper : AllProper [] s) (htime : time ∈ times ∨ s.now = some time) :
    Meets (processAt setup time fuel s) (fun _ s' => P times [] s' ∧ AllProper [] s') E := by
  induction fuel generalizing s with
  | zero => exact h.fault _ hs (by simp)
  | succ fuel ih =>
    unfold RunState.processAt
    refine Ends.get_bind (Ends.ite (fun _ => ?_) fun _ => ?_)
    · have htimes : ∀ control ∈ (s.queue.popAt time).1, control.time ∈ times ∨
          s.now = some control.time := by
        intro control hmem
        obtain rfl : control.time = time :=
          of_decide_eq_true (ControlTimeQueue.of_mem_popWhile hmem)
        exact htime
      rw [← bind_assoc]
      refine Meets.bind (h.popBatch _ hs hproper htimes) fun _ s' hs' => ih hs'.1 hs'.2.1 ?_
      unfold now
      rw [hs'.2.2]
      exact htime
    · exact ⟨hs, hproper⟩

theorem drain (h : Invariant setup P E) (fuel rounds : ℕ) (hs : P Set.univ [] s)
    (hproper : AllProper [] s) :
    Meets (drain setup fuel rounds s) (fun _ s' => P Set.univ [] s' ∧ s'.queue.pending = []) E := by
  induction rounds generalizing s with
  | zero => exact h.fault _ hs (by simp)
  | succ rounds ih =>
    unfold RunState.drain
    refine Ends.get_bind ?_
    split
    · rename_i hnext
      have hpending : s.queue.pending = [] := by
        simpa [ControlTimeQueue.nextTime] using hnext
      exact ⟨hs, hpending⟩
    · exact Meets.bind (h.processAt fuel hs hproper (.inl trivial)) fun _ s' hs' => ih hs'.1 hs'.2

theorem commitAndBuffer (h : Invariant setup P E) {event : DomainEvent}
    (hs : P (Set.Iio event.matchTime) [] s) (hproper : AllProper [] s)
    (hpending : ∀ control ∈ s.queue.pending, event.matchTime ≤ control.time) :
    Meets (commitAndBuffer setup event s) (fun commit s' => P ∅ [] s' ∧ AllProper [] s' ∧
      s'.now = some commit.occurrence.orderingKey.matchTime) E := by
  refine Meets.imp (ends_commitAndBuffer event s) ?_ fun e s' hfails =>
    h.refused e hs hfails.1 hfails.2
  rintro commit s' ⟨observation, hbuffers⟩
  have hnow := hbuffers.now
  rw [← hbuffers.matchTime] at hnow
  exact ⟨h.commit hs hproper hpending hbuffers, hproper.commit hbuffers, hnow⟩

theorem runEvent (h : Invariant setup P E) (fuel : ℕ) (prepared : PreparedOrderEvent)
    (hs : P ∅ [] s ∧ AllProper [] s) :
    Meets (runEvent setup fuel prepared s) (fun _ s' => P ∅ [] s' ∧ AllProper [] s') E := by
  rw [runEvent_eq]
  refine Meets.bind (h.processBefore fuel (h.widen (Set.empty_subset _) hs.1) hs.2)
    fun _ s' hs' => ?_
  obtain ⟨hkept, hproper, hpending⟩ := hs'
  refine Meets.bind (h.commitAndBuffer hkept hproper hpending) fun commit s'' hs'' => ?_
  exact h.processAt fuel hs''.1 hs''.2.1 (.inr hs''.2.2)

theorem raiseHead_ne (fault : HeadFault) : raiseHead fault ≠ .replay .occurrenceDiffers := by
  cases fault <;> simp [raiseHead]

/-- The invariant holds of a run from its first state to its last one, or to the one it fails in. -/
theorem runLoop (h : Invariant setup P E) (fuel : ℕ) (streams : List EventStream) (hs : P ∅ [] s)
    (hproper : AllProper [] s) :
    Meets (runLoop setup fuel streams s)
      (fun _ s' => P Set.univ [] s' ∧ s'.queue.pending = []) E := by
  unfold RunState.runLoop
  rw [mergeStreams_eq]
  refine Meets.bind (Q := fun _ s' => P ∅ [] s' ∧ AllProper [] s') ?_ fun _ s' hs' =>
    h.drain fuel fuel (h.widen (Set.empty_subset _) hs'.1) hs'.2
  refine Meets.bind (Meets.each (fun prepared _ s' hs' => h.runEvent fuel prepared hs')
    ⟨hs, hproper⟩) fun _ s' hs' => ?_
  cases (streamTrace setup.hash streams).2 with
  | none => exact hs'
  | some fault => exact h.fault _ hs'.1 (raiseHead_ne fault)

theorem run (h : Invariant setup P E) {inputs : ScheduledInputs σ} {fuel : ℕ}
    {result : EStateM.Result MultiBacktestError (RunState σ) Unit}
    (hrun : RunOf setup inputs fuel result)
    (hstart : ∀ start streams, startRun setup inputs = .ok (start, streams) → P ∅ [] start) :
    Meets result (fun _ s' => P Set.univ [] s' ∧ s'.queue.pending = []) E := by
  obtain ⟨start, streams, hstarted, rfl⟩ := hrun
  refine h.runLoop fuel streams (hstart start streams hstarted) ?_
  simp only [startRun, bind_eq_ok, pure_eq_ok, Prod.mk.injEq] at hstarted
  obtain ⟨-, -, strategy, -, -, -, visibleCore, -, rfl, -⟩ := hstarted
  simp [AllProper, ControlTimeQueue.new]

end Invariant

end RunState

end Osmium
