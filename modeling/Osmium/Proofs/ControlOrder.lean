import Osmium.Proofs.MultiRunner
import Osmium.Sanity.Runner

/-! The order in which a scheduled run processes its controls. Each is the least of those still
queued, and their times never decrease, as long as no control is scheduled before one that was
popped with its parent and still waits. -/

namespace Osmium
open Machine Result Stateful SortedQueue

namespace ControlStep
variable {σ : Type} (setup : ScheduledSetup σ)

/-- The coordinator the step leaves behind, also where it fails. -/
def after (step : ControlStep σ) : ScheduledCoordinator σ :=
  stateAfter (ScheduledCoordinator.processControl setup step.control step.before)

/-- What the step schedules comes after every control that was popped with its own and still waits.
-/
def KeepsAhead (step : ControlStep σ) : Prop :=
  ∀ control ∈ (step.after setup).controls.pending, control ∉ step.before.controls.pending →
    ∀ other ∈ step.waiting, other.key < control.key

/-- The control comes before all others that are queued, popped or not. -/
def Least (step : ControlStep σ) : Prop :=
  ∀ other ∈ step.waiting ++ step.before.controls.pending, step.control.key < other.key

end ControlStep

/-- Every control of the trace is the least one queued, and the times do not decrease. -/
structure InControlOrder {σ : Type} (trace : List (ControlStep σ)) : Prop where
  least : ∀ step ∈ trace, step.Least
  rising : trace.Pairwise fun earlier later => earlier.control.time ≤ later.control.time

section Lines
variable {σ : Type} {setup : ScheduledSetup σ} {times : Set MatchTime}
  {waiting : List BacktestControl} {s : RunState σ}

/-- The controls that wait, popped or not, stand in line behind the trace. -/
structure Lined (times : Set MatchTime) (waiting : List BacktestControl) (s : RunState σ) :
    Prop extends
    InControlOrder s.trace where
  line : Increasing ScheduledControl.key (waiting ++ s.queue.pending)
  due : ∀ control ∈ waiting, control.time ∈ times ∨ s.now = some control.time
  past : ∀ step ∈ s.trace, ∀ control ∈ waiting ++ s.queue.pending, step.control.time ≤ control.time
  bound : ∀ step ∈ s.trace, step.control.time ∈ times ∨ ∃ now ∈ s.now, step.control.time ≤ now

/-- A control that is scheduled while another one waits is pending until that one is processed. -/
structure Queued (setup : ScheduledSetup σ) (times : Set MatchTime) (waiting : List BacktestControl)
    (s : RunState σ) :
    Prop where
  served : ∀ step ∈ s.trace, ∀ other ∈ step.waiting,
      ∀ control ∈ (step.after setup).controls.pending,
    (other ∈ waiting ∧ control ∈ s.queue.pending) ∨
      ∃ later ∈ s.trace, later.control = other ∧ control ∈ later.before.controls.pending
  lined : (∀ step ∈ s.trace, step.KeepsAhead setup) → Lined times waiting s

theorem Queued.widen {times' : Set MatchTime} (h : Queued setup times waiting s)
    (hsubset : times ⊆ times') :
    Queued setup times' waiting s :=
  ⟨h.served, fun hkeeps => { h.lined hkeeps with
    due :=
      fun control hmem => ((h.lined hkeeps).due control hmem).imp_left fun htime => hsubset htime
    bound :=
      fun step hmem => ((h.lined hkeeps).bound step hmem).imp_left fun htime => hsubset htime }⟩

theorem Queued.pop (h : Queued setup times [] s) (predicate : ControlOrderingKey → Bool)
    (htimes : ∀ control ∈ (s.queue.popWhile predicate).1, control.time ∈ times ∨
      s.now = some control.time) :
    Queued setup times (s.queue.popWhile predicate).1
      (s.withQueue (s.queue.popWhile predicate).2) := by
  have hsplit := RunState.split_popWhile s predicate
  refine ⟨fun step hstep other hother control hcontrol => ?_, fun hkeeps => ?_⟩
  · rcases h.served step hstep other hother control hcontrol with ⟨hnone, -⟩ | hlater
    · cases hnone
    · exact .inr hlater
  · have hlined := h.lined hkeeps
    exact {
      least := hlined.least
      rising := hlined.rising
      line := hsplit.symm ▸ hlined.line
      due := htimes
      past := fun step hstep control hmem => hlined.past step hstep control (hsplit ▸ hmem)
      bound := hlined.bound }

section Process
variable {control : BacktestControl} {coordinator : ScheduledCoordinator σ}

theorem Lined.process (h : Lined times (control :: waiting) s)
    (hadds : Adds (Ensues control.time) s.queue coordinator.controls)
    (hahead : ∀ added ∈ coordinator.controls.pending, added ∉ s.queue.pending →
      ∀ other ∈ waiting, other.key < added.key) :
    Lined times waiting (s.processed control waiting coordinator) := by
  obtain ⟨hleast, hline⟩ := List.pairwise_cons.1 h.line
  obtain ⟨hwaiting, -, hcross⟩ := List.pairwise_append.1 hline
  have hlater : ∀ other ∈ waiting ++ coordinator.controls.pending, control.time ≤ other.time := by
    intro other hmem
    rcases List.mem_append.1 hmem with hwaits | hpending
    · exact ControlOrderingKey.time_le_of_lt (hleast other (List.mem_append_left _ hwaits))
    · rcases hadds.mem hpending with hold | ⟨hnew, -⟩
      · exact ControlOrderingKey.time_le_of_lt (hleast other (List.mem_append_right _ hold))
      · exact hnew.later
  have hpast : ∀ step ∈ s.trace, step.control.time ≤ control.time := fun step hstep =>
    h.past step hstep control List.mem_cons_self
  refine {
    least := fun step hstep => ?_
    rising := List.pairwise_append.2
        ⟨h.rising, List.pairwise_singleton _ _, fun step hstep next hnext => ?_⟩
    line := List.pairwise_append.2
        ⟨hwaiting, coordinator.controls.sorted, fun other hother added hadded => ?_⟩
    due := fun other hother => h.due other (List.mem_cons_of_mem _ hother)
    past := fun step hstep other hother => ?_
    bound := fun step hstep => ?_ }
  · rcases List.mem_append.1 hstep with hold | hnew
    · exact h.least step hold
    · rw [List.mem_singleton.1 hnew]
      exact hleast
  · rw [List.mem_singleton.1 hnext]
    exact hpast step hstep
  · by_cases hold : added ∈ s.queue.pending
    · exact hcross other hother added hold
    · exact hahead added hadded hold other hother
  · rcases List.mem_append.1 hstep with hold | hnew
    · exact (hpast step hold).trans (hlater other hother)
    · rw [List.mem_singleton.1 hnew]
      exact hlater other hother
  · rcases List.mem_append.1 hstep with hold | hnew
    · exact h.bound step hold
    · rw [List.mem_singleton.1 hnew]
      rcases h.due control List.mem_cons_self with htime | hnow
      · exact .inl htime
      · exact .inr ⟨_, hnow, le_rfl⟩

theorem Queued.process (h : Queued setup times (control :: waiting) s) (hproper : Proper control)
    (hrun :
      coordinator = stateAfter (ScheduledCoordinator.processControl setup control s.coordinator)) :
    Queued setup times waiting (s.processed control waiting coordinator) := by
  have hadds : Adds (Ensues control.time) s.queue coordinator.controls := by
    rw [hrun]
    exact ScheduledCoordinator.schedules_processControl hproper
  have hmem : ∀ {step}, step ∈ s.trace → step ∈ (s.processed control waiting coordinator).trace :=
    fun hstep =>
    List.mem_append_left _ hstep
  have hlast : ⟨control, waiting, s.coordinator, s.committed.length⟩ ∈
      (s.processed control waiting coordinator).trace :=
    List.mem_append_right _ List.mem_cons_self
  refine ⟨fun step hstep other hother added hadded => ?_, fun hkeeps => ?_⟩
  · rcases List.mem_append.1 hstep with hold | hnew
    · rcases h.served step hold other hother added hadded with
        ⟨hwaits, hpending⟩ | ⟨later, hlater, hserved⟩
      · rcases List.mem_cons.1 hwaits with rfl | hwaits
        · exact .inr ⟨_, hlast, rfl, hpending⟩
        · exact .inl ⟨hwaits, hadds.mem_of_mem hpending⟩
      · exact .inr ⟨later, hmem hlater, hserved⟩
    · rw [List.mem_singleton.1 hnew] at hother hadded
      rw [ControlStep.after, ← hrun] at hadded
      exact .inl ⟨hother, hadded⟩
  · have hahead := hkeeps _ hlast
    rw [ControlStep.KeepsAhead, ControlStep.after, ← hrun] at hahead
    exact (h.lined fun step hstep => hkeeps step (hmem hstep)).process hadds hahead

end Process

section Commit
variable {event : DomainEvent} {s' : RunState σ}

theorem Queued.commit (h : Queued setup (Set.Iio event.matchTime) [] s) {commit : CoreCommit}
    {observation : BufferedObservation}
    (hbuffers : RunState.Buffers setup event commit observation s s') :
    Queued setup ∅ [] s' := by
  have hcommits := hbuffers.toCommits
  have hadds := hbuffers.adds
  -- nothing was processed later than the event
  have hpast : (∀ step ∈ s.trace, step.KeepsAhead setup) →
      ∀ step ∈ s.trace, step.control.time ≤ event.matchTime := by
    intro hkeeps step hstep
    rcases (h.lined hkeeps).bound step hstep with hbefore | ⟨now, hnow, hle⟩
    · exact (Set.mem_Iio.1 hbefore).le
    · exact hle.trans (hcommits.now_le now hnow)
  refine ⟨fun step hstep other hother control hcontrol => ?_, fun hkeeps => ?_⟩
  · rw [hcommits.trace] at hstep ⊢
    rcases h.served step hstep other hother control hcontrol with ⟨hnone, -⟩ | hlater
    · cases hnone
    · exact .inr hlater
  · rw [hcommits.trace] at hkeeps
    have hlined := h.lined hkeeps
    refine {
      least := hcommits.trace ▸ hlined.least
      rising := hcommits.trace ▸ hlined.rising
      line := s'.queue.sorted
      due := by simp
      past := fun step hstep control hcontrol => ?_
      bound :=
        fun step hstep => .inr ⟨_, hcommits.now, hpast hkeeps step (hcommits.trace ▸ hstep)⟩ }
    rw [hcommits.trace] at hstep
    rcases hadds.mem hcontrol with hold | ⟨hnew, -⟩
    · exact hlined.past step hstep control hold
    · exact (hpast hkeeps step hstep).trans hnew.1

end Commit

theorem queued_invariant : RunState.Invariant setup (Queued setup)
    (fun _ s => (∀ step ∈ s.trace, step.KeepsAhead setup) → InControlOrder s.trace) where
  widen hsubset h := h.widen hsubset
  pop predicate h htimes := h.pop predicate htimes
  process {times control waiting s} h hproper := by
    have hkept : ∀ coordinator, coordinator =
        stateAfter (ScheduledCoordinator.processControl setup control s.coordinator) →
        Queued setup times waiting (s.processed control waiting coordinator) := fun _ hrun =>
      h.process (hproper control List.mem_cons_self) hrun
    cases hrun : ScheduledCoordinator.processControl setup control s.coordinator with
    | ok _ coordinator => exact hkept coordinator (by rw [hrun]; rfl)
    | error e coordinator => exact fun hkeeps =>
      ((hkept coordinator (by rw [hrun]; rfl)).lined hkeeps).toInControlOrder
  commit h _ _ hbuffers := h.commit hbuffers
  refused _ h _ hfails hkeeps := by
    rw [hfails.trace] at hkeeps ⊢
    exact (h.lined hkeeps).toInControlOrder
  fault _ h _ hkeeps := (h.lined hkeeps).toInControlOrder

end Lines

section Runs
variable {σ : Type} {setup : ScheduledSetup σ} {inputs : ScheduledInputs σ}

theorem queued_start {start : RunState σ} {streams : List EventStream}
    (h : startRun setup inputs = .ok (start, streams)) : Queued setup ∅ [] start := by
  simp only [startRun, bind_eq_ok, pure_eq_ok, Prod.mk.injEq] at h
  obtain ⟨-, -, strategy, -, -, -, visibleCore, -, rfl, -⟩ := h
  refine ⟨?_, fun _ => ⟨⟨?_, .nil⟩, .nil, ?_, ?_, ?_⟩⟩ <;> simp [ControlTimeQueue.new]

/-- A run in which nothing is scheduled before a control that was popped and still waits processes
its controls in order, and a completed run does so only then. -/
theorem controls_in_order (setup : ScheduledSetup σ) (inputs : ScheduledInputs σ) (fuel : ℕ)
    (result : EStateM.Result MultiBacktestError (RunState σ) Unit)
    (hrun : RunOf setup inputs fuel result) :
    ((∀ step ∈ (stateAfter result).trace, step.KeepsAhead setup) →
      InControlOrder (stateAfter result).trace) ∧
    (∀ s, result = .ok () s → InControlOrder s.trace →
      ∀ step ∈ s.trace, step.KeepsAhead setup) := by
  have hends := queued_invariant.run hrun fun start streams h => queued_start h
  cases result with
  | error e s => exact ⟨hends, fun _ heq => by cases heq⟩
  | ok u s =>
    obtain ⟨hqueued, -⟩ := hends
    refine ⟨fun hkeeps => (hqueued.lined hkeeps).toInControlOrder, ?_⟩
    rintro s' ⟨⟩ hordered step hstep control hcontrol - other hother
    -- the one that waited was processed while the new one was pending
    rcases hqueued.served step hstep other hother control hcontrol with
      ⟨hnone, -⟩ | ⟨later, hlater, rfl, hpending⟩
    · cases hnone
    · exact hordered.least later hlater control (List.mem_append_right _ hpending)

end Runs

section Example

/-- Answers events only. -/
def reactiveStrategy (instruments : List InstrumentId)
    (react : DomainEvent → StrategyOutputSink → Except StrategyExecutionError StrategyOutputSink) :
    Strategy Unit where
  identity _ := sampleStrategyIdentity
  canonicalParamsChecksum _ := sampleHash []
  declaration _ := ⟨instruments, [.regular]⟩
  onInitialize _ state := .ok state
  onEvent context sink state := (react context.event sink).map fun sink => (sink, state)
  onFeedback _ sink state := .ok (sink, state)
  onTimer _ sink state := .ok (sink, state)
  onFinalize _ sink state := .ok (sink, state)

/-- A scheduled backtest of two days with a new simulator and ledger. -/
def sampleScheduled (strategy : Strategy Unit) (latencyMs : ℕ) (events : List DomainEvent) :
    Option (ScheduledSetup Unit × ScheduledInputs Unit) := do
  let core ← (twoDayCore [sampleInstrument]).toOption
  let schedule ← (schedule (twoDayPlan [sampleInstrument])).toOption
  let ledger ←
      (MultiLedger.new exampleCash [{ exampleConfig with instrument := sampleInstrument }]).toOption
  return (⟨sampleHash, strategy, schedule, Unsigned.wrap 64 latencyMs, true⟩, {
    core := core
    strategy := ()
    plan := ⟨(twoDayPlan [sampleInstrument]).map fun partition =>
      { sampleBinding 1 with
        instrument := partition.instrument, tradingDate := partition.tradingDate }⟩
    factory := fun binding => .ok ⟨events.filter fun event =>
      event.instrument = binding.instrument && event.tradingDate = binding.tradingDate, none⟩
    simulator := sampleSimulator
    ledger := ledger })

/-- The state a backtest ends in, when its loops return. -/
def scheduledState (fuel : ℕ) (backtest : ScheduledSetup Unit × ScheduledInputs Unit) :
    Option (RunState Unit) := do
  let (start, streams) ← (startRun backtest.1 backtest.2).toOption
  match RunState.runLoop backtest.1 fuel streams start with
  | .ok () final => some final
  | .error _ _ => none

theorem exists_of_scheduledState (fuel : ℕ)
    (backtest : Option (ScheduledSetup Unit × ScheduledInputs Unit))
    {p : ScheduledSetup Unit → RunState Unit → Bool}
    (h : (backtest.any fun pair => (scheduledState fuel pair).any (p pair.1)) = true) :
    ∃ setup inputs final, backtest = some (setup, inputs) ∧ RunOf setup inputs fuel (.ok () final) ∧
      p setup final = true := by
  cases backtest with
  | none => cases h
  | some pair =>
    obtain ⟨setup, inputs⟩ := pair
    rw [Option.any_some, scheduledState] at h
    cases hstart : startRun setup inputs with
    | error e =>
      rw [hstart] at h
      cases h
    | ok started =>
      obtain ⟨start, streams⟩ := started
      rw [hstart] at h
      simp only [Except.toOption, Option.bind_eq_bind, Option.bind_some] at h
      cases hloop : RunState.runLoop setup fuel streams start with
      | error e final =>
        rw [hloop] at h
        cases h
      | ok u final =>
        rw [hloop] at h
        exact ⟨setup, inputs, final, rfl, ⟨start, streams, hstart, hloop⟩, h⟩

/-- A quote that many milliseconds after nine. -/
def quoteAfter (ms : ℤ) : DomainEvent :=
  sampleQuote sampleInstrument firstDay (openMicros firstDay + ms * 1000)

def firstTimer : StrategyTimerId := ⟨⟨[49], Eq.refl true⟩, by decide, by decide⟩

def secondTimer : StrategyTimerId := ⟨⟨[50], Eq.refl true⟩, by decide, by decide⟩

/-- A timer that is due that many milliseconds after nine. -/
def timerAfter (timerId : StrategyTimerId) (ms : ℤ) : StrategyTimerRequest :=
  ⟨timerId, sampleTime (openMicros firstDay + ms * 1000)⟩

def refuseTimer (_ : StrategyTimerError) : StrategyExecutionError := ⟨⟨[], Eq.refl true⟩, true⟩

/-- A timer at the first quote and one at the second quote. -/
def twoTimers (first second : ℤ) (event : DomainEvent) (sink : StrategyOutputSink) :
    Except StrategyExecutionError StrategyOutputSink :=
  if event = quoteAfter 0 then (sink.emitTimer (timerAfter firstTimer first)).mapError refuseTimer
  else if event = quoteAfter 1000 then
    (sink.emitTimer (timerAfter secondTimer second)).mapError refuseTimer
  else .ok sink

def timersAt (first second : ℤ) : Option (ScheduledSetup Unit × ScheduledInputs Unit) :=
  sampleScheduled (reactiveStrategy [sampleInstrument] (twoTimers first second)) 100
    [quoteAfter 0, quoteAfter 1000, quoteAfter 10000]

def timesOf (state : RunState Unit) : List ℤ :=
  state.trace.map fun step => step.control.time.unixMicroseconds.val - openMicros firstDay

/-- The timer that is due later, popped before the last quote, goes before the one that is set while
it waits. -/
theorem later_timer_first : ∃ (setup : ScheduledSetup Unit) (inputs : ScheduledInputs Unit)
    (final : RunState Unit), RunOf setup inputs 20 (.ok () final) ∧
    final.trace.map (fun step => step.control.time.unixMicroseconds.val - openMicros firstDay) =
      [100000, 1100000, 5000000, 2000000, 10100000] ∧ ¬ InControlOrder final.trace := by
  obtain ⟨setup, inputs, final, -, hrun, htimes⟩ := exists_of_scheduledState 20 (timersAt 5000 2000)
    (p := fun _ final => timesOf final = [100000, 1100000, 5000000, 2000000, 10100000])
      (by decide +kernel)
  have htimes : timesOf final = [100000, 1100000, 5000000, 2000000, 10100000] :=
    of_decide_eq_true htimes
  refine ⟨setup, inputs, final, hrun, htimes, fun hordered => ?_⟩
  have hrising : (timesOf final).Pairwise (· ≤ ·) :=
    List.pairwise_map.2
      (hordered.rising.imp fun hle => sub_le_sub_right ((MatchTime.le_iff _ _).1 hle) _)
  rw [htimes] at hrising
  revert hrising
  decide

/-- While the first timer waits to be processed, the second one is set for later, and both stay in
order. -/
theorem timers_in_control_order :
    ∃ (setup : ScheduledSetup Unit) (inputs : ScheduledInputs Unit) (final : RunState Unit),
    RunOf setup inputs 20 (.ok () final) ∧
    final.trace.map (fun step =>
      (step.control.time.unixMicroseconds.val - openMicros firstDay, step.waiting.length)) =
      [(100000, 0), (1100000, 1), (2000000, 0), (5000000, 0), (10100000, 0)] ∧
      InControlOrder final.trace := by
  obtain ⟨setup, inputs, final, -, hrun, hfinal⟩ := exists_of_scheduledState 20 (timersAt 2000 5000)
    (p := fun setup final =>
      decide (final.trace.map (fun step =>
        (step.control.time.unixMicroseconds.val - openMicros firstDay, step.waiting.length)) =
          [(100000, 0), (1100000, 1), (2000000, 0), (5000000, 0), (10100000, 0)]) &&
      decide (∀ step ∈ final.trace, ∀ control ∈ (step.after setup).controls.pending,
        ∀ other ∈ step.waiting, ScheduledControl.key other < control.key))
    (by decide +kernel)
  obtain ⟨htrace, hkeeps⟩ := (Bool.and_eq_true _ _).mp hfinal
  exact ⟨setup, inputs, final, hrun, of_decide_eq_true htrace,
    (controls_in_order setup inputs 20 _ hrun).1 fun step hstep control hcontrol _ =>
      of_decide_eq_true hkeeps step hstep control hcontrol⟩

end Example

end Osmium
