import Osmium.Proofs.ControlOrder
import Osmium.Sanity.Streams

/-! What no strategy can change. Both runners commit the events of the plan's streams in merge order
and nothing else, so that the replay they complete with is that of the plan alone. -/

namespace Osmium
open Machine Bytes Result Stateful

/-- The replay of a plan with no strategy. -/
def ReplayCore.replayAlone (hash : List UInt8 → Digest) (core : ReplayCore) (plan : ReplayPlan)
    (factory : ReplayStreamFactory) :
    Except (FrozenReplayError Empty) CompletedReplay := do
  let run ← runOn (ReplayCore.replayFrozenMulti hash plan factory) (core, ())
  (run.2.1.complete hash).mapError .replay

/-- The two runners: orders filled by subsequent events, and orders at scheduled times. -/
inductive Runner | subsequentEvent | scheduled

/-- A replay completed by a run of one of the runners, with whatever strategy, simulator and ledger.
-/
inductive Completes : Runner → (List UInt8 → Digest) → ReplayCore → ReplayPlan →
    ReplayStreamFactory → CompletedReplay → Prop
  | subsequentEvent {σ : Type} (setup : MultiSetup σ) (inputs : MultiInputs σ)
      (completed : CompletedMultiBacktest)
      (h : runMultiBacktest setup inputs = .ok completed) :
      Completes .subsequentEvent setup.hash inputs.core inputs.plan inputs.factory completed.replay
  | scheduled {σ : Type} (setup : ScheduledSetup σ) (inputs : ScheduledInputs σ) (fuel : ℕ)
      (completed : CompletedScheduledMultiBacktest)
      (h : runScheduledMultiBacktest setup inputs fuel = .ok completed) :
      Completes .scheduled setup.hash inputs.core inputs.plan inputs.factory completed.replay

/-- The outcome of the events of the plan's streams, committed in merge order. -/
structure ReplaysPlan (hash : List UInt8 → Digest) (core : ReplayCore) (streams : List EventStream)
    (completed : CompletedReplay) : Prop where
  clean : (streamTrace hash streams).2 = none
  committed : ∃ final,
      ReplayCore.applyAll hash ((streamTrace hash streams).1.map PreparedOrderEvent.event) core =
    .ok () final ∧ final.complete hash = .ok completed

/-- The streams of the plan's bindings, in turn. -/
def OpenedBy (factory : ReplayStreamFactory) (bindings : List ReplayStreamBinding)
    (streams : List EventStream) : Prop :=
  List.Forall₂ (fun binding stream => factory binding = .ok stream) bindings streams

section Opening
variable {core : ReplayCore} {factory : ReplayStreamFactory} {bindings : List ReplayStreamBinding}
  {streams streams' : List EventStream}

theorem OpenedBy.unique (h : OpenedBy factory bindings streams)
    (h' : OpenedBy factory bindings streams') : streams = streams' := by
  induction h generalizing streams' with
  | nil =>
    cases h'
    rfl
  | cons hfirst hrest ih =>
    obtain ⟨hfirst', hrest'⟩ | ⟨hfirst', hrest'⟩ := h'
    rw [ih hrest', Except.ok.inj (hfirst.symm.trans hfirst')]

theorem openedBy_openStreams (h : core.openStreams factory bindings = .ok streams) :
    OpenedBy factory bindings streams :=
  ((openStreams_ok bindings streams).1 h).imp fun _ _ hopens => hopens.stream

theorem openedBy_openScheduledStreams {schedule : MultiSessionSchedule}
    (h : openScheduledStreams schedule core factory bindings = .ok streams) :
    OpenedBy factory bindings streams := by
  induction bindings generalizing streams with
  | nil =>
    cases h
    exact .nil
  | cons binding rest ih =>
    simp only [openScheduledStreams, bind_eq_ok, mapError_eq_ok, pure_eq_ok] at h
    obtain ⟨_, -, _, -, stream, hstream, others, hothers, rfl⟩ := h
    exact .cons hstream (ih hothers)

end Opening

section Alone
variable {hash : List UInt8 → Digest} {core final : ReplayCore} {events : List DomainEvent}

theorem each_commitWith (h : ReplayCore.applyAll hash events core = .ok () final) :
    each (commitWith hash fun _ _ => (pure () : EStateM Empty (ReplayCore × Unit) Unit)) events
      (core, ()) =
      .ok () (final, ()) := by
  induction events generalizing core with
  | nil =>
    obtain ⟨-, rfl⟩ := (pure_ok _ _ _ _).1 h
    rfl
  | cons event rest ih =>
    obtain ⟨commit, next, hcommit, hrest⟩ := (bind_ok _ _ _ _ _).1 h
    have hfirst : commitWith hash (fun _ _ => (pure () : EStateM Empty (ReplayCore × Unit) Unit))
        event (core, ()) =
        .ok () (next, ()) := commitWith_ok.2 ⟨commit, next, hcommit, rfl⟩
    exact (bind_of_ok hfirst _).trans (ih hrest)

theorem replayAlone_ok {plan : ReplayPlan} {factory : ReplayStreamFactory}
    {streams : List EventStream}
    {completed : CompletedReplay} (hopen : core.openStreams factory plan.bindings = .ok streams)
    (h : ReplaysPlan hash core streams completed) :
    core.replayAlone hash plan factory = .ok completed := by
  obtain ⟨final, hall, hcomplete⟩ := h.committed
  have hrun : ReplayCore.replayFrozenMulti hash plan factory (core, ()) = .ok () (final, ()) := by
    unfold ReplayCore.replayFrozenMulti ReplayCore.replayFrozenMultiWith
    rw [get_bind, lift_bind ((mapError_eq_ok _ _ _).2 hopen), mergeStreams_eq, h.clean,
      each_commitPrepared new_of_mem_streamTrace, bind_of_ok (each_commitWith hall)]
    rfl
  rw [ReplayCore.replayAlone, (runOn_eq_ok _ _ _ _).2 hrun]
  exact (mapError_eq_ok _ _ _).2 hcomplete

end Alone

section Multi
variable {σ : Type} {setup : MultiSetup σ} {inputs : MultiInputs σ}

theorem keepsCore_processCommit : (MultiRunState.processCommit setup).KeepsCore := by
  intro event commit s
  unfold MultiRunState.processCommit zoom
  cases MultiRunState.processMultiEvent setup s.1 event commit s.2 <;> rfl

theorem replaysPlan_runMultiBacktest {completed : CompletedMultiBacktest}
    (h : runMultiBacktest setup inputs = .ok completed) :
    ∃ streams, inputs.core.openStreams inputs.factory inputs.plan.bindings = .ok streams ∧
      ReplaysPlan setup.hash inputs.core streams completed.replay := by
  simp only [runMultiBacktest, bind_eq_ok, mapError_eq_ok, Prod.exists, runOn_eq_ok] at h
  obtain ⟨start, -, ⟨⟩, core, finish, hloop, hfinish⟩ := h
  simp only [finishMulti, bind_eq_ok, mapError_eq_ok, pure_eq_ok, Prod.exists] at hfinish
  obtain ⟨-, -, -, -, -, ⟨⟩, -, -, -, replay, hreplay, rfl⟩ := hfinish
  obtain ⟨⟨⟩, ⟨replayed, state⟩, hframed, hend⟩ := (bind_ok _ _ _ _ _).1 hloop
  obtain ⟨_, hfrozen, heq⟩ := (zoom_ok _ _ _ _ _ _ _).1 hframed
  subst heq
  -- the cancellations at the end leave the core alone
  obtain ⟨_, -, heq⟩ := (zoom_ok _ _ _ _ _ _ _).1 hend
  cases heq
  unfold ReplayCore.replayFrozenMultiWith at hfrozen
  rw [id, get_bind] at hfrozen
  obtain ⟨streams, s₁, hlift, hmerge⟩ := (bind_ok _ _ _ _ _).1 hfrozen
  obtain ⟨hopen, rfl⟩ := (lift_ok _ _ _ _).1 hlift
  rw [mergeStreams_eq] at hmerge
  obtain ⟨⟨⟩, s₂, heach, hclean⟩ := (bind_ok _ _ _ _ _).1 hmerge
  rw [each_commitPrepared new_of_mem_streamTrace] at heach
  cases hfault : (streamTrace setup.hash streams).2 with
  | some fault =>
    rw [hfault] at hclean
    cases hclean
  | none =>
    rw [hfault] at hclean
    obtain ⟨-, rfl⟩ := (pure_ok _ _ _ _).1 hclean
    exact ⟨streams, (mapError_eq_ok _ _ _).1 hopen, hfault, _,
      keepsCore_processCommit.each_ok _ heach, hreplay⟩

end Multi

section Scheduled
variable {σ : Type} {setup : ScheduledSetup σ} {s s' : RunState σ}

/-- Controls leave the authoritative core alone. -/
def SameCore (s s' : RunState σ) : Prop := s'.core = s.core

instance : Std.Refl (SameCore (σ := σ)) := ⟨fun _ => rfl⟩

instance : IsTrans (RunState σ) SameCore := ⟨fun _ _ _ h h' => Eq.trans h' h⟩

theorem sameCore_onCoordinator {α : Type} (op : ScheduledCoordinator.Op σ α) :
    Along SameCore (fun _ => True) (RunState.onCoordinator op) s :=
  Along.zoom (fun _ => trivial) fun _ _ => rfl

theorem sameCore_processBatch (controls : List BacktestControl) :
    Along SameCore (fun _ => True) (RunState.processBatch setup controls) s := by
  induction controls generalizing s with
  | nil => exact .pure _
  | cons control waiting ih =>
    refine Along.bind (Along.bind (.modify rfl) fun _ _ _ => sameCore_onCoordinator _)
      fun _ _ _ => ih

theorem sameCore_processBefore (boundary : MatchTime) (fuel : ℕ) :
    Along SameCore (fun _ => True) (RunState.processBefore setup boundary fuel) s := by
  induction fuel generalizing s with
  | zero => exact .throw trivial
  | succ fuel ih =>
    unfold RunState.processBefore
    refine Along.get_bind (Along.ite (fun _ => ?_) fun _ => .pure _)
    exact Along.bind (.modify rfl) fun _ _ _ => Along.bind (sameCore_processBatch _) fun _ _ _ => ih

theorem sameCore_processAt (time : MatchTime) (fuel : ℕ) :
    Along SameCore (fun _ => True) (RunState.processAt setup time fuel) s := by
  induction fuel generalizing s with
  | zero => exact .throw trivial
  | succ fuel ih =>
    unfold RunState.processAt
    refine Along.get_bind (Along.ite (fun _ => ?_) fun _ => .pure _)
    exact Along.bind (.modify rfl) fun _ _ _ => Along.bind (sameCore_processBatch _) fun _ _ _ => ih

theorem sameCore_drain (fuel rounds : ℕ) :
    Along SameCore (fun _ => True) (RunState.drain setup fuel rounds) s := by
  induction rounds generalizing s with
  | zero => exact .throw trivial
  | succ rounds ih =>
    unfold RunState.drain
    refine Along.get_bind ?_
    split
    · exact .pure _
    · exact Along.bind (sameCore_processAt _ _) fun _ _ _ => ih

theorem runEvent_ok {fuel : ℕ} {prepared : PreparedOrderEvent}
    (h : RunState.runEvent setup fuel prepared s = .ok () s') :
    ∃ commit, ReplayCore.applyOrdered setup.hash prepared.event s.core = .ok commit s'.core := by
  obtain ⟨⟨⟩, s₁, hbefore, h⟩ := (bind_ok _ _ _ _ _).1 h
  obtain ⟨commit, s₂, hcommit, h⟩ := (bind_ok _ _ _ _ _).1 h
  obtain ⟨self, s₃, hget, h⟩ := (bind_ok _ _ _ _ _).1 h
  obtain ⟨rfl, rfl⟩ := (get_ok _ _ _).1 hget
  obtain ⟨⟨⟩, s₄, hbuffer, hat⟩ := (bind_ok _ _ _ _ _).1 h
  obtain ⟨commit', s₅, happly, h⟩ := (bind_ok _ _ _ _ _).1 hcommit
  obtain ⟨⟨⟩, s₆, hmodify, hreturn⟩ := (bind_ok _ _ _ _ _).1 h
  obtain ⟨rfl, rfl⟩ := (pure_ok _ _ _ _).1 hreturn
  obtain ⟨core, hcore, rfl⟩ := (zoom_ok _ _ _ _ _ _ _).1 happly
  have hsame₁ : s₁.core = s.core := (sameCore_processBefore _ _).of_ok hbefore
  have hsame₂ : s₆.core = core := congrArg RunState.core ((modify_ok _ _ _ _).1 hmodify).symm
  have hsame₄ : s₄.core = s₆.core := (sameCore_onCoordinator _).of_ok hbuffer
  have hsame : s'.core = s₄.core := (sameCore_processAt _ _).of_ok hat
  refine ⟨commit', ?_⟩
  rw [hsame, hsame₄, hsame₂, ← hsame₁]
  exact hcore

theorem each_runEvent {fuel : ℕ} {items : List PreparedOrderEvent}
    (h : each (RunState.runEvent setup fuel) items s = .ok () s') :
    ReplayCore.applyAll setup.hash (items.map PreparedOrderEvent.event) s.core =
      .ok () s'.core := by
  induction items generalizing s with
  | nil =>
    obtain ⟨-, rfl⟩ := (pure_ok _ _ _ _).1 h
    rfl
  | cons item rest ih =>
    obtain ⟨⟨⟩, s₁, hfirst, hrest⟩ := (bind_ok _ _ _ _ _).1 h
    obtain ⟨commit, hcommit⟩ := runEvent_ok hfirst
    exact (bind_of_ok hcommit _).trans (ih hrest)

theorem replaysPlan_runScheduledMultiBacktest {inputs : ScheduledInputs σ} {fuel : ℕ}
    {completed : CompletedScheduledMultiBacktest}
    (h : runScheduledMultiBacktest setup inputs fuel = .ok completed) :
    ∃ streams, OpenedBy inputs.factory inputs.plan.bindings streams ∧
      ReplaysPlan setup.hash inputs.core streams completed.replay := by
  simp only [runScheduledMultiBacktest, bind_eq_ok, Prod.exists, runOn_eq_ok] at h
  obtain ⟨start, streams, hstart, ⟨⟩, finish, hloop, hfinish⟩ := h
  simp only [finishRun, bind_eq_ok, mapError_eq_ok, pure_eq_ok, Prod.exists] at hfinish
  obtain ⟨-, -, -, -, -, ⟨⟩, -, -, -, replay, hreplay, rfl⟩ := hfinish
  simp only [startRun, bind_eq_ok, mapError_eq_ok, pure_eq_ok, Prod.mk.injEq] at hstart
  obtain ⟨-, -, strategy, -, streams', hopen, visibleCore, -, rfl, rfl⟩ := hstart
  unfold RunState.runLoop at hloop
  rw [mergeStreams_eq] at hloop
  obtain ⟨⟨⟩, s₁, hmerge, hdrain⟩ := (bind_ok _ _ _ _ _).1 hloop
  obtain ⟨⟨⟩, s₂, heach, hclean⟩ := (bind_ok _ _ _ _ _).1 hmerge
  have hdrained : finish.core = s₁.core := (sameCore_drain _ _).of_ok hdrain
  cases hfault : (streamTrace setup.hash streams').2 with
  | some fault =>
    rw [hfault] at hclean
    cases hclean
  | none =>
    rw [hfault] at hclean
    obtain ⟨-, rfl⟩ := (pure_ok _ _ _ _).1 hclean
    exact ⟨streams', openedBy_openScheduledStreams hopen, hfault, finish.core,
      hdrained ▸ each_runEvent heach, hreplay⟩

end Scheduled

section Outcome
variable {runner : Runner} {hash : List UInt8 → Digest} {core : ReplayCore} {plan : ReplayPlan}
  {factory : ReplayStreamFactory} {replay : CompletedReplay}

theorem ReplaysPlan.unique {streams : List EventStream} {replay' : CompletedReplay}
    (h : ReplaysPlan hash core streams replay)
    (h' : ReplaysPlan hash core streams replay') : replay' = replay := by
  obtain ⟨final, hall, hcomplete⟩ := h.committed
  obtain ⟨final', hall', hcomplete'⟩ := h'.committed
  rw [hall] at hall'
  cases hall'
  exact Except.ok.inj (hcomplete'.symm.trans hcomplete)

theorem Completes.replaysPlan (h : Completes runner hash core plan factory replay) :
    ∃ streams, OpenedBy factory plan.bindings streams ∧ ReplaysPlan hash core streams replay ∧
      (runner = .subsequentEvent → core.openStreams factory plan.bindings = .ok streams) := by
  cases h with
  | subsequentEvent setup inputs completed h =>
    obtain ⟨streams, hopen, hreplays⟩ := replaysPlan_runMultiBacktest h
    exact ⟨streams, openedBy_openStreams hopen, hreplays, fun _ => hopen⟩
  | scheduled setup inputs fuel completed h =>
    obtain ⟨streams, hopened, hreplays⟩ := replaysPlan_runScheduledMultiBacktest h
    exact ⟨streams, hopened, hreplays, fun hrunner => by cases hrunner⟩

/-- A run completes with the replay of the plan alone, where that opens the plan, and with the one
that any other run on the plan completes with. -/
theorem completed_replay_strategy_free (runner : Runner) (hash : List UInt8 → Digest)
    (core : ReplayCore) (plan : ReplayPlan)
    (factory : ReplayStreamFactory) (replay : CompletedReplay)
    (h : Completes runner hash core plan factory replay) :
    ((runner = .subsequentEvent ∨ ∃ streams, core.openStreams factory plan.bindings = .ok streams) →
      core.replayAlone hash plan factory = .ok replay) ∧
    ∀ runner' replay', Completes runner' hash core plan factory replay' → replay' = replay := by
  obtain ⟨streams, hopened, hreplays, hmulti⟩ := h.replaysPlan
  refine ⟨fun hopens => ?_, fun runner' replay' h' => ?_⟩
  · rcases hopens with hrunner | ⟨streams', hopen⟩
    · exact replayAlone_ok (hmulti hrunner) hreplays
    · obtain rfl := hopened.unique (openedBy_openStreams hopen)
      exact replayAlone_ok hopen hreplays
  · obtain ⟨streams', hopened', hreplays', -⟩ := h'.replaysPlan
    obtain rfl := hopened.unique hopened'
    exact hreplays.unique hreplays'

end Outcome

section Example

/-- Quotes of the first day, for a core that knows the first day only and a schedule with both. -/
def oneDayScheduled : Option (ScheduledSetup Unit × ScheduledInputs Unit) := do
  let backtest ← sampleScheduled (reactiveStrategy [sampleInstrument] fun _ sink => .ok sink) 100
      [quoteAfter 0, quoteAfter 1000]
  let core ← sampleCore.toOption
  return (backtest.1, { backtest.2 with core := core })

def refusedDate : Except (FrozenReplayError Empty) CompletedReplay → Bool
  | .error error => error = .replay .planTradingDateMismatch
  | .ok _ => false

theorem exists_of_completed (backtest : Option (ScheduledSetup Unit × ScheduledInputs Unit))
    {p : ScheduledSetup Unit × ScheduledInputs Unit → Bool} (h : backtest.any (fun backtest =>
      (runScheduledMultiBacktest backtest.1 backtest.2 20).toOption.isSome && p backtest) = true) :
    ∃ setup inputs completed, backtest = some (setup, inputs) ∧
      runScheduledMultiBacktest setup inputs 20 = .ok completed ∧ p (setup, inputs) = true := by
  cases backtest with
  | none => cases h
  | some pair =>
    obtain ⟨hsome, hp⟩ := (Bool.and_eq_true _ _).mp h
    obtain ⟨completed, hcompleted⟩ := Option.isSome_iff_exists.1 hsome
    exact ⟨pair.1, pair.2, completed, rfl, (toOption_eq_some _ _).1 hcompleted, hp⟩

/-- A binding of the second day, without events, is opened by the schedule and refused by the core.
-/
theorem schedule_opens_unknown_date :
    ∃ (setup : ScheduledSetup Unit) (inputs : ScheduledInputs Unit)
    (completed : CompletedScheduledMultiBacktest),
    runScheduledMultiBacktest setup inputs 20 = .ok completed ∧
      inputs.core.replayAlone setup.hash inputs.plan inputs.factory =
        .error (.replay .planTradingDateMismatch) := by
  obtain ⟨setup, inputs, completed, -, hrun, hrefused⟩ := exists_of_completed oneDayScheduled
    (p := fun backtest =>
      refusedDate (backtest.2.core.replayAlone backtest.1.hash backtest.2.plan backtest.2.factory))
    (by decide +kernel)
  refine ⟨setup, inputs, completed, hrun, ?_⟩
  cases halone : inputs.core.replayAlone setup.hash inputs.plan inputs.factory with
  | ok replay =>
    rw [halone] at hrefused
    cases hrefused
  | error error =>
    rw [halone] at hrefused
    rw [of_decide_eq_true hrefused]

/-- A scheduled run of three quotes whose strategy sets timers, one of which is due later and goes
first, and the replay of the quotes alone. -/
theorem timers_replay_strategy_free :
    ∃ (setup : ScheduledSetup Unit) (inputs : ScheduledInputs Unit)
    (completed : CompletedScheduledMultiBacktest), timersAt 5000 2000 = some (setup, inputs) ∧
      runScheduledMultiBacktest setup inputs 20 = .ok completed ∧
      inputs.core.replayAlone setup.hash inputs.plan inputs.factory = .ok completed.replay := by
  obtain ⟨setup, inputs, completed, hsample, hrun, hopens⟩ :=
    exists_of_completed (timersAt 5000 2000)
    (p := fun backtest =>
      (backtest.2.core.openStreams backtest.2.factory backtest.2.plan.bindings).toOption.isSome)
    (by decide +kernel)
  obtain ⟨streams, hstreams⟩ := Option.isSome_iff_exists.1 hopens
  have hfree :=
    completed_replay_strategy_free .scheduled setup.hash inputs.core inputs.plan inputs.factory
    completed.replay (.scheduled setup inputs 20 completed hrun)
  exact ⟨setup, inputs, completed, hsample, hrun,
    hfree.1 (.inr ⟨streams, (toOption_eq_some _ _).1 hstreams⟩)⟩

end Example

end Osmium
