import Osmium.Lib.Hoare
import Osmium.Sanity.SimulatorCalls
import Osmium.Sanity.Streams
import Osmium.Spec.MultiRunner

/-! The subsequent-event runner as a machine: what it does to the simulators and the segments in use
is a run of a few kinds of steps, whatever the strategy answers and wherever the run fails. -/

namespace Osmium
open Machine Bytes Result Stateful

/-- What the steps of the runner are about. -/
structure RunView where
  simulator : MultiSimulator
  currentSegments : Std.ExtTreeMap InstrumentId SessionSegmentId
  log : List LogEntry

def MultiRunState.view {σ : Type} (self : MultiRunState σ) : RunView :=
  ⟨self.simulator, self.currentSegments, self.log⟩

def LogEntry.begun : LogEntry → Option EventInfo
  | .began info _ => some info
  | .called _ _ _ _ => none

/-- The events the runner turned to, in order. -/
def beginnings (log : List LogEntry) : List EventInfo := log.filterMap LogEntry.begun

/-- The feedback of a call, none where it failed. -/
def feedbackOf (result : EStateM.Result SimulationError MultiSimulator (List OrderFeedback)) :
    List OrderFeedback :=
  match result with
  | .ok feedback _ => feedback
  | .error _ _ => []

namespace RunView

/-- The event the runner is at. -/
def current (self : RunView) : Option EventInfo := (beginnings self.log).getLast?

def call (hash : List UInt8 → Digest) (self : RunView) (info : Option EventInfo)
    (call : RunnerCall) : RunView where
  simulator := stateAfter (call.run hash self.simulator)
  currentSegments := self.currentSegments
  log := self.log ++ [.called info call self.simulator (feedbackOf (call.run hash self.simulator))]

/-- Turns to an event without ending the window before it. -/
def turn (self : RunView) (info : EventInfo) : RunView where
  simulator := self.simulator
  currentSegments := self.currentSegments.insert info.event.instrument info.window.id
  log := self.log ++ [.began info self.simulator]

/-- Turns to an event and ends the window before it where the segment identity changes. -/
def begin (hash : List UInt8 → Digest) (self : RunView) (info : EventInfo) : RunView :=
  match self.currentSegments[info.event.instrument]? with
  | none => self.turn info
  | some previous =>
    if previous = info.window.id then self.turn info
    else (self.turn info).call hash (some info) (.cancelSegmentEnd info.event.instrument previous)

end RunView

/-- The steps of a run. Submissions and evaluations are made at the event the runner is at, with its
context. -/
inductive RunnerStep {σ : Type} (setup : MultiSetup σ) : RunView → RunView → Prop
  | begins (view : RunView) (info : EventInfo)
      (h : info.trading.session.segmentId = info.window.id) :
    RunnerStep setup view (view.begin setup.hash info)
  | submits (view : RunView) (info : EventInfo) (state : σ) (outputSequence : U32)
      (intent : OrderIntent)
      (h : view.current = some info) :
    RunnerStep setup view
      (view.call setup.hash (some info) (.submit (setup.strategy.identity state).strategyId
      info.occurrence info.trading outputSequence intent))
  | evaluates (view : RunView) (info : EventInfo) (h : view.current = some info) :
    RunnerStep setup view
      (view.call setup.hash (some info) (.evaluate info.event info.occurrence info.trading))
  | endsSegment (view : RunView) (instrument : InstrumentId) (segmentId : SessionSegmentId) :
    RunnerStep setup view (view.call setup.hash none (.cancelSegmentEnd instrument segmentId))
  | endsRun (view : RunView) (instrument : InstrumentId) :
    RunnerStep setup view (view.call setup.hash none (.cancelEndOfRun instrument))

def Reaches {σ : Type} (setup : MultiSetup σ) : RunView → RunView → Prop :=
  Relation.ReflTransGen (RunnerStep setup)

section Views
variable {hash : List UInt8 → Digest} {view : RunView}

theorem current_call (info : Option EventInfo) (call : RunnerCall) :
    (view.call hash info call).current = view.current := by
  simp [RunView.current, RunView.call, beginnings, LogEntry.begun]

theorem current_turn (info : EventInfo) : (view.turn info).current = some info := by
  simp [RunView.current, RunView.turn, beginnings, LogEntry.begun]

end Views

namespace MultiRunState
variable {σ : Type} {setup : MultiSetup σ} {start : RunView} {self : MultiRunState σ}
  {info : EventInfo}

theorem view_callSimulator (info : Option EventInfo) (call : RunnerCall) :
    (stateAfter (callSimulator setup.hash info call self)).view =
      self.view.call setup.hash info call := by
  unfold callSimulator RunView.call MultiRunState.view
  dsimp only
  cases call.run setup.hash self.simulator with
  | ok feedback simulator => rfl
  | error e simulator => rfl

/-- The run has come from `start` to an event. -/
def At (setup : MultiSetup σ) (start : RunView) (info : EventInfo)
    (self : MultiRunState σ) : Prop :=
  Reaches setup start self.view ∧ self.view.current = some info

def Reached (setup : MultiSetup σ) (start : RunView) (self : MultiRunState σ) : Prop :=
  Reaches setup start self.view

/-- A call that is a step of the run. -/
theorem at_callSimulator {call : RunnerCall} (h : At setup start info self)
    (hstep : RunnerStep setup self.view (self.view.call setup.hash (some info) call)) :
    Meets (callSimulator setup.hash (some info) call self) (fun _ => At setup start info)
      (fun _ => At setup start info) := by
  refine Meets.of_stateAfter ?_
  unfold At
  rw [view_callSimulator, current_call]
  exact ⟨h.1.tail hstep, h.2⟩

theorem at_submitIntents (h : At setup start info self) (intents : List OrderIntent) (index : ℕ) :
    Meets (submitIntents setup (some info) info.occurrence info.trading intents index self)
      (fun _ => At setup start info) (fun _ => At setup start info) := by
  induction intents generalizing self index with
  | nil => exact h
  | cons intent rest ih =>
    rw [submitIntents, get_bind]
    refine Meets.bind (.lift_keeps h) fun outputSequence s hs => ?_
    refine Meets.bind (at_callSimulator hs
      (.submits _ info self.strategy outputSequence intent hs.2)) fun _ s' hs' => ?_
    exact Meets.bind (ih hs' (index + 1)) fun _ _ hs => hs

theorem At.of_view {s : MultiRunState σ} (h : At setup start info self)
    (hview : s.view = self.view) : At setup start info s := by
  unfold At at h ⊢
  rw [hview]
  exact h

theorem view_extendOutput (self : MultiRunState σ) (sink : StrategyOutputSink)
    (occurrence : EventOccurrence) :
    Meets (extendOutput sink occurrence self) (fun _ s => s.view = self.view)
      (fun _ s => s.view = self.view) :=
  Meets.bind (.lift_keeps (P := fun s : MultiRunState σ => s.view = self.view) rfl) fun _ _ hs => hs

theorem at_extendOutput (h : At setup start info self) (sink : StrategyOutputSink)
    (occurrence : EventOccurrence) :
    Meets (extendOutput sink occurrence self) (fun _ => At setup start info)
      (fun _ => At setup start info) :=
  (view_extendOutput self sink occurrence).imp (fun _ _ hview => h.of_view hview) fun _ _ hview =>
    h.of_view hview

theorem at_processMultiFeedback (h : At setup start info self) (feedback : List OrderFeedback)
    (rejectIntents : Bool) :
    Meets (processMultiFeedback setup
      (some info) info.occurrence info.trading feedback rejectIntents self)
      (fun _ => At setup start info) (fun _ => At setup start info) := by
  unfold processMultiFeedback
  by_cases hnone : feedback = []
  · rw [if_pos hnone]
    exact h
  rw [if_neg hnone, get_bind]
  refine Meets.bind (.lift_keeps h) fun answer s hs => ?_
  refine Meets.bind (Q := fun _ => At setup start info) h fun _ s hs => ?_
  refine Meets.bind (at_extendOutput hs _ _) fun _ s hs => ?_
  refine Meets.bind (.lift_keeps hs) fun _ s hs => ?_
  exact Meets.bind (at_submitIntents hs _ 0) fun _ _ hs => hs

theorem at_beginEvent (h : Reached setup start self)
    (hsegment : info.trading.session.segmentId = info.window.id) :
    Meets (beginEvent setup info self) (fun _ => At setup start info)
      (fun _ => Reached setup start) := by
  have hreaches := h.tail (.begins self.view info hsegment)
  unfold beginEvent
  rw [get_bind]
  refine Meets.bind
    (Q := fun _ s => s.view = self.view.turn info ∧ s.strategy = self.strategy) ⟨rfl, rfl⟩
    fun _ s hs => ?_
  unfold RunView.begin at hreaches
  have hprevious : self.view.currentSegments = self.currentSegments := rfl
  rw [hprevious] at hreaches
  have hcurrent : s.view.current = some info := hs.1 ▸ current_turn info
  cases hold : self.currentSegments[info.event.instrument]? with
  | none =>
    simp only [hold] at hreaches
    exact ⟨hs.1 ▸ hreaches, hcurrent⟩
  | some previous =>
    simp only [hold] at hreaches
    simp only [endSegment]
    by_cases hsame : previous = info.window.id
    · rw [if_pos hsame] at hreaches ⊢
      exact ⟨hs.1 ▸ hreaches, hcurrent⟩
    · rw [if_neg hsame] at hreaches ⊢
      refine Meets.bind (Q := fun _ => At setup start info) ?_ fun cancellations s' hs' => ?_
      · refine Meets.imp (Meets.of_stateAfter (P := At setup start info) ?_) (fun _ _ hs => hs)
          fun _ _ hs => hs.1
        unfold At
        rw [view_callSimulator, current_call]
        rw [← hs.1] at hreaches
        exact ⟨hreaches, hcurrent⟩
      · exact (at_processMultiFeedback hs' cancellations false).imp (fun _ _ hs => hs)
          fun _ _ hs => hs.1

theorem at_onEvent (h : At setup start info self) (state : MarketState)
    (states : Std.ExtTreeMap InstrumentId MarketState) :
    Meets (onEvent setup info state states self) (fun _ => At setup start info)
      (fun _ => At setup start info) := by
  unfold onEvent
  rw [get_bind]
  refine Meets.bind (.lift_keeps h) fun answer s hs => ?_
  refine Meets.bind (Q := fun _ => At setup start info) h fun _ s hs => ?_
  refine Meets.bind (at_extendOutput hs _ _) fun _ s hs => ?_
  exact at_submitIntents hs _ 0

theorem at_applyFills (h : At setup start info self) (instrument : InstrumentId)
    (fills : List FillRecord) :
    Meets (applyFills instrument fills self) (fun _ => At setup start info)
      (fun _ => At setup start info) := by
  induction fills generalizing self with
  | nil => exact h
  | cons fill rest ih =>
    rw [applyFills]
    refine Meets.bind (Q := fun _ => At setup start info) (.zoom ?_) fun _ s hs => ih hs
    cases MultiLedger.applyFill instrument fill self.ledger with
    | ok u ledger => exact h
    | error e ledger => exact h

theorem at_matchEvent (h : At setup start info self) :
    Meets (matchEvent setup info self) (fun _ => At setup start info)
      (fun _ => At setup start info) := by
  unfold matchEvent
  rw [get_bind]
  refine Meets.bind (at_callSimulator h (.evaluates _ info h.2)) fun _ s hs => ?_
  rw [get_bind]
  refine Meets.bind (.lift_keeps hs) fun fills s hs => ?_
  exact Meets.bind (at_applyFills hs _ _) fun _ s hs => hs

theorem eventInfo_ok {core : ReplayCore} {event : DomainEvent} {occurrence : EventOccurrence}
    {state : MarketState} (h : eventInfo setup core event occurrence = .ok (info, state)) :
    info.event = event ∧ info.occurrence = occurrence ∧
    info.trading.session.segmentId = info.window.id ∧
      setup.schedule.segmentFor event.instrument event.matchTime = some info.window ∧
      event.tradingDate = info.window.tradingDate := by
  simp only [eventInfo, bind_eq_ok, okOr_eq_ok, mapError_eq_ok, pure_eq_ok, Prod.mk.injEq] at h
  obtain ⟨window, hwindow, state', -, trading, htrading, hinfo, -⟩ := h
  simp only [MarketTradingContextEvaluator.evaluate,
    MarketTradingContextEvaluator.validateEventState, bind_eq_ok,
    ensure_eq_ok, pure_eq_ok] at htrading
  obtain ⟨_, ⟨_, hdate, -⟩, phase, -, htrading⟩ := htrading
  subst hinfo
  refine ⟨rfl, rfl, ?_, hwindow, hdate.1⟩
  rw [← htrading]

theorem reached_processMultiEvent (h : Reached setup start self) (core : ReplayCore)
    (event : DomainEvent) (commit : CoreCommit) :
    Meets (processMultiEvent setup core event commit self) (fun _ => Reached setup start)
      (fun _ => Reached setup start) := by
  unfold processMultiEvent
  cases hinfo : eventInfo setup core event commit.occurrence with
  | error e =>
    rw [lift_bind_error rfl]
    exact h
  | ok found =>
    obtain ⟨info, state⟩ := found
    rw [lift_bind rfl]
    obtain ⟨rfl, hoccurrence, hsegment, -⟩ := eventInfo_ok hinfo
    refine Meets.bind (at_beginEvent h hsegment) fun _ s hs => ?_
    refine Meets.bind ((at_onEvent hs state core.states).imp (fun _ _ hs => hs) fun _ _ hs => hs.1)
      fun submitted s hs => ?_
    refine Meets.bind ((at_matchEvent hs).imp (fun _ _ hs => hs) fun _ _ hs => hs.1)
      fun matched s hs => ?_
    refine Meets.bind ((at_processMultiFeedback hs (submitted ++ matched) false).imp
      (fun _ _ hs => hs) fun _ _ hs => hs.1)
      fun _ s hs => ?_
    exact hs.1

section Ending

/-- After the last event feedback is still delivered, but an answer to it ends the run. -/
theorem view_processMultiFeedback (self : MultiRunState σ) (occurrence : EventOccurrence)
    (trading : TradingContext) (feedback : List OrderFeedback) :
    Meets (processMultiFeedback setup none occurrence trading feedback true self)
      (fun _ s => s.view = self.view)
      (fun _ s => s.view = self.view) := by
  unfold processMultiFeedback
  by_cases hnone : feedback = []
  · rw [if_pos hnone]
    exact rfl
  rw [if_neg hnone, get_bind]
  refine Meets.bind (.lift_keeps (P := fun s : MultiRunState σ => s.view = self.view) rfl)
    fun answer s hs => ?_
  refine Meets.bind (Q := fun _ (s : MultiRunState σ) => s.view = self.view) rfl fun _ s hs => ?_
  refine Meets.bind ((view_extendOutput s _ _).imp (fun _ _ h => h.trans hs) fun _ _ h =>
    h.trans hs) fun _ s hs => ?_
  refine Meets.bind (Q := fun _ (s : MultiRunState σ) => s.view = self.view ∧ answer.1.intents = [])
    ?_ fun _ s hs => ?_
  · refine Meets.lift (fun _ hnot => ⟨hs, ?_⟩) fun _ _ => hs
    have hnot := (ensure_eq_ok _ _ _).1 hnot
    by_contra hne
    exact hnot ⟨rfl, hne⟩
  · rw [hs.2]
    exact hs.1

theorem reached_deliverCancellations (h : Reached setup start self) (instrument : InstrumentId)
    (cancellations : List OrderFeedback) :
    Meets (deliverCancellations setup instrument cancellations self) (fun _ => Reached setup start)
      (fun _ => Reached setup start) := by
  unfold deliverCancellations
  by_cases hnone : cancellations = []
  · rw [if_pos hnone]
    exact h
  rw [if_neg hnone, get_bind]
  refine Meets.bind (.lift_keeps h) fun context s hs => ?_
  have hkeep : ∀ s', s'.view = s.view → Reached setup start s' := fun s' hview => by
    unfold Reached
    rw [hview]
    exact hs
  exact (view_processMultiFeedback s _ _ cancellations).imp (fun _ s' => hkeep s')
    fun _ s' => hkeep s'

theorem reached_cancel (h : Reached setup start self) {call : RunnerCall}
    (hstep : RunnerStep setup self.view (self.view.call setup.hash none call)) :
    Meets (callSimulator setup.hash none call self) (fun _ => Reached setup start)
      (fun _ => Reached setup start) := by
  refine Meets.of_stateAfter ?_
  unfold Reached
  rw [view_callSimulator]
  exact h.tail hstep

theorem reached_endSegments (h : Reached setup start self)
    (segments : List (InstrumentId × SessionSegmentId)) :
    Meets (endSegments setup segments self) (fun _ => Reached setup start)
      (fun _ => Reached setup start) := by
  induction segments generalizing self with
  | nil => exact h
  | cons segment rest ih =>
    rw [endSegments]
    refine Meets.bind (reached_cancel h (.endsSegment _ _ _)) fun cancellations s hs => ?_
    exact Meets.bind (reached_deliverCancellations hs _ cancellations) fun _ s hs => ih hs

theorem reached_endInstruments (h : Reached setup start self) (instruments : List InstrumentId) :
    Meets (endInstruments setup instruments self) (fun _ => Reached setup start)
      (fun _ => Reached setup start) := by
  induction instruments generalizing self with
  | nil => exact h
  | cons instrument rest ih =>
    rw [endInstruments]
    refine Meets.bind (reached_cancel h (.endsRun _ _)) fun cancellations s hs => ?_
    exact Meets.bind (reached_deliverCancellations hs _ cancellations) fun _ s hs => ih hs

theorem reached_endRun (h : Reached setup start self) (instruments : List InstrumentId) :
    Meets (endRun setup instruments self) (fun _ => Reached setup start)
      (fun _ => Reached setup start) := by
  unfold endRun
  rw [get_bind]
  exact Meets.bind (reached_endSegments h _) fun _ s hs => reached_endInstruments hs instruments

end Ending

section Replaying

/-- What the processing of an event keeps, a frozen replay keeps. -/
theorem meets_replay {P : MultiRunState σ → Prop} {E : MultiRunState σ → Prop}
    (hweak : ∀ s, P s → E s) (hstep : ∀ s core event commit, P s →
      Meets (processMultiEvent setup core event commit s) (fun _ => P) (fun _ => E))
    (h : P self) (core : ReplayCore) (plan : ReplayPlan) (factory : ReplayStreamFactory) :
    Meets (ReplayCore.replayFrozenMultiWith setup.hash plan factory (processCommit setup)
      (core, self)) (fun _ s => P s.2)
      (fun _ s => E s.2) := by
  unfold ReplayCore.replayFrozenMultiWith
  rw [get_bind]
  refine Meets.bind (Q := fun _ s => P s.2) (.lift (fun _ _ => h) fun _ _ => hweak _ h)
    fun streams s hs => ?_
  rw [mergeStreams_eq]
  refine Meets.bind (Meets.each (P := fun s => P s.2) (fun prepared _ s hs => ?_) hs)
    fun _ s hs => ?_
  · unfold commitPrepared
    refine Meets.bind (Q := fun _ s => P s.2) (.zoom ?_) fun commit s hs => .zoom ?_
    · cases ReplayCore.applyPreparedOrdered setup.hash prepared.event prepared.key
        prepared.canonical s.1 with
      | ok commit core => exact hs
      | error e core => exact hweak _ hs
    · exact .zoom (hstep s.2 s.1 prepared.event commit hs)
  · cases (streamTrace setup.hash streams).2 with
    | none => exact hs
    | some fault => exact hweak _ hs

end Replaying

end MultiRunState

/-- Everything a run does to the simulators and the segments is a run of steps from a runner that
did nothing yet. -/
theorem MultiRunOf.reaches {σ : Type} {setup : MultiSetup σ} {inputs : MultiInputs σ}
    {result : EStateM.Result MultiRunError (ReplayCore × MultiRunState σ) Unit}
    (h : MultiRunOf setup inputs result) :
    Reaches setup ⟨inputs.simulator, ∅, []⟩ (stateAfter result).2.view := by
  obtain ⟨start, hstart, rfl⟩ := h
  simp only [startMulti, bind_eq_ok, pure_eq_ok] at hstart
  obtain ⟨-, -, strategy, -, rfl⟩ := hstart
  refine stateAfter_of_meets
    (P := fun s : ReplayCore × MultiRunState σ =>
      Reaches setup ⟨inputs.simulator, ∅, []⟩ s.2.view) ?_
  unfold multiLoop
  refine Meets.bind (Q := fun _ s => Reaches setup ⟨inputs.simulator, ∅, []⟩ s.2.view) (.zoom ?_)
    fun _ s hs => .zoom ?_
  · exact MultiRunState.meets_replay (fun _ hs => hs)
      (fun s core event commit hs =>
        MultiRunState.reached_processMultiEvent hs core event commit) .refl _ _ _
  · exact MultiRunState.reached_endRun hs _

section Calls
variable {hash : List UInt8 → Digest}

/-- The instrument a call is for. -/
def RunnerCall.target : RunnerCall → InstrumentId
  | .submit _ _ _ _ intent => intent.instrument
  | .evaluate event _ _ => event.instrument
  | .cancelSegmentEnd instrument _ | .cancelEndOfRun instrument => instrument

/-- The call as the simulator of that instrument gets it. -/
def RunnerCall.simCall : RunnerCall → SimCall
  | .submit strategyId occurrence trading outputSequence intent =>
    .submit strategyId occurrence trading outputSequence intent
  | .evaluate event occurrence trading => .evaluate event occurrence trading
  | .cancelSegmentEnd _ segmentId => .cancelSegmentEnd segmentId
  | .cancelEndOfRun _ => .cancelEndOfRun

theorem stateAfter_onInstrument {α : Type} (multi : MultiSimulator) (instrument : InstrumentId)
    (absent : α)
    (op : Simulator.Op α) : stateAfter (MultiSimulator.onInstrument instrument absent op multi) =
      match multi.simulators[instrument]? with
      | none => multi
      | some simulator => ⟨multi.simulators.insert instrument (stateAfter (op simulator))⟩ := by
  unfold MultiSimulator.onInstrument
  cases multi.simulators[instrument]? with
  | none => rfl
  | some simulator =>
    simp only []
    cases op simulator with
    | ok a after => rfl
    | error e after => rfl

/-- An operation on an instrument reaches the simulator of that instrument and no other. -/
theorem simulators_onInstrument {α : Type} (multi : MultiSimulator)
    (instrument other : InstrumentId) (absent : α) (op : Simulator.Op α) :
    (stateAfter (MultiSimulator.onInstrument instrument absent op multi)).simulators[other]? =
      if other = instrument then multi.simulators[other]?.map fun simulator =>
        stateAfter (op simulator)
      else multi.simulators[other]? := by
  rw [stateAfter_onInstrument]
  by_cases hsame : other = instrument
  · subst hsame
    rw [if_pos rfl]
    cases hfound : multi.simulators[other]? with
    | none => exact hfound
    | some simulator => simp
  · rw [if_neg hsame]
    have hne : instrument ≠ other := fun heq => hsame heq.symm
    cases multi.simulators[instrument]? with
    | none => rfl
    | some simulator => simp [Std.ExtTreeMap.getElem?_insert, hne]

theorem simulators_run (hash : List UInt8 → Digest) (call : RunnerCall) (multi : MultiSimulator)
    (instrument : InstrumentId) :
    (stateAfter (call.run hash multi)).simulators[instrument]? = if instrument = call.target then
      multi.simulators[instrument]?.map (call.simCall.after hash) else
        multi.simulators[instrument]? := by
  cases call with
  | submit strategyId occurrence trading outputSequence intent =>
    have hrun : stateAfter
        (RunnerCall.run hash (.submit strategyId occurrence trading outputSequence intent) multi) =
        stateAfter
          (MultiSimulator.submit hash strategyId occurrence trading outputSequence intent multi) :=
      stateAfter_bind_pure _ _ _
    rw [hrun]
    exact simulators_onInstrument multi intent.instrument instrument _ _
  | evaluate event occurrence trading =>
    exact simulators_onInstrument multi event.instrument instrument _ _
  | cancelSegmentEnd target segmentId =>
    exact simulators_onInstrument multi target instrument [] (Simulator.cancelSegmentEnd segmentId)
  | cancelEndOfRun target =>
    exact simulators_onInstrument multi target instrument [] Simulator.cancelEndOfRun

/-- Every simulator tracks what it granted. -/
def AllTracked (multi : MultiSimulator) : Prop :=
  ∀ (instrument : InstrumentId) simulator, multi.simulators[instrument]? = some simulator →
    ∃ model pricePolicy grants, Tracks model pricePolicy ⟨simulator, grants⟩

theorem AllTracked.run {multi : MultiSimulator} (h : AllTracked multi) (hash : List UInt8 → Digest)
    (call : RunnerCall) :
    AllTracked (stateAfter (call.run hash multi)) := by
  intro instrument simulator hfound
  rw [simulators_run] at hfound
  split_ifs at hfound with htarget
  · obtain ⟨before, hbefore, rfl⟩ := Option.map_eq_some_iff.1 hfound
    obtain ⟨model, pricePolicy, grants, htracks⟩ := h instrument before hbefore
    exact ⟨model, pricePolicy, _, htracks.after hash call.simCall⟩
  · exact h instrument simulator hfound

theorem orders_addSimulators {configs : List SimulatorConfig}
    {simulators added : Std.ExtTreeMap InstrumentId Simulator}
    (h : MultiSimulator.addSimulators configs simulators = .ok added)
    (hbefore : ∀ (instrument : InstrumentId) simulator, simulators[instrument]? = some simulator →
      ∃ instruments unit model pricePolicy,
        simulator = Simulator.newWithPricePolicy instruments unit model pricePolicy) :
    ∀ (instrument : InstrumentId) simulator, added[instrument]? = some simulator →
      ∃ instruments unit model pricePolicy,
        simulator = Simulator.newWithPricePolicy instruments unit model pricePolicy := by
  induction configs generalizing simulators with
  | nil =>
    obtain rfl := Except.ok.inj h
    exact hbefore
  | cons config rest ih =>
    simp only [MultiSimulator.addSimulators, bind_eq_ok] at h
    obtain ⟨_, -, hrest⟩ := h
    refine ih hrest fun instrument simulator hfound => ?_
    rw [Std.ExtTreeMap.getElem?_insert] at hfound
    split_ifs at hfound with hsame
    · exact ⟨_, _, _, _, (Option.some.inj hfound).symm⟩
    · exact hbefore instrument simulator hfound

/-- A new universe has new simulators. -/
theorem simulators_new {configs : List SimulatorConfig} {multi : MultiSimulator}
    (h : MultiSimulator.new configs = .ok multi) {instrument : InstrumentId} {simulator : Simulator}
    (hfound : multi.simulators[instrument]? = some simulator) :
    ∃ instruments unit model pricePolicy,
      simulator = Simulator.newWithPricePolicy instruments unit model pricePolicy := by
  simp only [MultiSimulator.new, bind_eq_ok, pure_eq_ok] at h
  obtain ⟨simulators, hadded, _, -, rfl⟩ := h
  exact orders_addSimulators hadded
    (fun instrument simulator hnone => by simp at hnone) instrument simulator hfound

theorem allTracked_new {configs : List SimulatorConfig} {multi : MultiSimulator}
    (h : MultiSimulator.new configs = .ok multi) :
    AllTracked multi := by
  intro instrument simulator hfound
  obtain ⟨instruments, unit, model, pricePolicy, rfl⟩ := simulators_new h hfound
  exact ⟨model, pricePolicy, [], Tracks.initial instruments unit model pricePolicy⟩

end Calls

section Acceptances

/-- An accepted submission: the event it was made at, its arguments, and the simulators before it.
-/
structure Acceptance where
  info : Option EventInfo
  strategyId : Text
  occurrence : EventOccurrence
  trading : TradingContext
  outputSequence : U32
  intent : OrderIntent
  before : MultiSimulator
  orderId : OrderId

def LogEntry.acceptance : LogEntry → Option Acceptance
  | .called info (.submit strategyId occurrence trading outputSequence intent) before
      [.accepted orderId] =>
    some ⟨info, strategyId, occurrence, trading, outputSequence, intent, before, orderId⟩
  | _ => none

def acceptances (log : List LogEntry) : List Acceptance := log.filterMap LogEntry.acceptance

def acceptancesFor (instrument : InstrumentId) (log : List LogEntry) : List Acceptance :=
  (acceptances log).filter fun acceptance => acceptance.intent.instrument = instrument

/-- The acceptance an order came from. -/
structure Acceptance.Of (hash : List UInt8 → Digest) (order : SimOrder)
    (acceptance : Acceptance) : Prop where
  accepts : ∃ simulator, acceptance.before.simulators[acceptance.intent.instrument]? =
      some simulator ∧
    SimAccepts hash simulator acceptance.strategyId acceptance.occurrence acceptance.trading
      acceptance.outputSequence
      acceptance.intent order.submitted
  orderId : order.id = acceptance.orderId

/-- The orders of every simulator are as before, filled or closed at most. -/
def OrdersFollow (multi after : MultiSimulator) : Prop :=
  ∀ (instrument : InstrumentId) simulator, multi.simulators[instrument]? = some simulator →
    ∃ next, after.simulators[instrument]? = some next ∧
    List.Forall₂ SimOrder.Follows simulator.orders next.orders

theorem ordersFollow_run (hash : List UInt8 → Digest) {multi : MultiSimulator} {call : RunnerCall}
    (h : ∀ simulator, multi.simulators[call.target]? = some simulator →
      List.Forall₂ SimOrder.Follows simulator.orders (call.simCall.after hash simulator).orders) :
    OrdersFollow multi (stateAfter (call.run hash multi)) := by
  intro instrument simulator hfound
  rw [simulators_run]
  by_cases htarget : instrument = call.target
  · subst htarget
    rw [if_pos rfl, hfound]
    exact ⟨_, rfl, h simulator hfound⟩
  · rw [if_neg htarget]
    exact ⟨simulator, hfound, List.forall₂_same.2 fun order _ => ⟨rfl, id⟩⟩

/-- The simulators with one order more. -/
def AddsOrder (multi after : MultiSimulator) (target : InstrumentId) (order : SimOrder) : Prop :=
  ∀ (instrument : InstrumentId) simulator, multi.simulators[instrument]? = some simulator →
    ∃ next, after.simulators[instrument]? = some next ∧
      next.orders = simulator.orders ++ if instrument = target then [order] else []

def submitFeedback (result : EStateM.Result SimulationError Simulator OrderFeedback) :
    List OrderFeedback :=
  match result with
  | .ok feedback _ => [feedback]
  | .error _ _ => []

theorem feedbackOf_submit {hash : List UInt8 → Digest} {multi : MultiSimulator} {strategyId : Text}
    {occurrence : EventOccurrence} {trading : TradingContext} {outputSequence : U32}
    {intent : OrderIntent}
    {simulator : Simulator} {result : EStateM.Result SimulationError Simulator OrderFeedback}
    (hfound : multi.simulators[intent.instrument]? = some simulator)
    (hsubmit : Simulator.submit hash strategyId occurrence trading outputSequence intent
      simulator = result) :
    feedbackOf
      (RunnerCall.run hash (.submit strategyId occurrence trading outputSequence intent) multi) =
      submitFeedback result := by
  subst hsubmit
  cases hresult :
    Simulator.submit hash strategyId occurrence trading outputSequence intent simulator with
  | ok feedback after =>
    have hmulti :
        MultiSimulator.submit hash strategyId occurrence trading outputSequence intent multi =
        .ok feedback ⟨multi.simulators.insert intent.instrument after⟩ := by
      unfold MultiSimulator.submit MultiSimulator.onInstrument
      rw [hfound]
      simp only [hresult]
    exact congrArg feedbackOf (bind_of_ok hmulti _)
  | error e after =>
    have hmulti :
        MultiSimulator.submit hash strategyId occurrence trading outputSequence intent multi =
        .error e ⟨multi.simulators.insert intent.instrument after⟩ := by
      unfold MultiSimulator.submit MultiSimulator.onInstrument
      rw [hfound]
      simp only [hresult]
    exact congrArg feedbackOf (bind_of_error hmulti _)

/-- A call that submits nothing to a simulator of the run adds no order. -/
theorem ordersFollow_of_not_submit (hash : List UInt8 → Digest) {multi : MultiSimulator}
    (h : AllTracked multi) {call : RunnerCall}
    (hnot : ∀ simulator, multi.simulators[call.target]? = some simulator →
      ∀ strategyId occurrence trading outputSequence intent, call.simCall ≠
        .submit strategyId occurrence trading outputSequence intent) :
    OrdersFollow multi (stateAfter (call.run hash multi)) := by
  refine ordersFollow_run hash fun simulator hfound => ?_
  obtain ⟨model, pricePolicy, grants, htracks⟩ := h call.target simulator hfound
  rcases htracks.orders_after hash call.simCall with hsame | ⟨_, _, _, _, _, _, _, hcall, -⟩
  · exact hsame.1
  · exact absurd hcall (hnot simulator hfound _ _ _ _ _)

/-- Nor does a call that leaves its simulator as it was. -/
theorem ordersFollow_of_unchanged (hash : List UInt8 → Digest) {multi : MultiSimulator}
    {call : RunnerCall} {simulator : Simulator}
    (hfound : multi.simulators[call.target]? = some simulator)
    (hsame : call.simCall.after hash simulator = simulator) :
    OrdersFollow multi (stateAfter (call.run hash multi)) := by
  refine ordersFollow_run hash fun other hother => ?_
  obtain rfl := Option.some.inj (hfound.symm.trans hother)
  rw [hsame]
  exact List.forall₂_same.2 fun order _ => ⟨rfl, id⟩

theorem addsOrder_run (hash : List UInt8 → Digest) {multi : MultiSimulator} {call : RunnerCall}
    {simulator : Simulator} {order : SimOrder}
    (hfound : multi.simulators[call.target]? = some simulator)
    (horders : (call.simCall.after hash simulator).orders = simulator.orders ++ [order]) :
    AddsOrder multi (stateAfter (call.run hash multi)) call.target order := by
  intro instrument other hother
  rw [simulators_run]
  by_cases htarget : instrument = call.target
  · subst htarget
    obtain rfl := Option.some.inj (hfound.symm.trans hother)
    rw [if_pos rfl, if_pos rfl, hother]
    exact ⟨_, rfl, horders⟩
  · rw [if_neg htarget, if_neg htarget, List.append_nil]
    exact ⟨other, hother, rfl⟩

/-- A call is accepted exactly when it adds an order, which is then the one it was accepted as. -/
theorem run_cases (hash : List UInt8 → Digest) {multi : MultiSimulator} (h : AllTracked multi)
    (info : Option EventInfo) (call : RunnerCall) :
    let entry := LogEntry.called info call multi (feedbackOf (call.run hash multi))
    (entry.acceptance = none ∧ OrdersFollow multi (stateAfter (call.run hash multi))) ∨
    ∃ acceptance order, entry.acceptance = some acceptance ∧ acceptance.Of hash order ∧
    order.submitted = order ∧
      acceptance.info = info ∧ acceptance.before = multi ∧
      call = .submit acceptance.strategyId acceptance.occurrence acceptance.trading
        acceptance.outputSequence acceptance.intent ∧
      AddsOrder multi (stateAfter (call.run hash multi)) acceptance.intent.instrument order := by
  intro entry
  cases call with
  | evaluate event occurrence trading =>
    exact .inl ⟨rfl, ordersFollow_of_not_submit hash h fun _ _ _ _ _ _ _ => nofun⟩
  | cancelSegmentEnd target segmentId =>
    exact .inl ⟨rfl, ordersFollow_of_not_submit hash h fun _ _ _ _ _ _ _ => nofun⟩
  | cancelEndOfRun target =>
    exact .inl ⟨rfl, ordersFollow_of_not_submit hash h fun _ _ _ _ _ _ _ => nofun⟩
  | submit strategyId occurrence trading outputSequence intent =>
    cases hfound : multi.simulators[intent.instrument]? with
    | none =>
      have hrun :
          RunnerCall.run hash (.submit strategyId occurrence trading outputSequence intent) multi =
          .ok [.rejected .instrumentOutsideUniverse] multi := by
        refine bind_of_ok ?_ _
        unfold MultiSimulator.submit MultiSimulator.onInstrument
        rw [hfound]
      refine .inl ⟨by simp only [entry, hrun]; rfl,
        ordersFollow_of_not_submit hash h fun simulator hsome => ?_⟩
      rw [RunnerCall.target, hfound] at hsome
      cases hsome
    | some simulator =>
      rcases submit_cases hash simulator strategyId occurrence trading outputSequence intent with
        ⟨reason, hsubmit⟩ | ⟨e, hsubmit⟩ | ⟨order, next, hsubmit, -, haccepts⟩
      · refine .inl ⟨?_, ordersFollow_of_unchanged hash hfound (congrArg stateAfter hsubmit)⟩
        simp only [entry, feedbackOf_submit hfound hsubmit]
        rfl
      · refine .inl ⟨?_, ordersFollow_of_unchanged hash hfound (congrArg stateAfter hsubmit)⟩
        simp only [entry, feedbackOf_submit hfound hsubmit]
        rfl
      · have hsubmitted : order.submitted = order := by
          rw [SimOrder.submitted, ← haccepts.unfilled, ← haccepts.pending]
        refine .inr
          ⟨⟨info, strategyId, occurrence, trading, outputSequence, intent, multi, order.id⟩, order,
            ?_,
          ⟨⟨simulator, hfound, hsubmitted.symm ▸ haccepts⟩, rfl⟩, hsubmitted, rfl, rfl, rfl,
          addsOrder_run hash hfound (congrArg (fun result => (stateAfter result).orders) hsubmit)⟩
        simp only [entry, feedbackOf_submit hfound hsubmit]
        rfl

theorem acceptancesFor_append (instrument : InstrumentId) (log : List LogEntry) (entry : LogEntry) :
    acceptancesFor instrument (log ++ [entry]) = acceptancesFor instrument log ++
      entry.acceptance.toList.filter fun acceptance =>
        acceptance.intent.instrument = instrument := by
  unfold acceptancesFor acceptances
  cases hentry : entry.acceptance with
  | none => simp [hentry]
  | some acceptance => simp [hentry, List.filter_singleton]

theorem forall₂_of_follows {R S : SimOrder → Acceptance → Prop} {orders next : List SimOrder}
    {accepted : List Acceptance}
    (h : List.Forall₂ R orders accepted) (hfollows : List.Forall₂ SimOrder.Follows orders next)
    (hstep : ∀ {before after acceptance}, R before acceptance → before.Follows after →
      S after acceptance) :
    List.Forall₂ S next accepted := by
  induction h generalizing next with
  | nil =>
    cases hfollows
    exact .nil
  | cons hhead _ ih =>
    cases hfollows with
    | cons hfirst hrest => exact .cons (hstep hhead hfirst) (ih hrest)

/-- The orders of every simulator are the acceptances of the log, one for one and in order. -/
structure Logged (hash : List UInt8 → Digest) (view : RunView) : Prop where
  tracked : AllTracked view.simulator
  orders : ∀ (instrument : InstrumentId) simulator,
      view.simulator.simulators[instrument]? = some simulator →
    List.Forall₂ (fun order acceptance => acceptance.Of hash order) simulator.orders
      (acceptancesFor instrument view.log)

theorem Acceptance.Of.follows {hash : List UInt8 → Digest} {before after : SimOrder}
    {acceptance : Acceptance}
    (h : acceptance.Of hash before) (hfollows : before.Follows after) : acceptance.Of hash after :=
  ⟨hfollows.1 ▸ h.accepts, (SimOrder.eq_of_submitted hfollows.1).1.trans h.orderId⟩

variable {σ : Type} {setup : MultiSetup σ} {hash : List UInt8 → Digest} {view : RunView}

theorem Logged.turn (h : Logged hash view) (info : EventInfo) : Logged hash (view.turn info) := by
  refine ⟨h.tracked, fun instrument simulator hfound => ?_⟩
  simp only [RunView.turn, acceptancesFor_append, LogEntry.acceptance, Option.toList_none,
    List.filter_nil, List.append_nil]
  exact h.orders instrument simulator hfound

theorem Logged.call (h : Logged hash view) (info : Option EventInfo) (call : RunnerCall) :
    Logged hash (view.call hash info call) := by
  refine ⟨h.tracked.run hash call, fun instrument after hafter => ?_⟩
  -- a simulator that is there after the call was there before
  obtain ⟨simulator, hfound⟩ : ∃ simulator,
      view.simulator.simulators[instrument]? = some simulator := by
    simp only [RunView.call, simulators_run] at hafter
    split_ifs at hafter with htarget
    · obtain ⟨simulator, hfound, -⟩ := Option.map_eq_some_iff.1 hafter
      exact ⟨simulator, hfound⟩
    · exact ⟨after, hafter⟩
  simp only [RunView.call, acceptancesFor_append]
  rcases run_cases hash h.tracked info call with
    ⟨hnone, hfollow⟩ | ⟨acceptance, order, hsome, hof, -, -, -, -, hadds⟩
  · obtain ⟨next, hnext, hforall⟩ := hfollow instrument simulator hfound
    obtain rfl := Option.some.inj (hafter.symm.trans hnext)
    rw [hnone, Option.toList_none, List.filter_nil, List.append_nil]
    exact forall₂_of_follows (h.orders instrument simulator hfound) hforall fun hof hfollows =>
      hof.follows hfollows
  · obtain ⟨next, hnext, horders⟩ := hadds instrument simulator hfound
    obtain rfl := Option.some.inj (hafter.symm.trans hnext)
    rw [hsome, horders]
    by_cases htarget : instrument = acceptance.intent.instrument
    · subst htarget
      simp only [if_pos, Option.toList_some, List.filter_singleton, decide_true, cond_true]
      exact List.rel_append (h.orders _ simulator hfound) (.cons hof .nil)
    · have hother : ¬ acceptance.intent.instrument = instrument := fun heq => htarget heq.symm
      simp only [if_neg htarget, Option.toList_some, List.filter_singleton, hother, decide_false,
        cond_false, List.append_nil]
      exact h.orders instrument simulator hfound

/-- What turning to an event and every call keep, every step keeps. -/
theorem RunnerStep.keeps {P : RunView → Prop} (hturn : ∀ view info, P view → P (view.turn info))
    (hcall : ∀ view info call, P view → P (view.call setup.hash info call)) {after : RunView}
    (hstep : RunnerStep setup view after) (h : P view) : P after := by
  cases hstep with
  | begins info _ =>
    unfold RunView.begin
    split
    · exact hturn view info h
    · split_ifs
      · exact hturn view info h
      · exact hcall _ _ _ (hturn view info h)
  | submits info state outputSequence intent _ => exact hcall _ _ _ h
  | evaluates info _ => exact hcall _ _ _ h
  | endsSegment instrument segmentId => exact hcall _ _ _ h
  | endsRun instrument => exact hcall _ _ _ h

theorem Reaches.keeps {P : RunView → Prop} (hturn : ∀ view info, P view → P (view.turn info))
    (hcall : ∀ view info call, P view → P (view.call setup.hash info call)) {after : RunView}
    (hreaches : Reaches setup view after) (h : P view) : P after := by
  induction hreaches with
  | refl => exact h
  | tail _ hstep ih => exact hstep.keeps hturn hcall ih

theorem Reaches.logged {configs : List SimulatorConfig} {multi : MultiSimulator}
    (hnew : MultiSimulator.new configs = .ok multi)
    (h : Reaches setup ⟨multi, ∅, []⟩ view) : Logged setup.hash view := by
  refine h.keeps (fun _ info h => h.turn info) (fun _ info call h => h.call info call)
    ⟨allTracked_new hnew, ?_⟩
  intro instrument simulator hfound
  obtain ⟨instruments, unit, model, pricePolicy, rfl⟩ := simulators_new hnew hfound
  exact .nil

end Acceptances

end Osmium
