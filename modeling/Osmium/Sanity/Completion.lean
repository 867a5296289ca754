import Osmium.Lib.OrderedMap
import Osmium.Sanity.MultiRunner

/-! The instruments of a run of the subsequent-event runner: no step adds one to the simulators or
to the account, so that a completed run reports each instrument it started with and no other. -/

namespace Osmium
open Machine Bytes Codec Result Stateful

/-- The same instruments before and after. -/
structure SameInstruments {σ : Type} (before after : MultiRunState σ) : Prop where
  simulator : after.simulator.simulators.keys = before.simulator.simulators.keys
  ledger : after.ledger.ledgers.keys = before.ledger.ledgers.keys

instance {σ : Type} : Std.Refl (@SameInstruments σ) := ⟨fun _ => ⟨rfl, rfl⟩⟩

instance {σ : Type} : IsTrans (MultiRunState σ) SameInstruments :=
  ⟨fun _ _ _ h h' => ⟨h'.simulator.trans h.simulator, h'.ledger.trans h.ledger⟩⟩

theorem keys_run (hash : List UInt8 → Digest) (call : RunnerCall) (self : MultiSimulator) :
    (stateAfter (call.run hash self)).simulators.keys = self.simulators.keys := by
  refine OrderedMap.keys_congr fun instrument => ?_
  rw [Std.ExtTreeMap.mem_iff_isSome_getElem?, Std.ExtTreeMap.mem_iff_isSome_getElem?,
    simulators_run]
  split_ifs
  · rw [Option.isSome_map]
  · rfl

theorem keys_applyFill (instrument : InstrumentId) (fill : FillRecord) (self : MultiLedger) :
    (stateAfter (MultiLedger.applyFill instrument fill self)).ledgers.keys = self.ledgers.keys := by
  let R : MultiLedger → MultiLedger → Prop :=
    fun before after => after.ledgers.keys = before.ledgers.keys
  have : Std.Refl R := ⟨fun _ => rfl⟩
  refine Along.stateAfter (R := R) (F := fun _ => True) ?_
  refine Along.get_bind (Along.lift_bind (fun _ _ => trivial) fun entry hentry => ?_)
  refine Along.lift_bind (fun _ _ => trivial) fun _ _ =>
    Along.lift_bind (fun _ _ => trivial) fun _ _ => ?_
  refine Along.lift_bind (fun _ _ => trivial) fun next _ =>
    Along.lift_bind (fun _ _ => trivial) fun _ _ => ?_
  refine Along.lift_bind (fun _ _ => trivial) fun _ _ => .set (OrderedMap.keys_insert_of_mem ?_ _)
  rw [Std.ExtTreeMap.mem_iff_isSome_getElem?, (okOr_eq_ok _ _ _).1 hentry]
  rfl

namespace MultiRunState
variable {σ : Type} {setup : MultiSetup σ} {info : Option EventInfo} {self : MultiRunState σ}

/-- A run that keeps the instruments, however it ends. -/
abbrev Keeps {α : Type} (m : Op σ α) (self : MultiRunState σ) : Prop :=
  Along SameInstruments (fun _ => True) m self

theorem keeps_callSimulator (call : RunnerCall) :
    Keeps (callSimulator setup.hash info call) self := by
  unfold Keeps Along callSimulator
  have hkeys := keys_run setup.hash call self.simulator
  cases hrun : call.run setup.hash self.simulator with
  | ok feedback simulator =>
    rw [hrun] at hkeys
    exact ⟨hkeys, rfl⟩
  | error e simulator =>
    rw [hrun] at hkeys
    exact ⟨⟨hkeys, rfl⟩, trivial⟩

theorem keeps_submitIntents (occurrence : EventOccurrence) (trading : TradingContext)
    (intents : List OrderIntent) (index : ℕ) :
    Keeps (submitIntents setup info occurrence trading intents index) self := by
  induction intents generalizing self index with
  | nil => exact .pure _
  | cons intent rest ih =>
    refine Along.get_bind (Along.lift_bind (fun _ _ => trivial) fun outputSequence _ => ?_)
    refine Along.bind (keeps_callSimulator _) fun feedback _ _ => ?_
    exact Along.bind (ih (index + 1)) fun _ _ _ => .pure _

theorem keeps_extendOutput (sink : StrategyOutputSink) (occurrence : EventOccurrence) :
    Keeps (extendOutput sink occurrence) self :=
  Along.lift_bind (fun _ _ => trivial) fun _ _ => .modify ⟨rfl, rfl⟩

theorem keeps_processMultiFeedback (occurrence : EventOccurrence) (trading : TradingContext)
    (feedback : List OrderFeedback) (rejectIntents : Bool) :
    Keeps (processMultiFeedback setup info occurrence trading feedback rejectIntents) self := by
  refine Along.ite (fun _ => .pure _) fun _ => ?_
  refine Along.get_bind (Along.lift_bind (fun _ _ => trivial) fun answer _ => ?_)
  refine Along.bind (.set ⟨rfl, rfl⟩) fun _ _ _ =>
    Along.bind (keeps_extendOutput _ _) fun _ _ _ => ?_
  refine Along.lift_bind (fun _ _ => trivial) fun _ _ => ?_
  exact Along.bind (keeps_submitIntents _ _ _ _) fun _ _ _ => .pure _

theorem keeps_beginEvent (info : EventInfo) : Keeps (beginEvent setup info) self := by
  refine Along.get_bind (Along.bind (.set ⟨rfl, rfl⟩) fun _ _ _ => ?_)
  cases self.currentSegments[info.event.instrument]? with
  | none => exact .pure _
  | some previous =>
    refine Along.ite (fun _ => .pure _) fun _ => ?_
    exact Along.bind (keeps_callSimulator _) fun _ _ _ => keeps_processMultiFeedback _ _ _ _

theorem keeps_onEvent (info : EventInfo) (state : MarketState)
    (states : Std.ExtTreeMap InstrumentId MarketState) :
    Keeps (onEvent setup info state states) self := by
  refine Along.get_bind (Along.lift_bind (fun _ _ => trivial) fun answer _ => ?_)
  refine Along.bind (.set ⟨rfl, rfl⟩) fun _ _ _ =>
    Along.bind (keeps_extendOutput _ _) fun _ _ _ => ?_
  exact keeps_submitIntents _ _ _ _

theorem keeps_applyFills (instrument : InstrumentId) (fills : List FillRecord) :
    Keeps (applyFills instrument fills) self := by
  induction fills generalizing self with
  | nil => exact .pure _
  | cons fill rest ih =>
    refine Along.bind (.zoom (fun _ => trivial) fun ledger hledger => ⟨rfl, ?_⟩) fun _ _ _ => ih
    rw [hledger]
    exact keys_applyFill instrument fill self.ledger

theorem keeps_matchEvent (info : EventInfo) : Keeps (matchEvent setup info) self := by
  refine Along.get_bind (Along.bind (keeps_callSimulator _) fun _ _ _ => Along.get_bind ?_)
  refine Along.lift_bind (fun _ _ => trivial) fun fills _ => ?_
  exact Along.bind (keeps_applyFills _ _) fun _ _ _ => .pure _

theorem keeps_processMultiEvent (core : ReplayCore) (event : DomainEvent) (commit : CoreCommit) :
    Keeps (processMultiEvent setup core event commit) self := by
  refine Along.lift_bind (fun _ _ => trivial) fun found _ =>
    Along.bind (keeps_beginEvent _) fun _ _ _ => ?_
  refine Along.bind (keeps_onEvent _ _ _) fun _ _ _ =>
    Along.bind (keeps_matchEvent _) fun _ _ _ => ?_
  exact Along.bind (keeps_processMultiFeedback _ _ _ _) fun _ _ _ => .modify ⟨rfl, rfl⟩

theorem keeps_deliverCancellations (instrument : InstrumentId)
    (cancellations : List OrderFeedback) :
    Keeps (deliverCancellations setup instrument cancellations) self := by
  refine Along.ite (fun _ => .pure _) fun _ => Along.get_bind ?_
  exact Along.lift_bind (fun _ _ => trivial) fun _ _ => keeps_processMultiFeedback _ _ _ _

theorem keeps_endRun (instruments : List InstrumentId) : Keeps (endRun setup instruments) self := by
  have hsegments : ∀ (segments : List (InstrumentId × SessionSegmentId)) (self : MultiRunState σ),
      Keeps (endSegments setup segments) self := by
    intro segments
    induction segments with
    | nil => exact fun _ => .pure _
    | cons segment rest ih =>
      intro self
      refine Along.bind (keeps_callSimulator _) fun _ _ _ => ?_
      exact Along.bind (keeps_deliverCancellations _ _) fun _ s _ => ih s
  have hinstruments : ∀ (instruments : List InstrumentId) (self : MultiRunState σ),
      Keeps (endInstruments setup instruments) self := by
    intro instruments
    induction instruments with
    | nil => exact fun _ => .pure _
    | cons instrument rest ih =>
      intro self
      refine Along.bind (keeps_callSimulator _) fun _ _ _ => ?_
      exact Along.bind (keeps_deliverCancellations _ _) fun _ s _ => ih s
  exact Along.get_bind (Along.bind (hsegments _ _) fun _ s _ => hinstruments _ s)

end MultiRunState

theorem instruments_addPerformances {finalMarks : Std.ExtTreeMap InstrumentId (Option Decimal)}
    {entries : List (InstrumentId × InstrumentLedger)} {total after : MultiPerformanceSummary}
    (h : addPerformances finalMarks entries total = .ok after) :
    after.instruments.map InstrumentPerformance.instrument =
      total.instruments.map InstrumentPerformance.instrument ++ entries.map Prod.fst := by
  induction entries generalizing total with
  | nil =>
    obtain rfl := Except.ok.inj h
    simp
  | cons entry rest ih =>
    simp only [addPerformances, bind_eq_ok] at h
    obtain ⟨next, hnext, hrest⟩ := h
    rw [ih hrest]
    simp only [addPerformance, bind_eq_ok, pure_eq_ok] at hnext
    obtain ⟨_, -, _, -, _, -, _, -, _, -, _, -, _, -, rfl⟩ := hnext
    simp

/-- A completed run reports the instruments of its simulators. -/
theorem completed_instruments {σ : Type} {setup : MultiSetup σ} {inputs : MultiInputs σ}
    {completed : CompletedMultiBacktest} (h : runMultiBacktest setup inputs = .ok completed) :
    completed.performance.instruments.map InstrumentPerformance.instrument =
      completed.simulator.simulators.keys := by
  simp only [runMultiBacktest, bind_eq_ok, mapError_eq_ok] at h
  obtain ⟨start, hstart, ⟨⟨⟩, core, finish⟩, hloop, hfinish⟩ := h
  have hsame : SameInstruments start finish := by
    have hmeets :
        Meets (multiLoop setup inputs (inputs.core, start)) (fun _ s => SameInstruments start s.2)
        (fun _ s => SameInstruments start s.2) := by
      unfold multiLoop
      refine Meets.bind (Q := fun _ s => SameInstruments start s.2) (.zoom ?_)
        fun _ s hs => .zoom ?_
      · refine MultiRunState.meets_replay (fun _ hs => hs) (fun s core event commit hs => ?_)
          ⟨rfl, rfl⟩ _ _ _
        exact (Along.after hs (MultiRunState.keeps_processMultiEvent core event commit)).imp
          (fun _ _ h => h) fun _ _ h => h.1
      · exact (Along.after hs (MultiRunState.keeps_endRun _)).imp (fun _ _ h => h) fun _ _ h => h.1
    rw [(runOn_eq_ok _ _ _ _).1 hloop] at hmeets
    exact hmeets
  simp only [startMulti, checkMultiUniverse, bind_eq_ok, ensure_eq_ok, pure_eq_ok] at hstart
  obtain ⟨_, ⟨_, -, _, -, _, hsimulator, _, hledger, -⟩, strategy, -, rfl⟩ := hstart
  simp only [finishMulti, bind_eq_ok, mapError_eq_ok, pure_eq_ok] at hfinish
  obtain ⟨_, -, records, -, _, -, performance, hperformance, replay, -, rfl⟩ := hfinish
  simp only [MultiLedger.performance, bind_eq_ok] at hperformance
  obtain ⟨charges, -, hperformance⟩ := hperformance
  rw [instruments_addPerformances hperformance]
  calc [] ++ finish.ledger.ledgers.toList.map Prod.fst
      = finish.ledger.ledgers.keys := by rw [List.nil_append, Std.ExtTreeMap.map_fst_toList_eq_keys]
    _ = coreInstruments inputs.core := hsame.ledger.trans hledger
    _ = finish.simulator.simulators.keys := (hsame.simulator.trans hsimulator).symm

end Osmium
