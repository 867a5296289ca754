import Osmium.Proofs.Accounting
import Osmium.Proofs.Replay
import Osmium.Sanity.Codec
import Osmium.Sanity.MultiRunner
import Osmium.Sanity.Requests

/-! The subsequent-event runner over whole runs: which orders share an identity, which feedback
reaches the strategy, and how day orders keep to their windows. -/

namespace Osmium
open Machine Bytes Codec Result Stateful CanonicalParser

attribute [local irreducible] Bytes.ofUnsigned Bytes.ofSigned

section Example

/-- Nine in the morning in Taipei. -/
def openMicros (date : TradingDate) : ℤ := date.epochDays.val * 86400000000 + 3600000000

/-- Half past one. -/
def closeMicros (date : TradingDate) : ℤ := openMicros date + 16200000000

def regularWindow (date : TradingDate) : SessionKind × MatchTime × MatchTime :=
  (.regular, sampleTime (openMicros date), sampleTime (closeMicros date))

/-- The regular windows of two trading days, as an execution plan has them. -/
def twoDayPlan (instruments : List InstrumentId) : List PlanPartition :=
  instruments.flatMap fun instrument => [⟨instrument, firstDay, [regularWindow firstDay]⟩,
    ⟨instrument, secondDay, [regularWindow secondDay]⟩]

def dayContext (date : TradingDate) : ReducerContext :=
  ⟨date, segmentIdOf .regular, .resetObservableFields, Unsigned.wrap 16 1⟩

def dayWindow (date : TradingDate)
    (h : sampleTime (openMicros date - 300000000) < sampleTime (closeMicros date + 300000000)) :
    ReplayContextWindow :=
  ⟨sampleTime (openMicros date - 300000000), sampleTime (closeMicros date + 300000000),
    dayContext date, h⟩

def twoDayCore (instruments : List InstrumentId) : Except ReplayError ReplayCore :=
  ReplayCore.newMultiWithSchedules (instruments.map fun instrument => .new instrument firstDay)
    (instruments.map fun instrument => (instrument, sampleReducer))
    (instruments.map fun instrument => (instrument, dayContext firstDay))
    (instruments.map fun instrument => (instrument,
      [dayWindow firstDay (by decide +kernel), dayWindow secondDay (by decide +kernel)]))

def sampleStrategyIdentity : StrategyIdentity :=
  ⟨⟨[115], Eq.refl true⟩, ⟨[49], Eq.refl true⟩, ⟨⟨[98], Eq.refl true⟩, [0], by decide⟩, by decide⟩

def emitAll : List OrderIntent → StrategyOutputSink →
    Except StrategyExecutionError StrategyOutputSink
  | [], sink => .ok sink
  | intent :: rest, sink => do
    let sink ← (sink.emitOrderIntent intent).mapError fun _ => ⟨⟨[], by decide⟩, true⟩
    emitAll rest sink

/-- Emits given intents at events, and given intents as the answer to feedback as often as its state
says. -/
def scriptedStrategy (instruments : List InstrumentId) (atEvent : DomainEvent → List OrderIntent)
    (answer : List OrderIntent) : Strategy ℕ where
  identity _ := sampleStrategyIdentity
  canonicalParamsChecksum _ := sampleHash []
  declaration _ := ⟨instruments, [.regular]⟩
  onInitialize _ left := .ok left
  onEvent context sink left := (emitAll (atEvent context.event) sink).map fun sink => (sink, left)
  onFeedback _ sink left :=
    if left = 0 then .ok (sink, 0) else (emitAll answer sink).map fun sink => (sink, left - 1)
  onTimer _ sink left := .ok (sink, left)
  onFinalize _ sink left := .ok (sink, left)

def sampleFillModel : FillModel := ⟨.topOfBook, .displayed, Decimal.zero, 0, 0⟩

/-- A backtest of two days with new simulators and ledgers; every stream has the events of its
binding. -/
def sampleBacktest (instruments : List InstrumentId) (strategy : Strategy ℕ) (left : ℕ)
    (events : List DomainEvent) :
    Option (MultiSetup ℕ × MultiInputs ℕ) := do
  let core ← (twoDayCore instruments).toOption
  let schedule ← (schedule (twoDayPlan instruments)).toOption
  let simulator ← (MultiSimulator.new (instruments.map fun instrument =>
    ⟨instrument, .tradingUnit, sampleFillModel, .positiveOnly⟩)).toOption
  let ledger ← (MultiLedger.new exampleCash (instruments.map fun instrument =>
    { exampleConfig with instrument := instrument })).toOption
  return (⟨sampleHash, strategy, schedule, true⟩, {
    core := core
    strategy := left
    plan := ⟨(twoDayPlan instruments).map fun partition =>
      { sampleBinding 1 with
        instrument := partition.instrument, tradingDate := partition.tradingDate }⟩
    factory := fun binding => .ok ⟨events.filter fun event =>
      event.instrument = binding.instrument && event.tradingDate = binding.tradingDate, none⟩
    simulator := simulator
    ledger := ledger })

def sampleIntent (instrument : InstrumentId) : OrderIntent :=
  ⟨instrument, .buy, sampleLots 1 oneLot, .market⟩

/-- The state a backtest ends in, when its loops return. -/
def finalState (backtest : MultiSetup ℕ × MultiInputs ℕ) : Option (MultiRunState ℕ) := do
  let start ← (startMulti backtest.1 backtest.2).toOption
  match multiLoop backtest.1 backtest.2 (backtest.2.core, start) with
  | .ok () final => some final.2
  | .error _ _ => none

theorem sampleBacktest_eq_some {instruments : List InstrumentId} {strategy : Strategy ℕ} {left : ℕ}
    {events : List DomainEvent} {backtest : MultiSetup ℕ × MultiInputs ℕ}
    (h : sampleBacktest instruments strategy left events = some backtest) :
    backtest.1.hash = sampleHash ∧ backtest.1.strategy = strategy ∧
      schedule (twoDayPlan instruments) = .ok backtest.1.schedule ∧
      ∃ configs, MultiSimulator.new configs = .ok backtest.2.simulator := by
  simp only [sampleBacktest, Option.bind_eq_bind, Option.bind_eq_some_iff, toOption_eq_some,
    Option.pure_def, Option.some.injEq] at h
  obtain ⟨core, -, schedule, hschedule, simulator, hsimulator, ledger, -, rfl⟩ := h
  exact ⟨rfl, rfl, hschedule, _, hsimulator⟩

theorem exists_of_finalState (backtest : Option (MultiSetup ℕ × MultiInputs ℕ))
    {p : MultiRunState ℕ → Bool} (h : (backtest.bind finalState).any p = true) :
    ∃ setup inputs core final, backtest = some (setup, inputs) ∧
      MultiRunOf setup inputs (.ok () (core, final)) ∧ p final = true := by
  cases backtest with
  | none => cases h
  | some pair =>
    obtain ⟨setup, inputs⟩ := pair
    rw [Option.bind_some, finalState] at h
    cases hstart : startMulti setup inputs with
    | error e =>
      rw [hstart] at h
      cases h
    | ok start =>
      rw [hstart] at h
      simp only [Except.toOption, Option.bind_eq_bind, Option.bind_some] at h
      cases hloop : multiLoop setup inputs (inputs.core, start) with
      | error e whole =>
        rw [hloop] at h
        cases h
      | ok u whole =>
        rw [hloop] at h
        exact ⟨setup, inputs, whole.1, whole.2, rfl, ⟨start, hstart, hloop⟩, h⟩

end Example

section Identity

/-- Under one strategy identity the bytes of an order identity determine the event, the position and
the intent. -/
theorem orderIdentity_injective {strategyId : Text} {occurrence occurrence' : EventOccurrence}
    {sequence sequence' : U32} {intent intent' : OrderIntent} {x : List UInt8}
    (h : Simulator.orderIdentity strategyId occurrence sequence intent = .ok x)
    (h' : Simulator.orderIdentity strategyId occurrence' sequence' intent' = .ok x) :
    occurrence.eventFingerprint = occurrence'.eventFingerprint ∧
    occurrence.runEventOrdinal = occurrence'.runEventOrdinal ∧
      sequence = sequence' ∧ intent = intent' := by
  simp only [Simulator.orderIdentity, bind_eq_ok, pure_eq_ok, List.append_assoc] at h h'
  obtain ⟨canonical, hcanonical, rfl⟩ := h
  obtain ⟨canonical', hcanonical', heq⟩ := h'
  have heq := List.append_cancel_left (List.append_cancel_left heq)
  obtain ⟨hfingerprint, heq⟩ := List.append_inj heq (by
    rw [occurrence'.eventFingerprint.digest.size, occurrence.eventFingerprint.digest.size])
  obtain ⟨hordinal, heq⟩ := List.append_inj heq (by rw [length_ofUnsigned, length_ofUnsigned])
  obtain ⟨hsequence, heq⟩ := List.append_inj heq (by rw [length_ofUnsigned, length_ofUnsigned])
  subst heq
  refine ⟨?_, ?_, ?_, orderIntent_injective hcanonical hcanonical'⟩
  · exact EventFingerprint.ext (Digest.ext hfingerprint.symm)
  · rw [← toUnsigned_ofUnsigned 8 (by norm_num) occurrence.runEventOrdinal, ← hordinal,
      toUnsigned_ofUnsigned 8 (by norm_num)]
  · rw [← toUnsigned_ofUnsigned 4 (by norm_num) sequence, ← hsequence,
      toUnsigned_ofUnsigned 4 (by norm_num)]

/-- Two acceptances at one event, at one position of the output of their callbacks, of the same
intent. -/
def Acceptance.SameOrigin (a b : Acceptance) : Prop :=
  a.occurrence.eventFingerprint = b.occurrence.eventFingerprint ∧
    a.occurrence.runEventOrdinal = b.occurrence.runEventOrdinal ∧
    a.outputSequence = b.outputSequence ∧ a.intent = b.intent

/-- The bytes the identity of an acceptance was hashed from. -/
def Acceptance.identity (acceptance : Acceptance) : Except CanonicalEncodingError (List UInt8) :=
  Simulator.orderIdentity acceptance.strategyId acceptance.occurrence acceptance.outputSequence
    acceptance.intent

/-- Every acceptance of a log hashed its identity, under a strategy identity of the run. -/
def Identified {σ : Type} (setup : MultiSetup σ) (view : RunView) : Prop :=
  ∀ acceptance ∈ acceptances view.log,
    (∃ x, acceptance.identity = .ok x ∧ acceptance.orderId = ⟨setup.hash x⟩) ∧
    ∃ state, acceptance.strategyId = (setup.strategy.identity state).strategyId

theorem acceptances_append (log : List LogEntry) (entry : LogEntry) :
    acceptances (log ++ [entry]) = acceptances log ++ entry.acceptance.toList := by
  unfold acceptances
  cases hentry : entry.acceptance with
  | none => simp [hentry]
  | some acceptance => simp [hentry]

variable {σ : Type} {setup : MultiSetup σ} {view after : RunView}

theorem Identified.call (h : Identified setup view) (hlogged : Logged setup.hash view)
    (info : Option EventInfo)
    {call : RunnerCall} (hstrategy : ∀ strategyId occurrence trading outputSequence intent,
      call = .submit strategyId occurrence trading outputSequence intent →
      ∃ state, strategyId = (setup.strategy.identity state).strategyId) :
    Identified setup (view.call setup.hash info call) := by
  intro acceptance hmem
  simp only [RunView.call, acceptances_append] at hmem
  rcases List.mem_append.1 hmem with hmem | hmem
  · exact h acceptance hmem
  · rcases run_cases setup.hash hlogged.tracked info call with
      ⟨hnone, -⟩ | ⟨own, order, hsome, hof, hsubmitted, -, -, hcall, -⟩
    · rw [hnone] at hmem
      cases hmem
    · rw [hsome] at hmem
      obtain rfl := List.mem_singleton.1 hmem
      obtain ⟨simulator, -, haccepts⟩ := hof.accepts
      obtain ⟨x, hx, hid⟩ := haccepts.identity
      exact ⟨⟨x, hx, hof.orderId.symm.trans hid⟩, hstrategy _ _ _ _ _ hcall⟩

theorem Identified.turn (h : Identified setup view) (info : EventInfo) :
    Identified setup (view.turn info) := by
  intro acceptance hmem
  simp only [RunView.turn, acceptances_append, LogEntry.acceptance, Option.toList_none,
    List.append_nil] at hmem
  exact h acceptance hmem

theorem Reaches.identified {configs : List SimulatorConfig} {multi : MultiSimulator}
    (hnew : MultiSimulator.new configs = .ok multi) (h : Reaches setup ⟨multi, ∅, []⟩ view) :
    Identified setup view := by
  induction h with
  | refl => exact fun _ hmem => by cases hmem
  | @tail view after hreaches hstep ih =>
    have hlogged := Reaches.logged hnew hreaches
    cases hstep with
    | begins info _ =>
      unfold RunView.begin
      split
      · exact ih.turn info
      · split_ifs
        · exact ih.turn info
        · exact (ih.turn info).call (hlogged.turn info) _ fun _ _ _ _ _ => nofun
    | submits info state outputSequence intent _ =>
      refine ih.call hlogged _ fun strategyId _ _ _ _ hcall => ⟨state, ?_⟩
      cases hcall
      rfl
    | evaluates info _ => exact ih.call hlogged _ fun _ _ _ _ _ => nofun
    | endsSegment instrument segmentId => exact ih.call hlogged _ fun _ _ _ _ _ => nofun
    | endsRun instrument => exact ih.call hlogged _ fun _ _ _ _ _ => nofun

end Identity

/-- In every run, wherever it ends, and with an order identity that is collision free on the orders
of the run: the accepted orders have distinct identities exactly when no two of them were emitted at
one event, at the same position of the output of their callbacks, with the same intent. -/
theorem order_identities_distinct_iff {σ : Type} (setup : MultiSetup σ) (inputs : MultiInputs σ)
    (configs : List SimulatorConfig) (hnew : MultiSimulator.new configs = .ok inputs.simulator)
    (result : EStateM.Result MultiRunError (ReplayCore × MultiRunState σ) Unit)
    (hrun : MultiRunOf setup inputs result)
    (hstrategy : ∀ state state', (setup.strategy.identity state).strategyId =
      (setup.strategy.identity state').strategyId)
    (hhash : ∀ a ∈ acceptances (stateAfter result).2.log,
      ∀ b ∈ acceptances (stateAfter result).2.log, ∀ x y,
      a.identity = .ok x → b.identity = .ok y → setup.hash x = setup.hash y → x = y) :
    let final := (stateAfter result).2
    (∀ (instrument : InstrumentId) simulator,
      final.simulator.simulators[instrument]? = some simulator →
      simulator.orders.map SimOrder.id =
        (acceptancesFor instrument final.log).map Acceptance.orderId) ∧
    ((acceptances final.log).Pairwise (fun a b => a.orderId ≠ b.orderId) ↔
      (acceptances final.log).Pairwise fun a b => ¬ a.SameOrigin b) := by
  intro final
  have hreaches := hrun.reaches
  refine ⟨fun instrument simulator hfound => ?_, ?_⟩
  · have horders := (Reaches.logged hnew hreaches).orders instrument simulator hfound
    rw [← List.forall₂_eq_eq_eq]
    exact List.forall₂_map_left_iff.2
      (List.forall₂_map_right_iff.2 (horders.imp fun _ _ hof => hof.orderId))
  · have hidentified := Reaches.identified hnew hreaches
    have hsame : ∀ a ∈ acceptances final.log, ∀ b ∈ acceptances final.log, a.orderId = b.orderId ↔
        a.SameOrigin b := by
      intro a ha b hb
      obtain ⟨⟨x, hx, hax⟩, state, hastrategy⟩ := hidentified a ha
      obtain ⟨⟨y, hy, hby⟩, state', hbstrategy⟩ := hidentified b hb
      have hid : a.strategyId = b.strategyId := by
        rw [hastrategy, hbstrategy, hstrategy state state']
      refine ⟨fun heq => ?_, fun horigin => ?_⟩
      · rw [hax, hby] at heq
        obtain rfl := hhash a ha b hb x y hx hy (congrArg OrderId.digest heq)
        unfold Acceptance.identity at hx hy
        rw [← hid] at hy
        exact orderIdentity_injective hx hy
      · have hbytes : a.identity = b.identity := by
          unfold Acceptance.identity Simulator.orderIdentity
          rw [hid, horigin.1, horigin.2.1, horigin.2.2.1, horigin.2.2.2]
        rw [hax, hby, Except.ok.inj (hx.symm.trans (hbytes.trans hy))]
    exact List.Pairwise.iff_of_mem fun ha hb => (hsame _ ha _ hb).not

/-- No two identities of the log collide. -/
def collisionFree (log : List LogEntry) : Bool :=
  (acceptances log).all fun a => (acceptances log).all fun b =>
    a.identity = b.identity || a.identity.map sampleHash ≠ b.identity.map sampleHash

theorem injective_of_collisionFree {log : List LogEntry} (h : collisionFree log = true) :
    ∀ a ∈ acceptances log,
    ∀ b ∈ acceptances log, ∀ x y, a.identity = .ok x → b.identity = .ok y →
    sampleHash x = sampleHash y → x = y := by
  intro a ha b hb x y hx hy heq
  simp only [collisionFree, List.all_eq_true, Bool.or_eq_true, decide_eq_true_eq] at h
  rcases h a ha b hb with hsame | hdiffer
  · exact Except.ok.inj (hx.symm.trans (hsame.trans hy))
  · rw [hx, hy] at hdiffer
    exact absurd (congrArg Except.ok heq) hdiffer

/-- Two orders of one event are at different positions, and their identities differ. -/
theorem two_orders_identified :
    ∃ (setup : MultiSetup ℕ) (inputs : MultiInputs ℕ) (core : ReplayCore)
    (final : MultiRunState ℕ), MultiRunOf setup inputs (.ok () (core, final)) ∧
    (acceptances final.log).length = 2 ∧
    (acceptances final.log).Pairwise fun a b => a.orderId ≠ b.orderId := by
  obtain ⟨setup, inputs, core, final, hbacktest, hrun, hfinal⟩ := exists_of_finalState
    (sampleBacktest [sampleInstrument] (scriptedStrategy [sampleInstrument]
      (fun _ => [sampleIntent sampleInstrument, sampleIntent sampleInstrument]) []) 0
      [sampleQuote sampleInstrument firstDay (openMicros firstDay + 1000000)])
    (p := fun final => (acceptances final.log).length = 2 && collisionFree final.log &&
      decide ((acceptances final.log).Pairwise fun (a b : Acceptance) =>
        a.outputSequence ≠ b.outputSequence)) (by decide +kernel)
  obtain ⟨hhash, hstrategy, -, configs, hnew⟩ := sampleBacktest_eq_some hbacktest
  simp only [Bool.and_eq_true, decide_eq_true_eq] at hfinal
  obtain ⟨⟨hlength, hfree⟩, hpositions⟩ := hfinal
  have h := order_identities_distinct_iff setup inputs configs hnew _ hrun
    (fun _ _ => by rw [hstrategy]; rfl)
    (hhash ▸ injective_of_collisionFree hfree)
  exact ⟨setup, inputs, core, final, hrun, hlength,
    h.2.2 (hpositions.imp fun hne horigin => hne horigin.2.2.1)⟩

/-- The same order from an event and, again, as the answer to its acceptance. -/
def repeatedOrder : Option (MultiSetup ℕ × MultiInputs ℕ) :=
  sampleBacktest [sampleInstrument]
    (scriptedStrategy [sampleInstrument] (fun _ => [sampleIntent sampleInstrument])
    [sampleIntent sampleInstrument]) 1
      [sampleQuote sampleInstrument firstDay (openMicros firstDay + 1000000)]

/-- Both orders are accepted under one identity: they were hashed from the same bytes. -/
theorem repeated_order_shares_identity :
    ∃ (setup : MultiSetup ℕ) (inputs : MultiInputs ℕ) (configs : List SimulatorConfig)
    (core : ReplayCore) (final : MultiRunState ℕ),
    MultiSimulator.new configs = .ok inputs.simulator ∧
    MultiRunOf setup inputs (.ok () (core, final)) ∧
    (∀ state state', (setup.strategy.identity state).strategyId =
      (setup.strategy.identity state').strategyId) ∧
    (∀ a ∈ acceptances final.log, ∀ b ∈ acceptances final.log, ∀ x y, a.identity = .ok x →
      b.identity = .ok y →
      setup.hash x = setup.hash y → x = y) ∧
    (acceptances final.log).length = 2 ∧ ¬ (acceptances final.log).Pairwise fun a b =>
      a.orderId ≠ b.orderId := by
  obtain ⟨setup, inputs, core, final, hbacktest, hrun, hfinal⟩ := exists_of_finalState repeatedOrder
    (p := fun final => (acceptances final.log).length = 2 && collisionFree final.log &&
      !decide ((acceptances final.log).Pairwise fun (a b : Acceptance) => a.orderId ≠ b.orderId))
        (by decide +kernel)
  obtain ⟨hhash, hstrategy, -, configs, hnew⟩ := sampleBacktest_eq_some hbacktest
  simp only [Bool.and_eq_true, decide_eq_true_eq, Bool.not_eq_true', decide_eq_false_iff_not]
    at hfinal
  obtain ⟨⟨hlength, hfree⟩, hshared⟩ := hfinal
  exact ⟨setup, inputs, configs, core, final, hnew, hrun, fun _ _ => by rw [hstrategy]; rfl,
    hhash ▸ injective_of_collisionFree hfree, hlength, hshared⟩

section Delivery
variable {σ : Type} {setup : MultiSetup σ} {self : MultiRunState σ}

/-- Everything the simulators answered, in order. -/
def produced (log : List LogEntry) : List OrderFeedback := log.flatMap fun entry =>
  match entry with
  | .began _ _ => []
  | .called _ _ _ feedback => feedback

/-- Everything `on_feedback` was told, in order. -/
def delivered (deliveries : List Delivery) : List OrderFeedback :=
  deliveries.flatMap Delivery.feedback

/-- Everything it answered. -/
def answered (deliveries : List Delivery) : List OrderIntent := deliveries.flatMap Delivery.intents

/-- What the processing of an event leaves alone: segments, contexts, and the events begun. -/
def place (self : MultiRunState σ) : Std.ExtTreeMap InstrumentId SessionSegmentId ×
    Std.ExtTreeMap InstrumentId (EventOccurrence × TradingContext) × List EventInfo :=
  (self.currentSegments, self.lastContexts, beginnings self.log)

/-- Feedback `pending` was produced and not delivered yet, and `unsent` answers were not submitted
yet. As long as nothing was answered the strategy was told everything else, in order. -/
structure Owes (base : MultiRunState σ) (pending : List OrderFeedback) (unsent : ℕ)
    (run : MultiRunState σ) : Prop where
  told : answered run.deliveries = [] → produced run.log = delivered run.deliveries ++ pending
  count : (produced run.log).length + unsent =
    (delivered run.deliveries).length + (answered run.deliveries).length + pending.length
  place : place run = place base

variable {base : MultiRunState σ} {pending : List OrderFeedback} {unsent : ℕ}

theorem owes_callSimulator (h : Owes base pending unsent self) (info : Option EventInfo)
    (call : RunnerCall) :
    Meets (MultiRunState.callSimulator setup.hash info call self)
      (fun feedback s => Owes base (pending ++ feedback) unsent s ∧ s.deliveries = self.deliveries ∧
        ∃ simulator, call.run setup.hash self.simulator = .ok feedback simulator)
          (fun _ _ => True) := by
  unfold MultiRunState.callSimulator
  cases hrun : call.run setup.hash self.simulator with
  | error e simulator => exact trivial
  | ok feedback simulator =>
    have hproduced : produced (self.log ++ [.called info call self.simulator feedback]) =
        produced self.log ++ feedback := by
      simp [produced]
    refine ⟨⟨fun hnone => ?_, ?_, ?_⟩, rfl, simulator, rfl⟩
    · rw [hproduced, h.told hnone, List.append_assoc]
    · rw [hproduced, List.length_append, List.length_append]
      have hcount := h.count
      simp only at hcount ⊢
      omega
    · rw [← h.place]
      simp [Osmium.place, beginnings, LogEntry.begun]

theorem length_submit {strategyId : Text} {occurrence : EventOccurrence} {trading : TradingContext}
    {outputSequence : U32}
    {intent : OrderIntent} {multi after : MultiSimulator} {feedback : List OrderFeedback}
    (h : RunnerCall.run setup.hash
      (.submit strategyId occurrence trading outputSequence intent) multi = .ok feedback after) :
    feedback.length = 1 := by
  obtain ⟨own, _, -, hpure⟩ := (bind_ok _ _ _ _ _).1 h
  obtain ⟨rfl, -⟩ := (pure_ok _ _ _ _).1 hpure
  rfl

theorem owes_submitIntents (h : Owes base pending unsent self) (info : Option EventInfo)
    (occurrence : EventOccurrence)
    (trading : TradingContext) (intents : List OrderIntent) (index : ℕ) :
    Meets (MultiRunState.submitIntents setup info occurrence trading intents index self)
      (fun feedback s => Owes base (pending ++ feedback) unsent s ∧ s.deliveries = self.deliveries ∧
        feedback.length = intents.length) (fun _ _ => True) := by
  induction intents generalizing self index pending with
  | nil =>
    refine ⟨?_, rfl, rfl⟩
    rw [List.append_nil]
    exact h
  | cons intent rest ih =>
    rw [MultiRunState.submitIntents, get_bind]
    refine Meets.bind (.lift (Q := fun _ s => s = self) (fun _ _ => rfl) fun _ _ => trivial)
      fun outputSequence s hs => ?_
    subst hs
    refine Meets.bind (owes_callSimulator h info _) fun feedback s' hs' => ?_
    obtain ⟨howes, hdeliveries, simulator, hrun⟩ := hs'
    refine Meets.bind (ih howes (index + 1)) fun others s'' hs'' =>
      ⟨?_, hs''.2.1.trans hdeliveries, ?_⟩
    · rw [← List.append_assoc]
      exact hs''.1
    · rw [List.length_append, length_submit hrun, hs''.2.2, List.length_cons, Nat.add_comm]

theorem owes_extendOutput (h : Owes base pending unsent self) (sink : StrategyOutputSink)
    (occurrence : EventOccurrence) :
    Meets (MultiRunState.extendOutput sink occurrence self)
      (fun _ s => Owes base pending unsent s ∧ s.deliveries = self.deliveries)
        (fun _ _ => True) := by
  refine Meets.bind (.lift (Q := fun _ s => s = self) (fun _ _ => rfl) fun _ _ => trivial)
    fun _ s hs => ?_
  subst hs
  exact ⟨⟨h.told, h.count, h.place⟩, rfl⟩

/-- Delivering what is pending settles it; the answers are submitted and their feedback is dropped.
-/
theorem owes_processMultiFeedback (h : Owes base pending 0 self) (info : Option EventInfo)
    (occurrence : EventOccurrence) (trading : TradingContext) (rejectIntents : Bool) :
    Meets
      (MultiRunState.processMultiFeedback setup info occurrence trading pending rejectIntents self)
      (fun _ => Owes base [] 0) (fun _ _ => True) := by
  unfold MultiRunState.processMultiFeedback
  by_cases hnone : pending = []
  · rw [if_pos hnone]
    exact hnone ▸ h
  rw [if_neg hnone, get_bind]
  refine Meets.bind (.lift (Q := fun _ s => s = self) (fun _ _ => rfl) fun _ _ => trivial)
    fun answer s hs => ?_
  subst hs
  have hdelivered : delivered (s.deliveries ++ [⟨pending, answer.1.intents⟩]) =
      delivered s.deliveries ++ pending := by
    simp [delivered]
  have hanswered : answered (s.deliveries ++ [⟨pending, answer.1.intents⟩]) =
      answered s.deliveries ++ answer.1.intents := by
    simp [answered]
  refine Meets.bind (Q := fun _ s' => Owes base [] answer.1.intents.length s' ∧
    s'.deliveries = s.deliveries ++ [⟨pending, answer.1.intents⟩])
      ⟨⟨fun hempty => ?_, ?_, h.place⟩, rfl⟩ fun _ s₁ hs₁ => ?_
  · simp only [hanswered, List.append_eq_nil_iff] at hempty
    simp only [hdelivered, List.append_nil]
    exact h.told hempty.1
  · have hcount := h.count
    simp only [hdelivered, hanswered, List.length_append, List.length_nil] at hcount ⊢
    omega
  refine Meets.bind (owes_extendOutput hs₁.1 _ _) fun _ s₂ hs₂ => ?_
  refine Meets.bind (.lift (Q := fun _ s' => s' = s₂) (fun _ _ => rfl) fun _ _ => trivial)
    fun _ s₃ hs₃ => ?_
  subst hs₃
  refine Meets.bind (owes_submitIntents hs₂.1 info occurrence trading answer.1.intents 0)
    fun feedback s₄ hs₄ => ?_
  obtain ⟨howes, hdeliveries, hlength⟩ := hs₄
  have hcount := howes.count
  rw [List.nil_append] at howes
  refine ⟨fun hempty => ?_, ?_, howes.place⟩
  · -- nothing was answered, so that nothing was dropped either
    have hintents : answer.1.intents = [] := by
      rw [hdeliveries, hs₂.2, hs₁.2, hanswered, List.append_eq_nil_iff] at hempty
      exact hempty.2
    rw [hintents] at hlength
    rw [← List.eq_nil_of_length_eq_zero hlength]
    exact howes.told hempty
  · simp only [List.nil_append, List.length_nil] at hcount ⊢
    omega

theorem owes_endSegment (h : Owes base [] 0 self) (info : EventInfo)
    (previous : Option SessionSegmentId) :
    Meets (MultiRunState.endSegment setup info previous self) (fun _ => Owes base [] 0)
      (fun _ _ => True) := by
  cases previous with
  | none => exact h
  | some previous =>
    rw [MultiRunState.endSegment]
    split_ifs
    · exact h
    · refine Meets.bind (owes_callSimulator h _ _) fun cancellations s hs => ?_
      exact owes_processMultiFeedback hs.1 _ _ _ false

/-- The place after an event was begun. -/
def begunPlace (base : MultiRunState σ) (info : EventInfo) : MultiRunState σ :=
  { base with
    currentSegments := base.currentSegments.insert info.event.instrument info.window.id
    log := base.log ++ [.began info base.simulator] }

theorem owes_beginEvent (h : Owes base [] 0 self) (info : EventInfo) :
    Meets (MultiRunState.beginEvent setup info self) (fun _ => Owes (begunPlace base info) [] 0)
      (fun _ _ => True) := by
  unfold MultiRunState.beginEvent
  rw [get_bind]
  obtain ⟨hsegments, hcontexts, hbegun⟩ : self.currentSegments = base.currentSegments ∧
      self.lastContexts = base.lastContexts ∧ beginnings self.log = beginnings base.log := by
    simpa [place] using h.place
  refine Meets.bind (Q := fun _ => Owes (begunPlace base info) [] 0) ⟨fun hnone => ?_, ?_, ?_⟩
    fun _ s hs => ?_
  · have htold := h.told hnone
    simpa [produced] using htold
  · have hcount := h.count
    simpa [produced] using hcount
  · have hbegun' := hbegun
    simp only [beginnings] at hbegun'
    simp [place, begunPlace, hsegments, hcontexts, beginnings, LogEntry.begun, hbegun']
  · exact owes_endSegment hs info _

theorem owes_onEvent (h : Owes base [] 0 self) (info : EventInfo) (state : MarketState)
    (states : Std.ExtTreeMap InstrumentId MarketState) :
    Meets (MultiRunState.onEvent setup info state states self)
      (fun feedback => Owes base feedback 0) (fun _ _ => True) := by
  unfold MultiRunState.onEvent
  rw [get_bind]
  refine Meets.bind (.lift (Q := fun _ s => s = self) (fun _ _ => rfl) fun _ _ => trivial)
    fun answer s hs => ?_
  subst hs
  refine Meets.bind (Q := fun _ => Owes base [] 0) ⟨h.told, h.count, h.place⟩ fun _ s hs => ?_
  refine Meets.bind (owes_extendOutput hs _ _) fun _ s hs => ?_
  refine (owes_submitIntents hs.1 _ _ _ answer.1.intents 0).imp (fun feedback s hs => ?_)
    fun _ _ h => h
  rw [List.nil_append] at hs
  exact hs.1

theorem owes_applyFills (h : Owes base pending 0 self) (instrument : InstrumentId)
    (fills : List FillRecord) :
    Meets (MultiRunState.applyFills instrument fills self) (fun _ => Owes base pending 0)
      (fun _ _ => True) := by
  induction fills generalizing self with
  | nil => exact h
  | cons fill rest ih =>
    rw [MultiRunState.applyFills]
    refine Meets.bind (Q := fun _ => Owes base pending 0) (.zoom ?_) fun _ s hs => ih hs
    cases MultiLedger.applyFill instrument fill self.ledger with
    | ok u ledger => exact ⟨h.told, h.count, h.place⟩
    | error e ledger => exact trivial

theorem owes_matchEvent (h : Owes base pending 0 self) (info : EventInfo) :
    Meets (MultiRunState.matchEvent setup info self)
      (fun feedback => Owes base (pending ++ feedback) 0) (fun _ _ => True) := by
  unfold MultiRunState.matchEvent
  rw [get_bind]
  refine Meets.bind (owes_callSimulator h _ _) fun feedback s hs => ?_
  rw [get_bind]
  refine Meets.bind
    (.lift (Q := fun _ => Owes base (pending ++ feedback) 0) (fun _ _ => hs.1) fun _ _ => trivial)
    fun fills s hs => ?_
  exact Meets.bind (owes_applyFills hs _ _) fun _ s hs => hs

/-- Between two events nothing is owed, and exactly the instruments that had an event have a
context. -/
structure Settled (run : MultiRunState σ) : Prop where
  owes : Owes run [] 0 run
  known : ∀ instrument, instrument ∈ run.currentSegments → instrument ∈ run.lastContexts
  heard : ∀ instrument, instrument ∈ run.lastContexts ↔
      ∃ info ∈ beginnings run.log, info.event.instrument = instrument

theorem settled_processMultiEvent (h : Settled self) (core : ReplayCore) (event : DomainEvent)
    (commit : CoreCommit) :
    Meets (MultiRunState.processMultiEvent setup core event commit self) (fun _ => Settled)
      (fun _ _ => True) := by
  unfold MultiRunState.processMultiEvent
  cases hinfo : MultiRunState.eventInfo setup core event commit.occurrence with
  | error e =>
    rw [lift_bind_error rfl]
    exact trivial
  | ok found =>
    obtain ⟨info, state⟩ := found
    rw [lift_bind rfl]
    obtain ⟨rfl, -⟩ := MultiRunState.eventInfo_ok hinfo
    refine Meets.bind (owes_beginEvent h.owes info) fun _ s hs => ?_
    refine Meets.bind (owes_onEvent hs info state core.states) fun submitted s hs => ?_
    refine Meets.bind (owes_matchEvent hs info) fun matched s hs => ?_
    refine Meets.bind (owes_processMultiFeedback hs _ _ _ false) fun _ s hs => ?_
    obtain ⟨hsegments, hcontexts, hbegun⟩ :
        s.currentSegments = (begunPlace self info).currentSegments ∧
        s.lastContexts = self.lastContexts ∧
        beginnings s.log = beginnings (begunPlace self info).log := by
      simpa [place, begunPlace] using hs.place
    have hbegun' : beginnings s.log = beginnings self.log ++ [info] := by
      rw [hbegun]
      simp [begunPlace, beginnings, LogEntry.begun]
    refine ⟨⟨hs.told, hs.count, rfl⟩, fun instrument hmem => ?_, fun instrument => ?_⟩
    · simp only [hsegments, begunPlace, Std.ExtTreeMap.mem_insert] at hmem
      simp only [hcontexts, Std.ExtTreeMap.mem_insert]
      exact hmem.imp id (h.known instrument)
    · simp only [hcontexts, Std.ExtTreeMap.mem_insert, hbegun', List.mem_append, List.mem_singleton,
        Std.LawfulEqCmp.compare_eq_iff_eq]
      rw [h.heard instrument]
      constructor
      · rintro (rfl | ⟨other, hother, rfl⟩)
        · exact ⟨info, .inr rfl, rfl⟩
        · exact ⟨other, .inl hother, rfl⟩
      · rintro ⟨other, hother | rfl, rfl⟩
        · exact .inr ⟨other, hother, rfl⟩
        · exact .inl rfl

/-- An instrument with an order that is still open. -/
def HasOpenOrder (multi : MultiSimulator) (instrument : InstrumentId) : Prop :=
  ∃ simulator order, multi.simulators[instrument]? = some simulator ∧ order ∈ simulator.orders ∧
  order.status.isOpen = true

/-- The errors a strategy can bring about after the last event. -/
def StrategyFailed (e : MultiBacktestError) : Prop :=
  (∃ fault, e = .strategy fault) ∨ e = .intentAfterEnd

theorem failed_processMultiFeedback (self : MultiRunState σ) (occurrence : EventOccurrence)
    (trading : TradingContext) (feedback : List OrderFeedback) :
    Meets (MultiRunState.processMultiFeedback setup none occurrence trading feedback true self)
      (fun _ s => s.simulator = self.simulator ∧ s.lastContexts = self.lastContexts)
        (fun e _ => StrategyFailed e) := by
  unfold MultiRunState.processMultiFeedback
  by_cases hnone : feedback = []
  · rw [if_pos hnone]
    exact ⟨rfl, rfl⟩
  rw [if_neg hnone, get_bind]
  refine Meets.bind (.lift (Q := fun _ s => s = self) (fun _ _ => rfl) fun e he => ?_)
    fun answer s hs => ?_
  · obtain ⟨error, -, rfl⟩ := (mapError_eq_error _ _ _).1 he
    exact .inl ⟨_, rfl⟩
  subst hs
  refine Meets.bind (Q := fun _ s' => s'.simulator = s.simulator ∧ s'.lastContexts = s.lastContexts)
    ⟨rfl, rfl⟩ fun _ s₁ hs₁ => ?_
  refine Meets.bind (Q := fun _ s' => s'.simulator = s.simulator ∧ s'.lastContexts = s.lastContexts)
    ?_ fun _ s₂ hs₂ => ?_
  · unfold MultiRunState.extendOutput
    refine Meets.bind (.lift (Q := fun _ s' => s' = s₁) (fun _ _ => rfl) fun e he => ?_)
      fun records s' hs' => ?_
    · obtain ⟨error, -, rfl⟩ := (mapError_eq_error _ _ _).1 he
      exact .inl ⟨_, rfl⟩
    · subst hs'
      exact hs₁
  refine Meets.bind (.lift (Q := fun _ s' => s' = s₂ ∧ answer.1.intents = [])
    (fun _ hempty => ⟨rfl, ?_⟩) fun e he => ?_)
    fun _ s₃ hs₃ => ?_
  · have hempty := (ensure_eq_ok _ _ _).1 hempty
    by_contra hne
    exact hempty ⟨rfl, hne⟩
  · obtain ⟨-, rfl⟩ := (ensure_eq_error _ _ _).1 he
    exact .inr rfl
  · obtain ⟨rfl, hempty⟩ := hs₃
    rw [hempty]
    exact hs₂

/-- Cancellations never fail, and reach one instrument only. -/
theorem run_cancelWhere (multi : MultiSimulator) (instrument : InstrumentId)
    (cancels : SimOrder → Bool) (reason : CancellationReason) : ∃ feedback after,
      MultiSimulator.onInstrument instrument [] (Simulator.cancelWhere cancels reason) multi =
        .ok feedback after ∧
      feedback = (multi.simulators[instrument]?.map fun simulator =>
        (simulator.orders.filter fun order => order.status.isOpen && cancels order).map fun order =>
          OrderFeedback.cancelled order.id reason).getD [] ∧
      ∀ other : InstrumentId, after.simulators[other]? = if other = instrument then
        multi.simulators[other]?.map fun simulator =>
          { simulator with orders := simulator.orders.map (Simulator.cancelOrder cancels) }
        else multi.simulators[other]? := by
  have hstate := fun other =>
    simulators_onInstrument multi instrument other [] (Simulator.cancelWhere cancels reason)
  have hrun : ∃ after, MultiSimulator.onInstrument instrument []
      (Simulator.cancelWhere cancels reason) multi =
      .ok ((multi.simulators[instrument]?.map fun simulator =>
        (simulator.orders.filter fun order => order.status.isOpen && cancels order).map fun order =>
          OrderFeedback.cancelled order.id reason).getD []) after := by
    unfold MultiSimulator.onInstrument
    cases multi.simulators[instrument]? with
    | none => exact ⟨multi, rfl⟩
    | some simulator => exact ⟨_, rfl⟩
  obtain ⟨after, hafter⟩ := hrun
  refine ⟨_, after, hafter, rfl, fun other => ?_⟩
  have hother := hstate other
  rw [hafter] at hother
  exact hother

theorem meets_cancelEndOfRun (self : MultiRunState σ) (instrument : InstrumentId) :
    Meets (MultiRunState.callSimulator setup.hash none (.cancelEndOfRun instrument) self)
      (fun feedback s => s.lastContexts = self.lastContexts ∧
        (feedback = [] ↔ ¬ HasOpenOrder self.simulator instrument) ∧
        ∀ other, HasOpenOrder s.simulator other ↔
        other ≠ instrument ∧ HasOpenOrder self.simulator other)
      (fun _ _ => False) := by
  obtain ⟨feedback, after, hrun, hfeedback, hafter⟩ :=
    run_cancelWhere self.simulator instrument (fun _ => true) .endOfRun
  have hcall : RunnerCall.run setup.hash (.cancelEndOfRun instrument) self.simulator =
      .ok feedback after := hrun
  unfold MultiRunState.callSimulator
  rw [hcall]
  refine ⟨rfl, ?_, fun other => ?_⟩
  · rw [hfeedback]
    cases hfound : self.simulator.simulators[instrument]? with
    | none => simp [HasOpenOrder, hfound]
    | some simulator => simp [HasOpenOrder, hfound]
  · by_cases hsame : other = instrument
    · subst hsame
      refine iff_of_false ?_ fun h => h.1 rfl
      rintro ⟨simulator, order, hfound, horder, hisOpen⟩
      rw [hafter, if_pos rfl] at hfound
      obtain ⟨before, -, rfl⟩ := Option.map_eq_some_iff.1 hfound
      obtain ⟨own, -, rfl⟩ := List.mem_map.1 horder
      unfold Simulator.cancelOrder at hisOpen
      rw [Bool.and_true] at hisOpen
      by_cases hown : own.status.isOpen = true
      · rw [if_pos hown] at hisOpen
        cases hisOpen
      · rw [if_neg hown] at hisOpen
        exact hown hisOpen
    · unfold HasOpenOrder
      rw [hafter, if_neg hsame]
      exact ⟨fun h => ⟨hsame, h⟩, fun h => h.2⟩

theorem meets_cancelSegmentEnd (self : MultiRunState σ) (instrument : InstrumentId)
    (segmentId : SessionSegmentId) :
    Meets
      (MultiRunState.callSimulator setup.hash none (.cancelSegmentEnd instrument segmentId) self)
      (fun _ s => s.lastContexts = self.lastContexts ∧
        ∀ other, other ≠ instrument → s.simulator.simulators[other]? =
          self.simulator.simulators[other]?) (fun _ _ => False) := by
  obtain ⟨feedback, after, hrun, -, hafter⟩ :=
    run_cancelWhere self.simulator instrument
      (fun order => order.originSegmentId = segmentId) .segmentEnd
  have hcall : RunnerCall.run setup.hash (.cancelSegmentEnd instrument segmentId) self.simulator =
      .ok feedback after := hrun
  unfold MultiRunState.callSimulator
  rw [hcall]
  refine ⟨rfl, fun other hother => ?_⟩
  rw [hafter, if_neg hother]

/-- Cancellations are delivered when the instrument has a context, and end the run otherwise. -/
theorem meets_deliverCancellations (self : MultiRunState σ) (instrument : InstrumentId)
    (cancellations : List OrderFeedback) :
    Meets (MultiRunState.deliverCancellations setup instrument cancellations self)
      (fun _ s => s.simulator = self.simulator ∧ s.lastContexts = self.lastContexts ∧
        (cancellations = [] ∨ instrument ∈ self.lastContexts))
      (fun e _ => StrategyFailed e ∨
        (e = .sequence ∧ cancellations ≠ [] ∧ instrument ∉ self.lastContexts)) := by
  unfold MultiRunState.deliverCancellations
  by_cases hnone : cancellations = []
  · rw [if_pos hnone]
    exact ⟨rfl, rfl, .inl hnone⟩
  rw [if_neg hnone, get_bind]
  refine Meets.bind (.lift (Q := fun _ s => s = self ∧ instrument ∈ self.lastContexts)
    (fun context hcontext => ⟨rfl, ?_⟩)
    fun e he => ?_) fun context s hs => ?_
  · rw [Std.ExtTreeMap.mem_iff_isSome_getElem?, (okOr_eq_ok _ _ _).1 hcontext]
    rfl
  · obtain ⟨habsent, rfl⟩ := (okOr_eq_error _ _ _).1 he
    refine .inr ⟨rfl, hnone, ?_⟩
    rw [Std.ExtTreeMap.mem_iff_isSome_getElem?, habsent]
    exact Bool.false_ne_true
  · obtain ⟨rfl, hknown⟩ := hs
    refine (failed_processMultiFeedback s context.1 context.2 cancellations).imp
      (fun _ s' hs' => ?_) fun _ _ hfailed => .inl hfailed
    exact ⟨hs'.1, hs'.2, .inr hknown⟩

theorem meets_endSegments (self : MultiRunState σ)
    (segments : List (InstrumentId × SessionSegmentId))
    (hknown : ∀ segment ∈ segments, segment.1 ∈ self.lastContexts) :
    Meets (MultiRunState.endSegments setup segments self)
      (fun _ s => s.lastContexts = self.lastContexts ∧
      ∀ instrument, instrument ∉ self.lastContexts →
        s.simulator.simulators[instrument]? = self.simulator.simulators[instrument]?)
          (fun e _ => StrategyFailed e) := by
  induction segments generalizing self with
  | nil => exact ⟨rfl, fun _ _ => rfl⟩
  | cons segment rest ih =>
    obtain ⟨hfirst, hrest⟩ := List.forall_mem_cons.1 hknown
    rw [MultiRunState.endSegments]
    refine Meets.bind
      ((meets_cancelSegmentEnd self segment.1 segment.2).imp (fun _ _ h => h) fun _ _ h => h.elim)
      fun cancellations s₁ hs₁ => ?_
    refine Meets.bind ((meets_deliverCancellations s₁ segment.1 cancellations).imp (fun _ _ h => h)
      fun e _ he => ?_)
      fun _ s₂ hs₂ => ?_
    · rcases he with hfailed | ⟨-, -, habsent⟩
      · exact hfailed
      · exact absurd (hs₁.1.symm ▸ hfirst) habsent
    · have hcontexts : s₂.lastContexts = self.lastContexts := hs₂.2.1.trans hs₁.1
      refine (ih s₂ fun other hother => hcontexts.symm ▸ hrest other hother).imp
        (fun _ s₃ hs₃ => ?_) fun _ _ h => h
      refine ⟨hs₃.1.trans hcontexts, fun instrument habsent => ?_⟩
      have hne : instrument ≠ segment.1 := fun heq => habsent (heq ▸ hfirst)
      rw [hs₃.2 instrument (hcontexts.symm ▸ habsent), hs₂.1, hs₁.2 instrument hne]

/-- An open order of an instrument without a context, among those still to be ended. -/
def Unheard (self : MultiRunState σ) (instruments : List InstrumentId) : Prop :=
  ∃ instrument ∈ instruments, instrument ∉ self.lastContexts ∧
  HasOpenOrder self.simulator instrument

theorem meets_endInstruments (self : MultiRunState σ) (instruments : List InstrumentId) :
    Meets (MultiRunState.endInstruments setup instruments self)
      (fun _ _ => ¬ Unheard self instruments)
      (fun e _ => StrategyFailed e ∨ (e = .sequence ∧ Unheard self instruments)) := by
  induction instruments generalizing self with
  | nil => exact fun ⟨_, hmem, _⟩ => by cases hmem
  | cons instrument rest ih =>
    rw [MultiRunState.endInstruments]
    refine Meets.bind
      ((meets_cancelEndOfRun self instrument).imp (fun _ _ h => h) fun _ _ h => h.elim)
      fun cancellations s₁ hs₁ => ?_
    obtain ⟨hcontexts₁, hempty, hothers⟩ := hs₁
    refine Meets.bind ((meets_deliverCancellations s₁ instrument cancellations).imp (fun _ _ h => h)
      fun e _ he => ?_)
      fun _ s₂ hs₂ => ?_
    · rcases he with hfailed | ⟨rfl, hne, habsent⟩
      · exact .inl hfailed
      · exact .inr ⟨rfl, instrument, List.mem_cons_self, hcontexts₁ ▸ habsent, not_not.1 fun hno =>
          hne (hempty.2 hno)⟩
    · obtain ⟨hsimulator, hcontexts₂, hheard⟩ := hs₂
      have hcontexts : s₂.lastContexts = self.lastContexts := hcontexts₂.trans hcontexts₁
      -- only the instrument just ended has other orders now, and it is heard of or has none open
      have hsame : Unheard s₂ rest ↔ Unheard self (instrument :: rest) := by
        unfold Unheard
        rw [hsimulator, hcontexts]
        constructor
        · rintro ⟨other, hmem, habsent, hopen⟩
          exact ⟨other, List.mem_cons_of_mem _ hmem, habsent, ((hothers other).1 hopen).2⟩
        · rintro ⟨other, hmem, habsent, hopen⟩
          rcases List.mem_cons.1 hmem with rfl | hmem
          · rcases hheard with hnone | hknown
            · exact absurd hopen (hempty.1 hnone)
            · exact absurd (hcontexts₁ ▸ hknown) habsent
          · by_cases heq : other = instrument
            · subst heq
              rcases hheard with hnone | hknown
              · exact absurd hopen (hempty.1 hnone)
              · exact absurd (hcontexts₁ ▸ hknown) habsent
            · exact ⟨other, hmem, habsent, (hothers other).2 ⟨heq, hopen⟩⟩
      rw [← hsame]
      exact ih s₂

theorem owes_endRun (h : Settled self) (instruments : List InstrumentId) :
    Meets (MultiRunState.endRun setup instruments self) (fun _ => Owes self [] 0)
      (fun _ _ => True) := by
  have hdeliver : ∀ s cancellations instrument, Owes self cancellations 0 s →
      Meets (MultiRunState.deliverCancellations setup instrument cancellations s)
        (fun _ => Owes self [] 0) (fun _ _ => True) := by
    intro s cancellations instrument hs
    unfold MultiRunState.deliverCancellations
    by_cases hnone : cancellations = []
    · rw [if_pos hnone]
      exact hnone ▸ hs
    rw [if_neg hnone, get_bind]
    refine Meets.bind (.lift (Q := fun _ => Owes self cancellations 0) (fun _ _ => hs) fun _ _ =>
      trivial) fun context s hs => ?_
    exact owes_processMultiFeedback hs none context.1 context.2 true
  have hsegments : ∀ segments s, Owes self [] 0 s →
      Meets (MultiRunState.endSegments setup segments s) (fun _ => Owes self [] 0)
        (fun _ _ => True) := by
    intro segments
    induction segments with
    | nil => exact fun s hs => hs
    | cons segment rest ih =>
      intro s hs
      rw [MultiRunState.endSegments]
      refine Meets.bind (owes_callSimulator hs _ _) fun cancellations s₁ hs₁ => ?_
      exact Meets.bind (hdeliver s₁ cancellations segment.1 hs₁.1) fun _ s₂ hs₂ => ih s₂ hs₂
  have hinstruments : ∀ s, Owes self [] 0 s →
      Meets (MultiRunState.endInstruments setup instruments s) (fun _ => Owes self [] 0)
        (fun _ _ => True) := by
    induction instruments with
    | nil => exact fun s hs => hs
    | cons instrument rest ih =>
      intro s hs
      rw [MultiRunState.endInstruments]
      refine Meets.bind (owes_callSimulator hs _ _) fun cancellations s₁ hs₁ => ?_
      exact Meets.bind (hdeliver s₁ cancellations instrument hs₁.1) fun _ s₂ hs₂ => ih s₂ hs₂
  unfold MultiRunState.endRun
  rw [get_bind]
  exact Meets.bind (hsegments _ self h.owes) fun _ s hs => hinstruments s hs

theorem meets_endRun (h : Settled self) (instruments : List InstrumentId) :
    Meets (MultiRunState.endRun setup instruments self) (fun _ _ => ¬ Unheard self instruments)
      (fun e _ => StrategyFailed e ∨ (e = .sequence ∧ Unheard self instruments)) := by
  unfold MultiRunState.endRun
  rw [get_bind]
  have hknown : ∀ segment ∈ self.currentSegments.toList, segment.1 ∈ self.lastContexts :=
    fun segment hmem =>
    h.known segment.1 (Std.ExtTreeMap.mem_iff_isSome_getElem?.2 (by
      rw [Std.ExtTreeMap.mem_toList_iff_getElem?_eq_some.1 hmem]
      rfl))
  refine Meets.bind ((meets_endSegments self _ hknown).imp (fun _ _ hs => hs) fun _ _ hfailed =>
    .inl hfailed) fun _ s hs => ?_
  have hsame : Unheard s instruments ↔ Unheard self instruments := by
    unfold Unheard HasOpenOrder
    rw [hs.1]
    refine exists_congr fun instrument => and_congr_right fun _ => and_congr_right fun habsent => ?_
    rw [hs.2 instrument habsent]
  rw [← hsame]
  exact meets_endInstruments s instruments

theorem settled_start {inputs : MultiInputs σ} {start : MultiRunState σ}
    (h : startMulti setup inputs = .ok start) :
    Settled start := by
  simp only [startMulti, bind_eq_ok, pure_eq_ok] at h
  obtain ⟨-, -, strategy, -, rfl⟩ := h
  refine ⟨⟨fun _ => rfl, rfl, rfl⟩, fun instrument hmem => absurd hmem Std.ExtTreeMap.not_mem_empty,
    fun instrument => ?_⟩
  refine iff_of_false Std.ExtTreeMap.not_mem_empty fun h => ?_
  obtain ⟨_, hmem, -⟩ := h
  cases hmem

theorem settled_replay {inputs : MultiInputs σ} {start final : MultiRunState σ} {core : ReplayCore}
    (hstart : startMulti setup inputs = .ok start)
    (hreplay : ReplayCore.replayFrozenMultiWith setup.hash inputs.plan inputs.factory
      (MultiRunState.processCommit setup)
      (inputs.core, start) = .ok () (core, final)) : Settled final := by
  have hmeets : Meets (ReplayCore.replayFrozenMultiWith setup.hash inputs.plan inputs.factory
      (MultiRunState.processCommit setup) (inputs.core, start)) (fun _ s => Settled s.2)
        (fun _ _ => True) :=
    MultiRunState.meets_replay (E := fun _ => True) (fun _ _ => trivial)
      (fun s core event commit hs => settled_processMultiEvent hs core event commit)
        (settled_start hstart) _ _ _
  rw [hreplay] at hmeets
  exact hmeets

theorem unheard_iff (h : Settled self) (instruments : List InstrumentId) :
    Unheard self instruments ↔
    ∃ instrument ∈ instruments, HasOpenOrder self.simulator instrument ∧
      ∀ info ∈ beginnings self.log, info.event.instrument ≠ instrument := by
  unfold Unheard
  refine exists_congr fun instrument => and_congr_right fun _ => ?_
  rw [h.heard instrument, and_comm]
  simp only [not_exists, not_and, ne_eq]

/-- The completion of a run whose loops returned fails in the strategy, the ledger or the replay
only. -/
theorem finishMulti_failed {core : ReplayCore} {e : MultiBacktestError}
    (h : finishMulti setup core self = .error e) :
    (∃ fault, e = .strategy fault) ∨ (∃ fault, e = .accounting fault) ∨
    ∃ fault, e = .replay fault := by
  simp only [finishMulti, bind_eq_error, mapError_eq_error, pure_eq_error] at h
  rcases h with
    ⟨_, -, rfl⟩ | ⟨_, -, ⟨_, -, rfl⟩ |
      ⟨_, -, ⟨_, -, rfl⟩ | ⟨_, -, ⟨_, -, rfl⟩ | ⟨_, -, ⟨_, -, rfl⟩ | ⟨_, -, ⟨⟩⟩⟩⟩⟩⟩
  · exact .inl ⟨_, rfl⟩
  · exact .inl ⟨_, rfl⟩
  · exact .inr (.inl ⟨_, rfl⟩)
  · exact .inr (.inl ⟨_, rfl⟩)
  · exact .inr (.inr ⟨_, rfl⟩)

/-- After the replay a run is its end and its completion. -/
theorem runMultiBacktest_of_replay {inputs : MultiInputs σ} {start final : MultiRunState σ}
    {core : ReplayCore} (hstart : startMulti setup inputs = .ok start)
    (hreplay : ReplayCore.replayFrozenMultiWith setup.hash inputs.plan inputs.factory
      (MultiRunState.processCommit setup)
      (inputs.core, start) = .ok () (core, final)) :
    runMultiBacktest setup inputs =
      match MultiRunState.endRun setup (coreInstruments inputs.core) final with
      | .ok () ended => (finishMulti setup core ended).mapError .failed
      | .error e _ => .error (.failed e) := by
  have hloop : multiLoop setup inputs (inputs.core, start) =
      zoom Prod.snd (fun (whole : ReplayCore × MultiRunState σ) state => (whole.1, state))
        MultiRunError.failed
        (MultiRunState.endRun setup (coreInstruments inputs.core)) (core, final) := by
    unfold multiLoop
    refine bind_of_ok (a := ()) ?_ _
    rw [zoom_ok]
    exact ⟨_, hreplay, rfl⟩
  unfold runMultiBacktest
  rw [hstart]
  simp only [Except.mapError, bind, Except.bind, runOn, hloop, zoom]
  cases MultiRunState.endRun setup (coreInstruments inputs.core) final with
  | ok u ended => rfl
  | error e ended => rfl

theorem Owes.perm_iff (h : Owes base [] 0 self) :
    ((delivered self.deliveries).Perm (produced self.log) ↔ answered self.deliveries = []) ∧
      (answered self.deliveries = [] → delivered self.deliveries = produced self.log) := by
  have hequal : answered self.deliveries = [] → delivered self.deliveries = produced self.log :=
    fun hnone => by
    rw [h.told hnone, List.append_nil]
  refine ⟨⟨fun hperm => ?_, fun hnone => hequal hnone ▸ .refl _⟩, hequal⟩
  have hcount := h.count
  have hlength := hperm.length_eq
  rw [List.length_nil] at hcount
  exact List.eq_nil_of_length_eq_zero (by omega)

end Delivery

/-- In every run whose replay returns: all feedback was delivered, and then in the order it was
produced, exactly when the strategy answered none with an intent, both after the last event and
after the run was ended; the run completes, or fails in a callback of the strategy, the ledger or
the completion of the replay, unless an instrument without any event has an order that is still
open, and then it never completes. -/
theorem feedback_delivery_iff {σ : Type} (setup : MultiSetup σ) (inputs : MultiInputs σ)
    (start : MultiRunState σ)
    (core : ReplayCore) (final : MultiRunState σ) (hstart : startMulti setup inputs = .ok start)
    (hreplay : ReplayCore.replayFrozenMultiWith setup.hash inputs.plan inputs.factory
      (MultiRunState.processCommit setup)
      (inputs.core, start) = .ok () (core, final)) :
    let unheard :=
      ∃ instrument ∈ coreInstruments inputs.core, HasOpenOrder final.simulator instrument ∧
      ∀ info ∈ beginnings final.log, info.event.instrument ≠ instrument
    ((delivered final.deliveries).Perm (produced final.log) ↔ answered final.deliveries = []) ∧
    (answered final.deliveries = [] → delivered final.deliveries = produced final.log) ∧
    (∀ ended, MultiRunState.endRun setup (coreInstruments inputs.core) final = .ok () ended →
      ((delivered ended.deliveries).Perm (produced ended.log) ↔ answered ended.deliveries = []) ∧
      (answered ended.deliveries = [] → delivered ended.deliveries = produced ended.log)) ∧
    (¬ unheard → (∃ completed, runMultiBacktest setup inputs = .ok completed) ∨
      ∃ e, runMultiBacktest setup inputs = .error (.failed e) ∧
      ((∃ fault, e = .strategy fault) ∨ e = .intentAfterEnd ∨
        (∃ fault, e = .accounting fault) ∨ ∃ fault, e = .replay fault)) ∧
    (unheard → ∀ completed, runMultiBacktest setup inputs ≠ .ok completed) := by
  intro unheard
  have hsettled := settled_replay hstart hreplay
  have hunheard : Unheard final (coreInstruments inputs.core) ↔ unheard := unheard_iff hsettled _
  have hend : Meets (MultiRunState.endRun setup (coreInstruments inputs.core) final) _ _ :=
    meets_endRun hsettled _
  have howes : Meets (MultiRunState.endRun setup (coreInstruments inputs.core) final) _ _ :=
    owes_endRun hsettled _
  refine ⟨hsettled.owes.perm_iff.1, hsettled.owes.perm_iff.2, fun ended hended => ?_, fun hheard =>
    ?_, fun hopen completed => ?_⟩
  · rw [hended] at howes
    exact howes.perm_iff
  · rw [runMultiBacktest_of_replay hstart hreplay]
    cases hresult : MultiRunState.endRun setup (coreInstruments inputs.core) final with
    | error e ended =>
      rw [hresult] at hend
      rcases hend with (hfailed | hfailed) | ⟨-, hopen⟩
      · exact .inr ⟨e, rfl, .inl hfailed⟩
      · exact .inr ⟨e, rfl, .inr (.inl hfailed)⟩
      · exact absurd (hunheard.1 hopen) hheard
    | ok u ended =>
      cases hfinish : finishMulti setup core ended with
      | ok completed => exact .inl ⟨completed, by simp only [hfinish]; rfl⟩
      | error e =>
        refine .inr ⟨e, by simp only [hfinish]; rfl, ?_⟩
        rcases finishMulti_failed hfinish with hfailed | hfailed | hfailed
        · exact .inl hfailed
        · exact .inr (.inr (.inl hfailed))
        · exact .inr (.inr (.inr hfailed))
  · rw [runMultiBacktest_of_replay hstart hreplay]
    cases hresult : MultiRunState.endRun setup (coreInstruments inputs.core) final with
    | error e ended => exact nofun
    | ok u ended =>
      rw [hresult] at hend
      exact absurd (hunheard.2 hopen) hend

theorem MultiRunOf.replayed {σ : Type} {setup : MultiSetup σ} {inputs : MultiInputs σ}
    {core : ReplayCore}
    {final : MultiRunState σ} (h : MultiRunOf setup inputs (.ok () (core, final))) :
    ∃ start replayed,
      startMulti setup inputs = .ok start ∧
      ReplayCore.replayFrozenMultiWith setup.hash inputs.plan inputs.factory
        (MultiRunState.processCommit setup)
        (inputs.core, start) = .ok () (core, replayed) ∧
      MultiRunState.endRun setup (coreInstruments inputs.core) replayed = .ok () final := by
  obtain ⟨start, hstart, hloop⟩ := h
  obtain ⟨_, whole, hreplay, hend⟩ := (bind_ok _ _ _ _ _).1 hloop
  obtain ⟨whole', hreplayed, rfl⟩ := (zoom_ok _ _ _ _ _ _ _).1 hreplay
  obtain ⟨ended, hended, heq⟩ := (zoom_ok _ _ _ _ _ _ _).1 hend
  obtain ⟨rfl, rfl⟩ := Prod.mk.inj heq
  exact ⟨start, whole'.2, hstart, hreplayed, hended⟩

/-- An order that nothing answers: its acceptance and its cancellation are delivered. -/
theorem unanswered_feedback_delivered :
    ∃ (setup : MultiSetup ℕ) (inputs : MultiInputs ℕ) (core : ReplayCore)
    (final : MultiRunState ℕ), MultiRunOf setup inputs (.ok () (core, final)) ∧
    (delivered final.deliveries).length = 2 ∧
    delivered final.deliveries = produced final.log := by
  obtain ⟨setup, inputs, core, final, -, hrun, hfinal⟩ := exists_of_finalState
    (sampleBacktest [sampleInstrument]
      (scriptedStrategy [sampleInstrument] (fun _ => [sampleIntent sampleInstrument]) []) 0
      [sampleQuote sampleInstrument firstDay (openMicros firstDay + 1000000)])
    (p := fun final => (delivered final.deliveries).length = 2 && answered final.deliveries = [])
      (by decide +kernel)
  simp only [Bool.and_eq_true, decide_eq_true_eq] at hfinal
  obtain ⟨start, replayed, hstart, hreplay, hend⟩ := hrun.replayed
  have h := feedback_delivery_iff setup inputs start core replayed hstart hreplay
  exact ⟨setup, inputs, core, final, hrun, hfinal.1, (h.2.2.1 final hend).2 hfinal.2⟩

def silentInstrument : InstrumentId := ⟨.twse, ⟨⟨[51], by decide⟩, rfl⟩⟩

/-- An order for an instrument that has no event at all. -/
def unheardOrder : Option (MultiSetup ℕ × MultiInputs ℕ) :=
  sampleBacktest [sampleInstrument, silentInstrument]
    (scriptedStrategy [sampleInstrument, silentInstrument]
    (fun _ => [sampleIntent silentInstrument]) []) 0
      [sampleQuote sampleInstrument firstDay (openMicros firstDay + 1000000)]

def endsInSequence (backtest : MultiSetup ℕ × MultiInputs ℕ) : Bool :=
  match runMultiBacktest backtest.1 backtest.2 with
  | .error (.failed .sequence) => true
  | _ => false

/-- The acceptance of an order that answers feedback is never delivered, in a run that completes;
and a run in which nothing fails, with an order for an instrument that has no event, ends in an
error. -/
theorem answer_lost_and_unheard_order_fails :
    (∃ setup inputs core final, repeatedOrder = some (setup, inputs) ∧
      MultiRunOf setup inputs (.ok () (core, final)) ∧
      ¬ (delivered final.deliveries).Perm (produced final.log)) ∧
    ∃ setup inputs, unheardOrder = some (setup, inputs) ∧
    runMultiBacktest setup inputs = .error (.failed .sequence) := by
  refine ⟨?_, ?_⟩
  · obtain ⟨setup, inputs, core, final, hbacktest, hrun, hfinal⟩ :=
      exists_of_finalState repeatedOrder
      (p := fun final => (delivered final.deliveries).length ≠ (produced final.log).length)
        (by decide +kernel)
    refine ⟨setup, inputs, core, final, hbacktest, hrun, fun hperm => ?_⟩
    exact of_decide_eq_true hfinal hperm.length_eq
  · have hfails : unheardOrder.any endsInSequence = true := by decide +kernel
    cases hbacktest : unheardOrder with
    | none =>
      rw [hbacktest] at hfails
      cases hfails
    | some backtest =>
      rw [hbacktest] at hfails
      refine ⟨backtest.1, backtest.2, rfl, ?_⟩
      change endsInSequence backtest = true at hfails
      unfold endsInSequence at hfails
      split at hfails
      · assumption
      · cases hfails

end Osmium
