import Osmium.Lib.Hoare
import Osmium.Sanity.Streams
import Osmium.Spec.StrategyRun

/-! What a strategy is told and what it answers. A run calls it once before the events, once for
each committed event and once after them; the records of a run are those of the answers. -/

namespace Osmium
open Machine Bytes Result Stateful

/-- What a failure is put down to. -/
abbrev StrategyRunFault := StrategyRunErrorCategory × StrategyRunMessage

section Answers
variable (hash : List UInt8 → Digest) {σ : Type} (strategy : Strategy σ) (panics : StrategyPanics σ)
  (segment : SessionSegment)

/-- The events in order, and the strategy as it is initialized. -/
def begins (core : ReplayCore) (initial : σ) (events : List DomainEvent) :
    Except StrategyRunFault (List DomainEvent × σ) := do
  let declaration := strategy.declaration initial
  (validateDeclaration core segment declaration).mapError fun message => (.declaration, message)
  let ordered ← (orderEvents hash events).mapError fun error => (.replay, .ordering error)
  let initialized ← invokeStrategy .initialization (panics.onInitialize declaration initial)
    (strategy.onInitialize declaration initial)
  return (ordered, initialized)

/-- The records of what the strategy emits at a committed event, and its next state. -/
def answerTo (core : ReplayCore) (event : DomainEvent) (occurrence : EventOccurrence)
    (state : MarketState) (s : σ) :
    Except StrategyRunFault (List StrategyOutputRecord × σ) := do
  let trading ← (MarketTradingContextEvaluator.evaluate event occurrence state segment).mapError
    fun error => (.context, .context error)
  let context : StrategyEventContext :=
    ⟨occurrence, event, state, core.states, trading, event.matchTime⟩
  let answer ← invokeStrategy .callback (panics.onEvent context s) (strategy.onEvent context .new s)
  let records ← (answer.1.intoEventRecords occurrence).mapError fun error =>
      (.outputEncoding, .output error)
  return (records, answer.2)

/-- The records of what the strategy emits at the end, and its last state. -/
def answerAtEnd (core : ReplayCore) (s : σ) :
    Except StrategyRunFault (List StrategyOutputRecord × σ) := do
  let context : StrategyFinalizeContext := ⟨core.clock, core.states.values⟩
  let answer ← invokeStrategy .finalize (panics.onFinalize context s)
      (strategy.onFinalize context .new s)
  let records ← answer.1.intoFinalizeRecords.mapError fun error => (.outputEncoding, .output error)
  return (records, answer.2)

/-- The core commits events one by one, and the strategy answers each of them with records. -/
inductive Tells : ReplayCore → σ → List DomainEvent → List (List StrategyOutputRecord) →
    ReplayCore → σ → Prop
  | nil (core : ReplayCore) (s : σ) : Tells core s [] [] core s
  | cons {core core₁ core₂ : ReplayCore} {s s₁ s₂ : σ} {event : DomainEvent}
      {rest : List DomainEvent}
      {commit : CoreCommit} {state : MarketState} {records : List StrategyOutputRecord}
      {blocks : List (List StrategyOutputRecord)}
      (commits : ReplayCore.applyOrdered hash event core = .ok commit core₁)
      (shows : core₁.states[event.instrument]? = some state)
      (answers : answerTo strategy panics segment core₁ event commit.occurrence state s =
        .ok (records, s₁))
      (later : Tells core₁ s₁ rest blocks core₂ s₂) :
      Tells core s (event :: rest) (records :: blocks) core₂ s₂

variable {hash strategy panics segment} {core core' : ReplayCore} {s s' : σ}
  {events : List DomainEvent}
  {blocks : List (List StrategyOutputRecord)}

theorem begins_ok {ordered : List DomainEvent}
    (h : begins hash strategy panics segment core s events = .ok (ordered, s')) :
    orderEvents hash events = .ok ordered := by
  simp only [begins, bind_eq_ok, mapError_eq_ok, pure_eq_ok, Prod.mk.injEq] at h
  obtain ⟨_, -, _, hordered, _, -, rfl, -⟩ := h
  exact hordered

/-- The told events are replayed. -/
theorem Tells.replayed (h : Tells hash strategy panics segment core s events blocks core' s') :
    ReplayCore.applyAll hash events core = .ok () core' ∧
      core'.clock.eventOrdinal.val = core.clock.eventOrdinal.val + events.length := by
  induction h with
  | nil => exact ⟨rfl, rfl⟩
  | cons commits _ _ _ ih =>
    obtain ⟨hreplayed, hordinal⟩ := ih
    have hnext := (ReplayCore.applyOrdered_ok commits).eventOrdinal
    refine ⟨(bind_ok _ _ _ _ _).2 ⟨_, _, commits, hreplayed⟩, ?_⟩
    rw [hordinal, hnext, List.length_cons, add_assoc, add_comm 1]

theorem answerTo_ok {event : DomainEvent} {occurrence : EventOccurrence} {state : MarketState}
    {records : List StrategyOutputRecord}
    (h : answerTo strategy panics segment core event occurrence state s = .ok (records, s')) :
    ∃ sink : StrategyOutputSink, sink.intoEventRecords occurrence = .ok records := by
  simp only [answerTo, bind_eq_ok, mapError_eq_ok, pure_eq_ok, Prod.mk.injEq] at h
  obtain ⟨_, -, answer, -, _, hrecords, rfl, -⟩ := h
  exact ⟨answer.1, hrecords⟩

theorem answerAtEnd_ok {records : List StrategyOutputRecord}
    (h : answerAtEnd strategy panics core s = .ok (records, s')) :
    ∃ sink : StrategyOutputSink, sink.intoFinalizeRecords = .ok records := by
  simp only [answerAtEnd, bind_eq_ok, mapError_eq_ok, pure_eq_ok, Prod.mk.injEq] at h
  obtain ⟨answer, -, _, hrecords, rfl, -⟩ := h
  exact ⟨answer.1, hrecords⟩

end Answers

namespace StrategyRunState
variable {hash : List UInt8 → Digest} {σ : Type} {strategy : Strategy σ} {panics : StrategyPanics σ}
  {segment : SessionSegment} {event : DomainEvent} {events : List DomainEvent}
  {s s' : StrategyRunState σ}

section Steps

theorem orFail_bind {α β : Type} {occurrence : Option EventOccurrence}
    {x : Except StrategyRunFault α} {a : α}
    (h : x = .ok a) (f : α → Op σ β) : (orFail hash occurrence x >>= f) s = f a s := by
  subst h
  rfl

variable (hash strategy panics segment)

/-- Before the events. -/
theorem prepare_cases (events : List DomainEvent) :
    (∃ fault t, begins hash strategy panics segment s.core s.strategy events = .error fault ∧
      prepare hash strategy panics segment events s =
        .error (.failed (failure hash fault.1 fault.2 none s)) t) ∨
    ∃ ordered initialized, begins hash strategy panics segment s.core s.strategy events =
      .ok (ordered, initialized) ∧
      prepare hash strategy panics segment events s =
        .ok ordered { s with strategy := initialized } := by
  simp only [prepare, get_bind, begins]
  generalize strategy.declaration s.strategy = declaration
  cases validateDeclaration s.core segment declaration with
  | error message => exact .inl ⟨(.declaration, message), s, rfl, rfl⟩
  | ok _ =>
    cases orderEvents hash events with
    | error error => exact .inl ⟨(.replay, .ordering error), s, rfl, rfl⟩
    | ok ordered =>
      cases invokeStrategy .initialization (panics.onInitialize declaration s.strategy)
          (strategy.onInitialize declaration s.strategy) with
      | error fault => exact .inl ⟨fault, s, rfl, rfl⟩
      | ok initialized => exact .inr ⟨ordered, initialized, rfl, rfl⟩

/-- A callback keeps the records of its answer, or fails before any of them is kept. -/
theorem runCallback_cases {occurrence : EventOccurrence} {state : MarketState} {count : U64}
    (hstate : s.core.states[event.instrument]? = some state)
    (hcount : s.callbackCount.checkedAdd (Unsigned.wrap 64 1) = some count) :
    (∃ fault t, answerTo strategy panics segment s.core event occurrence state s.strategy =
      .error fault ∧
      runCallback hash strategy panics segment event occurrence s =
        .error (.failed (failure hash fault.1 fault.2 (some occurrence) s)) t) ∨
    ∃ records next, answerTo strategy panics segment s.core event occurrence state s.strategy =
      .ok (records, next) ∧
      runCallback hash strategy panics segment event occurrence s =
        .ok () { s with
          strategy := next, output := s.output.extend records, callbackCount := count } := by
  have hshown : okOr StrategyRunError.panicked s.core.states[event.instrument]? = .ok state :=
    (okOr_eq_ok _ _ _).2 hstate
  have hcounted : okOr StrategyRunError.panicked (s.callbackCount.checkedAdd (Unsigned.wrap 64 1)) =
      .ok count :=
    (okOr_eq_ok _ _ _).2 hcount
  simp only [runCallback, eventContext, answerTo, bind_assoc, get_bind]
  rw [lift_bind hshown]
  generalize Except.mapError _
    (MarketTradingContextEvaluator.evaluate event occurrence state segment) = evaluated
  cases evaluated with
  | error fault => exact .inl ⟨fault, s, rfl, rfl⟩
  | ok trading =>
    rw [orFail_bind rfl, ok_bind, pure_bind, get_bind]
    generalize (⟨occurrence, event, state, s.core.states, trading, event.matchTime⟩ :
      StrategyEventContext) = context
    cases invokeStrategy .callback (panics.onEvent context s.strategy)
      (strategy.onEvent context .new s.strategy) with
    | error fault => exact .inl ⟨fault, s, rfl, rfl⟩
    | ok answer =>
      rw [orFail_bind rfl, ok_bind, modify_bind]
      generalize Except.mapError _ (answer.1.intoEventRecords occurrence) = encoded
      cases encoded with
      | error fault => exact .inl ⟨fault, _, rfl, rfl⟩
      | ok records =>
        refine .inr ⟨records, answer.2, rfl, ?_⟩
        rw [orFail_bind rfl, modify_bind]
        exact (lift_bind hcounted _ _).trans rfl

/-- An event is refused, or it is committed and the strategy answers it, or it is committed and the
answer fails. -/
theorem onEvent_cases (event : DomainEvent)
    (hcount : s.callbackCount.val ≤ s.core.clock.eventOrdinal.val) :
    (∃ error t, ReplayCore.applyOrdered hash event s.core = .error error s.core ∧
      onEvent hash strategy panics segment event s =
        .error (.failed (failure hash .replay (.replay error) none s)) t) ∨
    ∃ commit core state, ReplayCore.applyOrdered hash event s.core = .ok commit core ∧
      core.states[event.instrument]? = some state ∧
      ((∃ fault t, answerTo strategy panics segment core event commit.occurrence state s.strategy =
        .error fault ∧
          onEvent hash strategy panics segment event s =
            .error
              (.failed (failure hash fault.1 fault.2 (some commit.occurrence)
                { s with core := core })) t) ∨
        ∃ records next count,
          answerTo strategy panics segment core event commit.occurrence state s.strategy =
            .ok (records, next) ∧ count.val = s.callbackCount.val + 1 ∧
          onEvent hash strategy panics segment event s = .ok ()
            { core := core, strategy := next, output := s.output.extend records,
              callbackCount := count }) := by
  simp only [onEvent, commitEvent, bind_assoc, get_bind]
  cases happly : ReplayCore.applyOrdered hash event s.core with
  | error error core =>
    obtain rfl : core = s.core := ReplayCore.atomic_applyOrdered hash event _ _ _ happly
    exact .inl ⟨error, s, rfl, rfl⟩
  | ok commit core =>
    have hadvances := ReplayCore.applyOrdered_ok happly
    obtain ⟨before, after, -, hstates, -⟩ := hadvances.state
    have hstate : core.states[event.instrument]? = some after := by
      rw [show core.states = _ from hstates, Std.ExtTreeMap.getElem?_insert_self]
    have hroom : s.callbackCount.val + 1 < 2 ^ 64 := by
      have hlt := commit.occurrence.runEventOrdinal.lt
      have hordinal := hadvances.ordinal
      omega
    have hnext : s.callbackCount.checkedAdd (Unsigned.wrap 64 1) =
        some ⟨s.callbackCount.val + 1, hroom⟩ :=
      (Unsigned.checkedAdd_eq_some _ _ _).2 (by rw [Unsigned.val_wrap (by norm_num)])
    refine .inr ⟨commit, core, after, rfl, hstate, ?_⟩
    rcases runCallback_cases hash strategy panics segment (s := { s with core := core })
      hstate hnext with
      ⟨fault, t, hanswer, hrun⟩ | ⟨records, next, hanswer, hrun⟩
    · exact .inl ⟨fault, t, hanswer, hrun⟩
    · exact .inr ⟨records, next, _, hanswer, rfl, hrun⟩

/-- The end. -/
theorem onFinalize_cases :
    (∃ fault t, answerAtEnd strategy panics s.core s.strategy = .error fault ∧
      onFinalize hash strategy panics s =
        .error (.failed (failure hash fault.1 fault.2 none s)) t) ∨
    ∃ records next, answerAtEnd strategy panics s.core s.strategy = .ok (records, next) ∧
      onFinalize hash strategy panics s =
        .ok () { s with strategy := next, output := s.output.extend records } := by
  simp only [onFinalize, answerAtEnd, get_bind]
  generalize (⟨s.core.clock, s.core.states.values⟩ : StrategyFinalizeContext) = context
  cases invokeStrategy .finalize (panics.onFinalize context s.strategy)
    (strategy.onFinalize context .new s.strategy) with
  | error fault => exact .inl ⟨fault, s, rfl, rfl⟩
  | ok answer =>
    rw [orFail_bind rfl, ok_bind, modify_bind]
    generalize Except.mapError _ answer.1.intoFinalizeRecords = encoded
    cases encoded with
    | error fault => exact .inl ⟨fault, _, rfl, rfl⟩
    | ok records => exact .inr ⟨records, answer.2, rfl, rfl⟩

end Steps

section Runs

/-- The events of a run that returns have been told, and the records of the answers are its output.
-/
theorem tells_each (h : each (onEvent hash strategy panics segment) events s = .ok () s')
    (hcount : s.callbackCount.val ≤ s.core.clock.eventOrdinal.val) :
    ∃ blocks,
      Tells hash strategy panics segment s.core s.strategy events blocks s'.core s'.strategy ∧
      s'.output = s.output.extend blocks.flatten ∧
      s'.callbackCount.val = s.callbackCount.val + events.length := by
  induction events generalizing s with
  | nil =>
    obtain ⟨-, rfl⟩ := (pure_ok _ _ _ _).1 h
    exact ⟨[], .nil _ _, by simp [StrategyOutput.extend], rfl⟩
  | cons event rest ih =>
    obtain ⟨_, between, hevent, hrest⟩ := (bind_ok _ _ _ _ _).1 h
    rcases onEvent_cases hash strategy panics segment event hcount with
      ⟨error, t, -, hrefused⟩ | ⟨commit, core, state, happly, hstate,
        ⟨fault, t, -, hfailed⟩ | ⟨records, next, count, hanswer, hnext, htold⟩⟩
    · rw [hrefused] at hevent
      cases hevent
    · rw [hfailed] at hevent
      cases hevent
    · rw [htold] at hevent
      cases hevent
      have hordinal := (ReplayCore.applyOrdered_ok happly).eventOrdinal
      obtain ⟨blocks, hlater, houtput, hcounts⟩ := ih hrest (by simp only; omega)
      refine ⟨records :: blocks, .cons happly hstate hanswer hlater, ?_, ?_⟩
      · rw [houtput]
        simp [StrategyOutput.extend]
      · rw [hcounts, List.length_cons]
        simp only [hnext]
        omega

end Runs

end StrategyRunState

end Osmium
