import Osmium.Lib.Hoare
import Osmium.Proofs.Auction
import Osmium.Proofs.Output
import Osmium.Proofs.Replay
import Osmium.Sanity.StrategyRun

/-! What a strategy run reports. A completed run is the replay of its events, whatever the strategy
does, and a failed run reports just the events that were committed and the records that were kept.
-/

namespace Osmium
open Machine Bytes Result Stateful

namespace StrategyRunState
variable {hash : List UInt8 → Digest} {σ : Type} {strategy : Strategy σ} {panics : StrategyPanics σ}
  {segment : SessionSegment} {event : DomainEvent} {s s' : StrategyRunState σ}

theorem applyOrdered_fingerprint {commit : CoreCommit} {core core' : ReplayCore}
    (h : ReplayCore.applyOrdered hash event core = .ok commit core') :
    ∃ key, OrderingKey.forEvent hash event = .ok key ∧
      commit.occurrence.eventFingerprint = key.eventFingerprint := by
  obtain ⟨⟨key, canonical⟩, hkeyed, h⟩ := lift_bind_ok.1 h
  refine ⟨key, (bind_eq_ok _ _ _).2 ⟨(key, canonical), (mapError_eq_ok _ _ _).1 hkeyed, rfl⟩, ?_⟩
  simp only [ReplayCore.applyPreparedOrdered, get_bind] at h
  obtain ⟨checked, -, h⟩ := lift_bind_ok.1 h
  cases h
  rfl

/-- A failure with this fault that tells of just these events and of so many records. Where it names
an occurrence, it is that of the last event. -/
structure Reports (hash : List UInt8 → Digest) (core : ReplayCore) (processed : List DomainEvent)
    (outputs : ℕ) (fault : StrategyRunFault) (failure : FailedStrategyRun) : Prop where
  category : failure.category = fault.1
  message : failure.message = fault.2
  count : failure.processedEventCount.val = processed.length
  outputs : failure.committedOutputCount = outputs
  checksum : ∃ reached, ReplayCore.applyAll hash processed core = .ok () reached ∧
    failure.processedPrefixChecksum = reached.eventStream.checksum hash
  occurrence : ∀ occurrence ∈ failure.occurrence,
      occurrence.runEventOrdinal = failure.processedEventCount ∧
    ∃ event ∈ processed.getLast?, ∃ key, OrderingKey.forEvent hash event = .ok key ∧
      occurrence.eventFingerprint = key.eventFingerprint

/-- How a run ends without a result. The events before `rest` have been told, and what they were
answered with is kept. -/
inductive FailsWith (hash : List UInt8 → Digest) (strategy : Strategy σ) (panics : StrategyPanics σ)
    (segment : SessionSegment) (core : ReplayCore) (initial : σ) (events : List DomainEvent) :
    FailedStrategyRun → Prop
  | start {fault : StrategyRunFault} {failure : FailedStrategyRun}
      (fails : begins hash strategy panics segment core initial events = .error fault)
      (unnamed : failure.occurrence = none) (reports : Reports hash core [] 0 fault failure) :
      FailsWith hash strategy panics segment core initial events failure
  | refused {told rest : List DomainEvent} {event : DomainEvent} {initialized answered : σ}
      {reached : ReplayCore}
      {blocks : List (List StrategyOutputRecord)} {error : ReplayError}
      {failure : FailedStrategyRun}
      (starts : begins hash strategy panics segment core initial events =
        .ok (told ++ event :: rest, initialized))
      (tells : Tells hash strategy panics segment core initialized told blocks reached answered)
      (fails : ReplayCore.applyOrdered hash event reached = .error error reached)
      (unnamed : failure.occurrence = none)
      (reports : Reports hash core told blocks.flatten.length (.replay, .replay error) failure) :
      FailsWith hash strategy panics segment core initial events failure
  | callback {told rest : List DomainEvent} {event : DomainEvent} {initialized answered : σ}
      {reached next : ReplayCore} {blocks : List (List StrategyOutputRecord)} {commit : CoreCommit}
      {state : MarketState} {fault : StrategyRunFault} {failure : FailedStrategyRun}
      (starts : begins hash strategy panics segment core initial events =
        .ok (told ++ event :: rest, initialized))
      (tells : Tells hash strategy panics segment core initialized told blocks reached answered)
      (commits : ReplayCore.applyOrdered hash event reached = .ok commit next)
      (shows : next.states[event.instrument]? = some state)
      (fails : answerTo strategy panics segment next event commit.occurrence state answered =
        .error fault)
      (named : failure.occurrence = some (.from commit.occurrence))
      (reports : Reports hash core (told ++ [event]) blocks.flatten.length fault failure) :
      FailsWith hash strategy panics segment core initial events failure
  | finalize {ordered : List DomainEvent} {initialized answered : σ} {reached : ReplayCore}
      {blocks : List (List StrategyOutputRecord)} {fault : StrategyRunFault}
      {failure : FailedStrategyRun}
      (starts : begins hash strategy panics segment core initial events =
        .ok (ordered, initialized))
      (tells : Tells hash strategy panics segment core initialized ordered blocks reached answered)
      (fails : answerAtEnd strategy panics reached answered = .error fault)
      (unnamed : failure.occurrence = none)
      (reports : Reports hash core ordered blocks.flatten.length fault failure) :
      FailsWith hash strategy panics segment core initial events failure
  | complete {ordered : List DomainEvent} {initialized answered ended : σ} {reached : ReplayCore}
      {blocks : List (List StrategyOutputRecord)} {last : List StrategyOutputRecord}
      {error : ReplayError}
      {failure : FailedStrategyRun}
      (starts : begins hash strategy panics segment core initial events =
        .ok (ordered, initialized))
      (tells : Tells hash strategy panics segment core initialized ordered blocks reached answered)
      (ends : answerAtEnd strategy panics reached answered = .ok (last, ended))
      (fails : reached.complete hash = .error error) (unnamed : failure.occurrence = none)
      (reports : Reports hash core ordered (blocks.flatten ++ last).length
        (.replay, .replay error) failure) :
      FailsWith hash strategy panics segment core initial events failure

section Whole
variable {core : ReplayCore} {initial : σ} {events : List DomainEvent}

/-- A failure between two events. -/
theorem reports_between {told : List DomainEvent} {blocks : List (List StrategyOutputRecord)}
    {initialized : σ} (hstart : core.clock = .unstarted)
    (htells : Tells hash strategy panics segment core initialized told blocks s.core s.strategy)
    (fault : StrategyRunFault) :
    Reports hash core told s.output.records.length fault (failure hash fault.1 fault.2 none s) := by
  obtain ⟨hreplayed, hordinal⟩ := htells.replayed
  refine ⟨rfl, rfl, ?_, rfl, ⟨s.core, hreplayed, rfl⟩, fun occurrence hmem => by cases hmem⟩
  rw [hstart] at hordinal
  exact hordinal.trans (Nat.zero_add _)

/-- A failure at an event that the core has committed. -/
theorem reports_committed {told : List DomainEvent} {blocks : List (List StrategyOutputRecord)}
    {initialized : σ} {commit : CoreCommit} {next : ReplayCore} (hstart : core.clock = .unstarted)
    (htells : Tells hash strategy panics segment core initialized told blocks s.core s.strategy)
    (happly : ReplayCore.applyOrdered hash event s.core = .ok commit next)
    (fault : StrategyRunFault) :
    Reports hash core (told ++ [event]) s.output.records.length fault
      (failure hash fault.1 fault.2 (some commit.occurrence) { s with core := next }) := by
  obtain ⟨hreplayed, hordinal⟩ := htells.replayed
  have hadvances := ReplayCore.applyOrdered_ok happly
  have hclock : next.clock.eventOrdinal = commit.occurrence.runEventOrdinal := by
    rw [hadvances.clock]; rfl
  rw [hstart] at hordinal
  refine ⟨rfl, rfl, ?_, rfl, ⟨next, ReplayCore.applyAll_snoc hreplayed happly, rfl⟩,
    fun occurrence hmem => ?_⟩
  · change next.clock.eventOrdinal.val = _
    rw [hclock, hadvances.ordinal, hordinal, List.length_append, List.length_singleton]
    exact congrArg (· + 1) (Nat.zero_add _)
  · cases hmem
    obtain ⟨key, hkey, hfingerprint⟩ := applyOrdered_fingerprint happly
    exact ⟨hclock.symm, event, by simp, key, hkey, hfingerprint⟩

/-- A failure after the end, which counts the callbacks. -/
theorem reports_complete {told : List DomainEvent} {blocks : List (List StrategyOutputRecord)}
    {initialized : σ}
    (htells : Tells hash strategy panics segment core initialized told blocks s.core s.strategy)
    (hcount : s.callbackCount.val = told.length) (message : StrategyRunMessage)
    (last : List StrategyOutputRecord) (ended : σ) :
    Reports hash core told (s.output.records ++ last).length (.replay, message)
      { failure hash .replay message
        none { s with strategy := ended, output := s.output.extend last } with
        processedEventCount := s.callbackCount } :=
  ⟨rfl, rfl, hcount, rfl, ⟨s.core, htells.replayed.1, rfl⟩, fun occurrence hmem => by cases hmem⟩

/-- The stages of a completed run. -/
theorem runStrategy_ok {completed : CompletedStrategyRun}
    (h : runStrategy hash strategy panics core initial segment events = .ok completed) :
    ∃ ordered initialized blocks reached answered last ended,
      begins hash strategy panics segment core initial events = .ok (ordered, initialized) ∧
      Tells hash strategy panics segment core initialized ordered blocks reached answered ∧
      answerAtEnd strategy panics reached answered = .ok (last, ended) ∧
      reached.complete hash = .ok completed.replay ∧
      completed.strategyOutput.records = blocks.flatten ++ last ∧
      completed.callbackCount.val = ordered.length := by
  obtain ⟨⟨_, final⟩, hrun, rfl⟩ := (map_eq_ok _ _ _).1 h
  obtain ⟨ordered, prepared, hprepare, hrun⟩ := (bind_ok _ _ _ _ _).1 ((runOn_eq_ok _ _ _ _).1 hrun)
  obtain ⟨_, told, htold, hrun⟩ := (bind_ok _ _ _ _ _).1 hrun
  obtain ⟨_, ended, hfinal, hrun⟩ := (bind_ok _ _ _ _ _).1 hrun
  rcases prepare_cases hash strategy panics segment
    (s := startStrategyRun strategy core initial) events with
    ⟨fault, t, -, hfailed⟩ | ⟨ordered', initialized, hbegins, hprepared⟩
  · rw [hfailed] at hprepare
    cases hprepare
  rw [hprepared] at hprepare
  cases hprepare
  obtain ⟨blocks, htells, houtput, hcount⟩ := tells_each htold (Nat.zero_le _)
  rcases onFinalize_cases hash strategy panics (s := told) with
    ⟨fault, t, -, hfailed⟩ | ⟨last, next, hends, hfinished⟩
  · rw [hfailed] at hfinal
    cases hfinal
  rw [hfinished] at hfinal
  cases hfinal
  rw [complete, get_bind] at hrun
  cases hcomplete : told.core.complete hash with
  | error error =>
    rw [hcomplete] at hrun
    cases hrun
  | ok replay =>
    rw [hcomplete] at hrun
    cases hrun
    refine ⟨ordered, initialized, blocks, told.core, told.strategy, last, next, hbegins, htells,
      hends, hcomplete, ?_, ?_⟩
    · rw [houtput]
      exact congrArg (· ++ last) (List.nil_append _)
    · exact hcount.trans (Nat.zero_add _)

/-- The stages of a failed run. -/
theorem runStrategy_error {e : StrategyRunError} (hstart : core.clock = .unstarted)
    (h : runStrategy hash strategy panics core initial segment events = .error e) :
    ∃ failure, e = .failed failure ∧
    FailsWith hash strategy panics segment core initial events failure := by
  obtain ⟨final, hrun⟩ := runOn_eq_error.1 ((map_eq_error _ _ _).1 h)
  rcases prepare_cases hash strategy panics segment
    (s := startStrategyRun strategy core initial) events with
    ⟨fault, t, hbegins, hfailed⟩ | ⟨ordered, initialized, hbegins, hprepared⟩
  · rw [bind_of_error hfailed] at hrun
    cases hrun
    have hnone : Tells hash strategy panics segment core initial [] [] core initial :=
      .nil core initial
    have hreports :=
      reports_between (s := startStrategyRun strategy core initial) hstart hnone fault
    exact ⟨_, rfl, .start hbegins rfl hreports⟩
  rw [bind_of_ok hprepared] at hrun
  rcases (bind_error _ _ _ _ _).1 hrun with heach | ⟨_, told, heach, hrun⟩
  · obtain ⟨done, event, rest, before, rfl, hdone, hevent⟩ := each_error heach
    obtain ⟨blocks, htells, houtput, hcount⟩ := tells_each hdone (Nat.zero_le _)
    have hkept : before.output.records.length = blocks.flatten.length := by rw [houtput]; rfl
    have hfewer : before.callbackCount.val ≤ before.core.clock.eventOrdinal.val := by
      rw [hcount, htells.replayed.2]
      exact Nat.add_le_add_right (Nat.zero_le _) _
    rcases onEvent_cases hash strategy panics segment event hfewer with
      ⟨error, t, happly, hrefused⟩ |
        ⟨commit, next, state, happly, hstate,
          ⟨fault, t, hanswer, hfailed⟩ | ⟨_, _, _, _, _, hreturned⟩⟩
    · rw [hrefused] at hevent
      cases hevent
      have hreports := reports_between hstart htells (.replay, .replay error)
      exact ⟨_, rfl, .refused hbegins htells happly rfl (hkept ▸ hreports)⟩
    · rw [hfailed] at hevent
      cases hevent
      have hreports := reports_committed hstart htells happly fault
      exact ⟨_, rfl, .callback hbegins htells happly hstate hanswer rfl (hkept ▸ hreports)⟩
    · rw [hreturned] at hevent
      cases hevent
  obtain ⟨blocks, htells, houtput, hcount⟩ := tells_each heach (Nat.zero_le _)
  rcases onFinalize_cases hash strategy panics (s := told) with
    ⟨fault, t, hends, hfailed⟩ | ⟨last, ended, hends, hfinished⟩
  · rw [bind_of_error hfailed] at hrun
    cases hrun
    have hkept : told.output.records.length = blocks.flatten.length := by rw [houtput]; rfl
    have hreports := reports_between hstart htells fault
    exact ⟨_, rfl, .finalize hbegins htells hends rfl (hkept ▸ hreports)⟩
  rw [bind_of_ok hfinished, complete, get_bind] at hrun
  cases hcomplete : told.core.complete hash with
  | ok replay =>
    rw [hcomplete] at hrun
    cases hrun
  | error error =>
    rw [hcomplete] at hrun
    cases hrun
    have hkept : (told.output.records ++ last).length = (blocks.flatten ++ last).length := by
      rw [houtput]; rfl
    have hreports :=
      reports_complete htells (hcount.trans (Nat.zero_add _)) (.replay error) last ended
    exact ⟨_, rfl, .complete hbegins htells hends hcomplete rfl (hkept ▸ hreports)⟩

end Whole

end StrategyRunState

/-- A strategy run, however the strategy behaves. A completed run is the replay of the ordered
events, with a callback for each of them. A failed run tells of the events that were committed and
of the records that were kept before it failed, and the run itself never panics. -/
theorem strategy_run_outcome (hash : List UInt8 → Digest) {σ : Type} (strategy : Strategy σ)
    (panics : StrategyPanics σ)
    (core : ReplayCore) (initial : σ) (segment : SessionSegment) (events : List DomainEvent)
    (hstart : core.clock = .unstarted) :
    (∀ completed, runStrategy hash strategy panics core initial segment events = .ok completed →
      ∃ ordered final, orderEvents hash events = .ok ordered ∧
      ReplayCore.applyAll hash ordered core = .ok () final ∧
        final.complete hash = .ok completed.replay ∧ completed.callbackCount.val = ordered.length) ∧
    ∀ e, runStrategy hash strategy panics core initial segment events = .error e →
      ∃ failure, e = .failed failure ∧
        StrategyRunState.FailsWith hash strategy panics segment core initial events failure := by
  refine ⟨fun completed h => ?_, fun e h => StrategyRunState.runStrategy_error hstart h⟩
  obtain ⟨ordered, initialized, blocks, reached, answered, last, ended, hbegins, htells, -,
      hcomplete, -, hcallbacks⟩ :=
    StrategyRunState.runStrategy_ok h
  exact ⟨ordered, reached, begins_ok hbegins, htells.replayed.1, hcomplete, hcallbacks⟩

section Outputs

/-- What tells an output record from the others of its run. -/
inductive OutputPlace
  | event (runEventOrdinal : ℕ) (eventFingerprint : EventFingerprint) (outputSequence : ℕ)
  | control (controlSequence outputSequence : ℕ)
  | finalize (outputSequence : ℕ)
deriving DecidableEq

def StrategyOutputRecord.place : StrategyOutputRecord → OutputPlace
  | .eventIndicator runEventOrdinal eventFingerprint _ outputSequence _ _
  | .eventCashCharge runEventOrdinal eventFingerprint _ outputSequence _ _ _ =>
    .event runEventOrdinal.val eventFingerprint outputSequence.val
  | .controlIndicator controlSequence _ outputSequence _ _
  | .controlCashCharge controlSequence _ outputSequence _ _ _ =>
    .control controlSequence.val outputSequence.val
  | .finalizeIndicator outputSequence _ _ => .finalize outputSequence.val

namespace StrategyOutputSink
variable {indicator : U32 → Text → IndicatorValue → StrategyOutputRecord}
  {charge : U32 → CashChargeRequest → StrategyOutputRecord}
  {place : ℕ → OutputPlace} {records : List StrategyOutputRecord}

theorem indicatorRecords_places
    (hplace : ∀ sequence name value, (indicator sequence name value).place = place sequence.val)
    {pending : List (Text × IndicatorValue)} {index : ℕ}
    (h : indicatorRecords indicator pending index = .ok records) :
    records.map StrategyOutputRecord.place =
      (List.range' (index + 1) records.length).map place := by
  induction pending generalizing index records with
  | nil =>
    cases h
    rfl
  | cons entry rest ih =>
    obtain ⟨sequence, hsequence, h⟩ := (bind_eq_ok _ _ _).1 h
    obtain ⟨later, hlater, heq⟩ := (bind_eq_ok _ _ _).1 h
    obtain rfl := (pure_eq_ok _ _).1 heq
    rw [List.map_cons, ih hlater, hplace, outputSequence_ok.1 hsequence]
    rfl

theorem pushCharges_places
    (hplace : ∀ sequence request, (charge sequence request).place = place sequence.val)
    {charges : List CashChargeRequest} {before : List StrategyOutputRecord}
    (hbefore : before.map StrategyOutputRecord.place = (List.range' 1 before.length).map place)
    (h : pushCharges charge charges before = .ok records) :
    records.map StrategyOutputRecord.place = (List.range' 1 records.length).map place := by
  induction charges generalizing before with
  | nil =>
    cases h
    exact hbefore
  | cons request rest ih =>
    obtain ⟨sequence, hsequence, h⟩ := (bind_eq_ok _ _ _).1 h
    refine ih ?_ h
    have hnext : sequence.val = 1 + before.length :=
      (outputSequence_ok.1 hsequence).trans (add_comm _ _)
    rw [List.map_append, hbefore, List.length_append, List.length_singleton, List.range'_concat,
      List.map_append, List.map_singleton, List.map_singleton, hplace, hnext, one_mul]

/-- The records of a callback are numbered from one on. -/
theorem intoEventRecords_places {sink : StrategyOutputSink} {occurrence : EventOccurrence}
    (h : sink.intoEventRecords occurrence = .ok records) : records.map StrategyOutputRecord.place =
      (List.range' 1 records.length).map
        (.event occurrence.runEventOrdinal.val occurrence.eventFingerprint) := by
  obtain ⟨indicators, hindicators, h⟩ := (bind_eq_ok _ _ _).1 h
  exact pushCharges_places (fun _ _ => rfl)
    (indicatorRecords_places (fun _ _ _ => rfl) hindicators) h

theorem intoFinalizeRecords_places {sink : StrategyOutputSink}
    (h : sink.intoFinalizeRecords = .ok records) :
    records.map StrategyOutputRecord.place = (List.range' 1 records.length).map .finalize :=
  indicatorRecords_places (fun _ _ _ => rfl) h

end StrategyOutputSink

/-- The records of the event with this ordinal. -/
def OutputsOf (hash : List UInt8 → Digest) (item : DomainEvent × ℕ)
    (records : List StrategyOutputRecord) : Prop :=
  ∃ key, OrderingKey.forEvent hash item.1 = .ok key ∧
    records.map StrategyOutputRecord.place =
      (List.range' 1 records.length).map (.event item.2 key.eventFingerprint)

namespace StrategyRunState
variable {hash : List UInt8 → Digest} {σ : Type} {strategy : Strategy σ} {panics : StrategyPanics σ}
  {segment : SessionSegment}

/-- What an event is answered with stands at its ordinal. -/
theorem tells_places {events : List DomainEvent} {core core' : ReplayCore} {a a' : σ}
    {blocks : List (List StrategyOutputRecord)}
    (h : Tells hash strategy panics segment core a events blocks core' a') :
    List.Forall₂ (OutputsOf hash) (events.zipIdx (core.clock.eventOrdinal.val + 1)) blocks := by
  induction h with
  | nil => exact .nil
  | cons commits shows answers later ih =>
    obtain ⟨sink, hrecords⟩ := answerTo_ok answers
    obtain ⟨key, hkey, hfingerprint⟩ := applyOrdered_fingerprint commits
    have hadvances := ReplayCore.applyOrdered_ok commits
    rw [hadvances.eventOrdinal] at ih
    refine .cons ⟨key, hkey, ?_⟩ ih
    rw [← hfingerprint, ← hadvances.ordinal]
    exact StrategyOutputSink.intoEventRecords_places hrecords

end StrategyRunState

theorem mem_outputsOf {hash : List UInt8 → Digest} {event : DomainEvent} {ordinal : ℕ}
    {records : List StrategyOutputRecord} (h : OutputsOf hash (event, ordinal) records) :
    ∀ place ∈ records.map StrategyOutputRecord.place,
      ∃ fingerprint sequence, place = .event ordinal fingerprint sequence := by
  obtain ⟨key, -, hplaces⟩ := h
  rw [hplaces]
  intro place hplace
  obtain ⟨sequence, -, rfl⟩ := List.mem_map.1 hplace
  exact ⟨_, _, rfl⟩

/-- Records of different events, and different records of one event, stand at different places. -/
theorem nodup_places {hash : List UInt8 → Digest} {events : List DomainEvent} {first : ℕ}
    {blocks : List (List StrategyOutputRecord)}
    (h : List.Forall₂ (OutputsOf hash) (events.zipIdx first) blocks) :
    (blocks.flatten.map StrategyOutputRecord.place).Nodup ∧
      ∀ place ∈ blocks.flatten.map StrategyOutputRecord.place, ∃ ordinal fingerprint sequence,
        place = .event ordinal fingerprint sequence ∧ first ≤ ordinal := by
  induction events generalizing first blocks with
  | nil =>
    cases h
    simp
  | cons event rest ih =>
    rw [List.zipIdx_cons] at h
    cases h with
    | cons hfirst hrest =>
      rename_i records later
      obtain ⟨hnodup, hlater⟩ := ih hrest
      rw [List.flatten_cons, List.map_append]
      constructor
      · refine List.Nodup.append ?_ hnodup fun place hplace hplace' => ?_
        · obtain ⟨key, -, hplaces⟩ := hfirst
          rw [hplaces]
          refine List.Nodup.map (fun a b heq => ?_) List.nodup_range'
          exact (OutputPlace.event.inj heq).2.2
        · obtain ⟨fingerprint, sequence, rfl⟩ := mem_outputsOf hfirst place hplace
          obtain ⟨ordinal, _, _, heq, hle⟩ := hlater _ hplace'
          have hsame := (OutputPlace.event.inj heq).1
          omega
      · intro place hplace
        rcases List.mem_append.1 hplace with hplace | hplace
        · obtain ⟨fingerprint, sequence, rfl⟩ := mem_outputsOf hfirst place hplace
          exact ⟨_, _, _, rfl, le_rfl⟩
        · obtain ⟨ordinal, fingerprint, sequence, rfl, hle⟩ := hlater place hplace
          exact ⟨_, _, _, rfl, by omega⟩

/-- The output of a completed run on a core that has not started: what the strategy answers to its
events in order and behind it what it answers at the end. The records of an event stand at its
ordinal and its fingerprint and are numbered from one, as are those of the end, and no two stand at
the same place. -/
theorem strategy_output_placed (hash : List UInt8 → Digest) {σ : Type} (strategy : Strategy σ)
    (panics : StrategyPanics σ)
    (core : ReplayCore) (initial : σ) (segment : SessionSegment) (events : List DomainEvent)
    (hstart : core.clock = .unstarted) (completed : CompletedStrategyRun)
    (h : runStrategy hash strategy panics core initial segment events = .ok completed) :
    ∃ ordered initialized blocks reached answered last ended,
      begins hash strategy panics segment core initial events = .ok (ordered, initialized) ∧
      Tells hash strategy panics segment core initialized ordered blocks reached answered ∧
      answerAtEnd strategy panics reached answered = .ok (last, ended) ∧
      completed.strategyOutput.records = blocks.flatten ++ last ∧
      List.Forall₂ (OutputsOf hash) (ordered.zipIdx 1) blocks ∧
      last.map StrategyOutputRecord.place = (List.range' 1 last.length).map .finalize ∧
      (completed.strategyOutput.records.map StrategyOutputRecord.place).Nodup := by
  obtain ⟨ordered, initialized, blocks, reached, answered, last, ended, hbegins, htells, hends, -,
      hrecords, -⟩ :=
    StrategyRunState.runStrategy_ok h
  have hblocks := StrategyRunState.tells_places htells
  rw [hstart] at hblocks
  obtain ⟨sink, hlast⟩ := answerAtEnd_ok hends
  have hplaces := StrategyOutputSink.intoFinalizeRecords_places hlast
  obtain ⟨hnodup, hevents⟩ := nodup_places hblocks
  refine ⟨ordered, initialized, blocks, reached, answered, last, ended, hbegins, htells, hends,
    hrecords, hblocks, hplaces, ?_⟩
  rw [hrecords, List.map_append]
  refine hnodup.append ?_ fun place hplace hplace' => ?_
  · rw [hplaces]
    refine List.Nodup.map (fun a b heq => ?_) List.nodup_range'
    exact OutputPlace.finalize.inj heq
  · obtain ⟨_, _, _, rfl, -⟩ := hevents place hplace
    rw [hplaces] at hplace'
    obtain ⟨_, -, heq⟩ := List.mem_map.1 hplace'
    cases heq

end Outputs

section Samples

/-- n -/
def countName : Text := ⟨[110], Eq.refl true⟩

/-- An indicator at every event and at the end; the state is the number of events so far. -/
def countingStrategy : Strategy ℕ where
  identity _ := ⟨countName, countName, ⟨countName, [0], by decide⟩, by decide⟩
  canonicalParamsChecksum _ := sampleHash []
  declaration _ := ⟨[sampleInstrument], [.regular]⟩
  onInitialize _ count := .ok count
  onEvent _ sink count :=
    .ok ({ sink with pending := [(countName, .unsigned (Unsigned.wrap 64 count))] }, count + 1)
  onFeedback _ sink count := .ok (sink, count)
  onTimer _ sink count := .ok (sink, count)
  onFinalize _ sink count := .ok ({ sink with pending := [(countName, .bool true)] }, count)

/-- Panics at the event after this many events. -/
def panicsAfter (limit : ℕ) : StrategyPanics ℕ where
  onInitialize _ _ := false
  onEvent _ count := count = limit
  onFinalize _ _ := false

def threeQuotes : List DomainEvent :=
  [sampleQuote sampleInstrument firstDay 20, sampleQuote sampleInstrument firstDay 10,
  sampleQuote sampleInstrument firstDay 30]

def countingRun (limit : ℕ) (core : ReplayCore) : Except StrategyRunError CompletedStrategyRun :=
  runStrategy sampleHash countingStrategy (panicsAfter limit) core 0 sampleSegment threeQuotes

theorem exists_of_sampleCore {p : ReplayCore → Bool} (h : sampleCore.toOption.any p = true) :
    ∃ core, sampleCore = .ok core ∧ core.clock = .unstarted ∧ p core = true := by
  obtain ⟨core, hcore, hp⟩ := (Option.any_eq_true _ _).1 h
  have hnew := (toOption_eq_some _ _).1 hcore
  exact ⟨core, hnew, (ReplayCore.newMultiWithSchedules_unstarted hnew).1, hp⟩

/-- Completes with so many callbacks and so many records. -/
def completesWith (count outputs : ℕ) : Except StrategyRunError CompletedStrategyRun → Bool
  | .ok completed => completed.callbackCount.val = count &&
      completed.strategyOutput.records.length = outputs
  | .error _ => false

/-- Fails with so many events committed and so many records kept. -/
def failsWith (count outputs : ℕ) : Except StrategyRunError CompletedStrategyRun → Bool
  | .error (.failed failure) => failure.processedEventCount.val = count &&
      failure.committedOutputCount = outputs
  | _ => false

theorem completesWith_ok {count outputs : ℕ} {x : Except StrategyRunError CompletedStrategyRun}
    (h : completesWith count outputs x = true) :
    ∃ completed, x = .ok completed ∧ completed.callbackCount.val = count ∧
      completed.strategyOutput.records.length = outputs := by
  cases x with
  | ok completed => exact ⟨completed, rfl, by simpa [completesWith] using h⟩
  | error e => cases h

theorem failsWith_error {count outputs : ℕ} {x : Except StrategyRunError CompletedStrategyRun}
    (h : failsWith count outputs x = true) :
    ∃ failure, x = .error (.failed failure) ∧ failure.processedEventCount.val = count ∧
      failure.committedOutputCount = outputs := by
  cases x with
  | ok completed => cases h
  | error e =>
    cases e with
    | failed failure => exact ⟨failure, rfl, by simpa [failsWith] using h⟩
    | panicked => cases h

theorem countingRun_outcomes : ∃ core completed failure, sampleCore = .ok core ∧
    core.clock = .unstarted ∧
    countingRun 5 core = .ok completed ∧ completed.callbackCount.val = 3 ∧
    completed.strategyOutput.records.length = 4 ∧ countingRun 1 core = .error (.failed failure) ∧
    failure.processedEventCount.val = 2 ∧ failure.committedOutputCount = 1 := by
  have htest : sampleCore.toOption.any (fun core =>
      completesWith 3 4 (countingRun 5 core) && failsWith 2 1 (countingRun 1 core)) =
        true := by decide +kernel
  obtain ⟨core, hcore, hstart, hruns⟩ := exists_of_sampleCore htest
  obtain ⟨hcompletes, hfails⟩ := (Bool.and_eq_true _ _).mp hruns
  obtain ⟨completed, hcompleted, hcount, hrecords⟩ := completesWith_ok hcompletes
  obtain ⟨failure, hfailure, hprocessed, houtputs⟩ := failsWith_error hfails
  exact ⟨core, completed, failure, hcore, hstart, hcompleted, hcount, hrecords, hfailure,
    hprocessed, houtputs⟩

/-- All three quotes are told. A panic at the second one is reported with the two events committed
by then and with the record of the first. -/
theorem three_quotes_told : ∃ core ordered final completed failure, sampleCore = .ok core ∧
    countingRun 5 core = .ok completed ∧
    ReplayCore.applyAll sampleHash ordered core = .ok () final ∧
    ordered.length = 3 ∧ final.complete sampleHash = .ok completed.replay ∧
    countingRun 1 core = .error (.failed failure) ∧
    StrategyRunState.FailsWith sampleHash countingStrategy
      (panicsAfter 1) sampleSegment core 0 threeQuotes failure ∧
    failure.processedEventCount.val = 2 ∧ failure.committedOutputCount = 1 := by
  obtain ⟨core, completed, failure, hcore, hstart, hcompleted, hcount, -, hfailure, hprocessed,
      houtputs⟩ :=
    countingRun_outcomes
  obtain ⟨ordered, final, -, hall, hcomplete, hcallbacks⟩ :=
    (strategy_run_outcome sampleHash countingStrategy
      (panicsAfter 5) core 0 sampleSegment threeQuotes hstart).1 completed
      hcompleted
  obtain ⟨told, heq, hfails⟩ :=
    (strategy_run_outcome sampleHash countingStrategy
      (panicsAfter 1) core 0 sampleSegment threeQuotes hstart).2 _ hfailure
  cases heq
  exact ⟨core, ordered, final, completed, failure, hcore, hcompleted, hall,
    hcallbacks.symm.trans hcount, hcomplete, hfailure, hfails, hprocessed, houtputs⟩

/-- Four records: one for each quote and one for the end. -/
theorem three_quotes_placed : ∃ core completed, ∃ blocks :
    List (List StrategyOutputRecord), ∃ last, sampleCore = .ok core ∧
    countingRun 5 core = .ok completed ∧ completed.strategyOutput.records = blocks.flatten ++ last ∧
    completed.strategyOutput.records.length = 4 ∧
    (completed.strategyOutput.records.map StrategyOutputRecord.place).Nodup := by
  obtain ⟨core, completed, failure, hcore, hstart, hcompleted, -, hcount, -⟩ := countingRun_outcomes
  obtain ⟨ordered, initialized, blocks, reached, answered, last, ended, -, -, -, hrecords, -,
      -, hnodup⟩ :=
    strategy_output_placed sampleHash countingStrategy
      (panicsAfter 5) core 0 sampleSegment threeQuotes hstart completed
      hcompleted
  exact ⟨core, completed, blocks, last, hcore, hcompleted, hrecords, hcount, hnodup⟩

end Samples

end Osmium
