import Osmium.Lib.OrderedMap
import Osmium.Spec.Replay

/-! What a commit of the replay core does, and what any number of commits keep: the core advances by
one event or not at all, and its clock, its last key and its checksum stay in step. -/

namespace Osmium
open Machine Bytes Result Stateful

theorem OrderingKey.matchTime_le {a b : OrderingKey} (h : a ≤ b) : a.matchTime ≤ b.matchTime := by
  have hle :
      ((compare a.matchTime b.matchTime).then
        (compareLex (compareOn marketRank) (compareLex (compareOn symbol)
      (compareLex (compareOn sourceFormat) (compareLex (compareOn OrderingKey.sourcePhaseRank)
      (compareLex (compareOn eventKindRank) (compareLex (compareOn sourceSequence)
      (compareOn OrderingKey.eventFingerprint)))))) a b)).isLE = true := h
  exact compare_le_iff_le.1 (Ordering.ne_gt_iff_isLE.2 (Ordering.isLE_then_iff_and.1 hle).1)

theorem OrderingKey.le_of_compare_ne_lt {a b : OrderingKey} (h : compare b a ≠ .lt) : a ≤ b :=
  not_lt.1 fun hlt => h (compare_lt_iff_lt.2 hlt)

theorem OrderingKey.forEventAndCanonical_ok {hash : List UInt8 → Digest} {event : DomainEvent}
    {key : OrderingKey} {canonical : List UInt8}
    (h : OrderingKey.forEventAndCanonical hash event = .ok (key, canonical)) :
    key.matchTime = event.matchTime ∧ event.toCanonicalBytes = .ok canonical ∧
    key.eventFingerprint = ⟨hash canonical⟩ := by
  simp only [forEventAndCanonical, bind_eq_ok, mapError_eq_ok, pure_eq_ok, Prod.mk.injEq] at h
  obtain ⟨bytes, hbytes, rank, -, rfl, rfl⟩ := h
  exact ⟨rfl, hbytes, rfl⟩

namespace MarketStateReducer
variable {hash : List UInt8 → Digest}

/-- A transition that is proposed and committed moves the version on by one and keeps instrument and
date. -/
theorem propose_commit_ok {self : MarketStateReducer} {state next : MarketState}
    {event : DomainEvent}
    {context : ReducerContext} {proposal : ProposedTransition} {receipt : TransitionReceipt}
    (hp : self.propose hash state event context = .ok proposal)
    (hc : commit state proposal = .ok (next, receipt)) :
    next.instrument = state.instrument ∧ next.tradingDate = state.tradingDate ∧
      next.stateVersion.val = state.stateVersion.val + 1 ∧ receipt.newVersion = next.stateVersion ∧
      state.instrument = event.instrument ∧ state.tradingDate = event.tradingDate := by
  simp only [commit, bind_eq_ok, ensure_eq_ok, pure_eq_ok, Prod.mk.injEq] at hc
  obtain ⟨_, ⟨-, hinstrument, hdate⟩, rfl, rfl⟩ := hc
  simp only [propose, validateEnvelope, bind_eq_ok, ensure_eq_ok, mapError_eq_ok, okOr_eq_ok,
    pure_eq_ok] at hp
  obtain ⟨_, ⟨_, hown, _, ⟨hsame, -⟩, -⟩, _, -, _, -, _, -, _, -, version, hversion, _, -, rfl⟩ :=
    hp
  exact ⟨hinstrument.symm, hdate.symm, (Unsigned.checkedAdd_eq_some _ _ _).1 hversion, rfl,
    hown.symm, hsame.symm⟩

end MarketStateReducer

namespace ReplayCore
variable {hash : List UInt8 → Digest} {core core' : ReplayCore} {event : DomainEvent}
  {commit : CoreCommit}

theorem atomic_applyPreparedOrdered (hash : List UInt8 → Digest) (event : DomainEvent)
    (key : OrderingKey)
    (canonical : List UInt8) : Atomic (applyPreparedOrdered hash event key canonical) := by
  refine Atomic.bind .get fun self => Atomic.bind (.lift _) fun checked => ?_
  intro s e s' h
  rcases (bind_error _ _ _ _ _).1 h with h | ⟨-, s₁, -, h⟩
  · exact ((set_error _ _ _ _).1 h).elim
  · exact ((pure_error _ _ _ _).1 h).elim

/-- An event that is refused leaves the core as it was. -/
theorem atomic_applyOrdered (hash : List UInt8 → Digest) (event : DomainEvent) :
    Atomic (applyOrdered hash event) :=
  Atomic.bind (.lift _) fun checked => atomic_applyPreparedOrdered hash event checked.1 checked.2

theorem validateGlobalOrder_ok {key : OrderingKey} {canonical : List UInt8}
    (h : core.validateGlobalOrder key canonical = .ok ()) :
    ∀ previous ∈ core.lastOrderingKey, previous ≤ key := by
  intro previous hprevious
  rw [validateGlobalOrder, Option.mem_def.1 hprevious] at h
  refine OrderingKey.le_of_compare_ne_lt fun hlt => ?_
  simp only [hlt] at h
  cases h

theorem transition_ok {state : MarketState} {receipt : TransitionReceipt}
    (h : core.transition hash event = .ok (state, receipt)) :
    ∃ before, core.states[event.instrument]? = some before ∧ state.instrument = event.instrument ∧
      state.tradingDate = event.tradingDate ∧ receipt.newVersion = state.stateVersion ∧
      state.stateVersion.val =
        (if before.tradingDate = event.tradingDate then before.stateVersion.val else 0) + 1 := by
  simp only [transition, bind_eq_ok, okOr_eq_ok, mapError_eq_ok] at h
  obtain ⟨before, hbefore, context, -, reducer, -, proposal, hp, hc⟩ := h
  obtain ⟨hinstrument, hdate, hversion, hreceipt, hown, hsame⟩ :=
    MarketStateReducer.propose_commit_ok hp hc
  refine ⟨before, hbefore, hinstrument.trans hown, hdate.trans hsame, hreceipt, ?_⟩
  rw [hversion]
  unfold stateFor
  split_ifs <;> rfl

/-- Everything a commit says about the core before and after it. -/
structure Advances (hash : List UInt8 → Digest) (core : ReplayCore) (event : DomainEvent)
    (commit : CoreCommit) (core' : ReplayCore) : Prop where
  key : ∃ canonical, OrderingKey.forEventAndCanonical hash event =
      .ok (commit.occurrence.orderingKey, canonical) ∧
    core'.lastCanonicalEvent = some canonical
  ordered : ∀ previous ∈ core.lastOrderingKey, previous ≤ commit.occurrence.orderingKey
  lastKey : core'.lastOrderingKey = some commit.occurrence.orderingKey
  clock : core'.clock = .running event.matchTime commit.occurrence.runEventOrdinal
  ordinal : commit.occurrence.runEventOrdinal.val = core.clock.eventOrdinal.val + 1
  eventCount : core'.eventStream.eventCount = Unsigned.wrap 64 (core.eventStream.eventCount.val + 1)
  state : ∃ before after, core.states[event.instrument]? = some before ∧
    core'.states = core.states.insert event.instrument after ∧ after.instrument = event.instrument ∧
    after.tradingDate = event.tradingDate ∧
    commit.occurrence.instrumentStateVersion = after.stateVersion ∧
    after.stateVersion.val =
      (if before.tradingDate = event.tradingDate then before.stateVersion.val else 0) + 1
  reducers : core'.reducers = core.reducers
  reducerContexts : core'.reducerContexts = core.reducerContexts
  reducerContextWindows : core'.reducerContextWindows = core.reducerContextWindows

theorem Advances.eventOrdinal (h : Advances hash core event commit core') :
    core'.clock.eventOrdinal.val = core.clock.eventOrdinal.val + 1 := by
  rw [h.clock]
  exact h.ordinal

theorem applyPreparedOrdered_ok {key : OrderingKey} {canonical : List UInt8}
    (h : applyPreparedOrdered hash event key canonical core = .ok commit core')
    (hkey : OrderingKey.forEventAndCanonical hash event = .ok (key, canonical)) :
    Advances hash core event commit core' := by
  obtain ⟨self, s₁, hget, h⟩ := (bind_ok _ _ _ _ _).1 h
  obtain ⟨rfl, rfl⟩ := (get_ok _ _ _).1 hget
  obtain ⟨⟨prepared, nextOrdinal, state, receipt⟩, s₂, hlift, h⟩ := (bind_ok _ _ _ _ _).1 h
  obtain ⟨hcheck, rfl⟩ := (lift_ok _ _ _ _).1 hlift
  obtain ⟨u, s₃, hset, h⟩ := (bind_ok _ _ _ _ _).1 h
  have hcore := (set_ok _ _ _ _).1 hset
  obtain ⟨rfl, rfl⟩ := (pure_ok _ _ _ _).1 h
  subst hcore
  simp only [checkOrdered, ReplayEventStreamHasher.prepareCanonical, bind_eq_ok, mapError_eq_ok,
    okOr_eq_ok, pure_eq_ok, Prod.mk.injEq] at hcheck
  obtain ⟨_, ⟨length, -, rfl⟩, _, horder, _, -, _, hordinal, ⟨state', receipt'⟩, htransition, rfl,
      rfl, rfl, rfl⟩ := hcheck
  obtain ⟨before, hbefore, hinstrument, hdate, hreceipt, hversion⟩ := transition_ok htransition
  exact {
    key := ⟨canonical, hkey, rfl⟩
    ordered := validateGlobalOrder_ok horder
    lastKey := rfl
    clock := rfl
    ordinal := (Unsigned.checkedAdd_eq_some _ _ _).1 hordinal
    eventCount := rfl
    state := ⟨before, state', hbefore, rfl, hinstrument, hdate, hreceipt, hversion⟩
    reducers := rfl
    reducerContexts := rfl
    reducerContextWindows := rfl }

theorem applyOrdered_ok (h : applyOrdered hash event core = .ok commit core') :
    Advances hash core event commit core' := by
  obtain ⟨⟨key, canonical⟩, s₁, hlift, h⟩ := (bind_ok _ _ _ _ _).1 h
  obtain ⟨hkey, rfl⟩ := (lift_ok _ _ _ _).1 hlift
  exact applyPreparedOrdered_ok h ((mapError_eq_ok _ _ _).1 hkey)

section Runs

/-- An event with what its commit returned. -/
structure Committed where
  event : DomainEvent
  commit : CoreCommit

def Committed.key (self : Committed) : OrderingKey := self.commit.occurrence.orderingKey

/-- Offers events one after the other; a refused one leaves no commit and the core goes on. -/
def attemptAll (hash : List UInt8 → Digest) : List DomainEvent → ReplayCore →
    List Committed × ReplayCore
  | [], core => ([], core)
  | event :: rest, core =>
    match applyOrdered hash event core with
    | .ok commit core =>
      ⟨⟨event, commit⟩ :: (attemptAll hash rest core).1, (attemptAll hash rest core).2⟩
    | .error _ core => attemptAll hash rest core

/-- A core in step with the commits that led to it. -/
structure InStep (core : ReplayCore) (log : List Committed) : Prop where
  ordinal : core.clock.eventOrdinal.val = log.length
  eventCount : core.eventStream.eventCount.val = log.length
  lastKey : ∀ committed ∈ log, ∃ last ∈ core.lastOrderingKey, committed.key ≤ last
  keys : log.Pairwise fun a b => a.key ≤ b.key
  times : ∀ committed ∈ log, committed.key.matchTime = committed.event.matchTime

theorem InStep.advance {log : List Committed} (h : InStep core log)
    (ha : Advances hash core event commit core') :
    InStep core' (log ++ [⟨event, commit⟩]) := by
  have hordinal : core'.clock.eventOrdinal.val = log.length + 1 := by
    rw [ha.clock, ← h.ordinal]
    exact ha.ordinal
  have hlast : ∀ committed ∈ log, committed.key ≤ commit.occurrence.orderingKey := by
    intro committed hmem
    obtain ⟨last, hlast, hle⟩ := h.lastKey committed hmem
    exact hle.trans (ha.ordered last hlast)
  refine ⟨?_, ?_, ?_, ?_, ?_⟩
  · rw [hordinal, List.length_append, List.length_singleton]
  · -- the counter cannot wrap, since the ordinal was checked against the same bound
    have hbound := core'.clock.eventOrdinal.lt
    rw [hordinal] at hbound
    rw [ha.eventCount, h.eventCount, List.length_append, List.length_singleton]
    exact Nat.mod_eq_of_lt hbound
  · intro committed hmem
    refine ⟨_, ha.lastKey, ?_⟩
    rcases List.mem_append.1 hmem with hmem | hmem
    · exact hlast committed hmem
    · rw [List.mem_singleton.1 hmem]
      exact le_rfl
  · refine List.pairwise_append.2 ⟨h.keys, List.pairwise_singleton _ _, fun a ha' b hb => ?_⟩
    rw [List.mem_singleton.1 hb]
    exact hlast a ha'
  · intro committed hmem
    rcases List.mem_append.1 hmem with hmem | hmem
    · exact h.times committed hmem
    · rw [List.mem_singleton.1 hmem]
      obtain ⟨canonical, hkey, -⟩ := ha.key
      exact (OrderingKey.forEventAndCanonical_ok hkey).1

theorem InStep.attemptAll (events : List DomainEvent) {log : List Committed} (h : InStep core log) :
    InStep (attemptAll hash events core).2 (log ++ (attemptAll hash events core).1) := by
  induction events generalizing core log with
  | nil => simpa [ReplayCore.attemptAll] using h
  | cons event rest ih =>
    rw [ReplayCore.attemptAll]
    cases happly : applyOrdered hash event core with
    | ok commit core' =>
      have hrest := ih (h.advance (applyOrdered_ok happly))
      rwa [List.append_assoc] at hrest
    | error e core' =>
      obtain rfl := atomic_applyOrdered hash event core e core' happly
      exact ih h

/-- The commits of one instrument. -/
def ownCommits (instrument : InstrumentId) (log : List Committed) : List Committed :=
  log.filter fun committed => committed.event.instrument = instrument

/-- As long as an instrument stays on one trading date its version counts its own commits. -/
theorem version_attemptAll (instrument : InstrumentId) (events : List DomainEvent)
    {before : MarketState} (hbefore : core.states[instrument]? = some before)
    (hdate : ∀ committed ∈ ownCommits instrument (attemptAll hash events core).1,
      committed.event.tradingDate = before.tradingDate) :
    ∃ after, (attemptAll hash events core).2.states[instrument]? = some after ∧
      after.tradingDate = before.tradingDate ∧ after.stateVersion.val =
        before.stateVersion.val +
          (ownCommits instrument (attemptAll hash events core).1).length := by
  induction events generalizing core before with
  | nil => exact ⟨before, hbefore, rfl, rfl⟩
  | cons event rest ih =>
    rw [attemptAll] at hdate ⊢
    cases happly : applyOrdered hash event core with
    | error e core' =>
      obtain rfl := atomic_applyOrdered hash event core e core' happly
      simp only [happly] at hdate
      exact ih hbefore hdate
    | ok commit core' =>
      simp only [happly] at hdate
      obtain ⟨previous, next, hprevious, hstates, -, hnext, -, hversion⟩ :=
        (applyOrdered_ok happly).state
      by_cases hown : event.instrument = instrument
      · subst hown
        obtain rfl : previous = before := Option.some.inj (hprevious.symm.trans hbefore)
        have hlog :
            ownCommits event.instrument (⟨event, commit⟩ :: (attemptAll hash rest core').1) =
            ⟨event, commit⟩ :: ownCommits event.instrument (attemptAll hash rest core').1 :=
          List.filter_cons_of_pos (by simp)
        rw [hlog] at hdate
        have hsame : event.tradingDate = previous.tradingDate := hdate _ List.mem_cons_self
        have hstate : core'.states[event.instrument]? = some next := by simp [hstates]
        obtain ⟨after, hafter, hafterDate, hcount⟩ := ih hstate
          fun committed hmem =>
            (hdate committed (List.mem_cons_of_mem _ hmem)).trans (hsame.symm.trans hnext.symm)
        refine ⟨after, hafter, hafterDate.trans (hnext.trans hsame), ?_⟩
        rw [hlog, List.length_cons, hcount, hversion, if_pos hsame.symm]
        omega
      · have hlog : ownCommits instrument (⟨event, commit⟩ :: (attemptAll hash rest core').1) =
            ownCommits instrument (attemptAll hash rest core').1 :=
          List.filter_cons_of_neg (by simpa using hown)
        rw [hlog] at hdate ⊢
        refine ih ?_ hdate
        rw [hstates, Std.ExtTreeMap.getElem?_insert, if_neg (by simpa using hown)]
        exact hbefore

end Runs

theorem newMultiWithSchedules_unstarted {states : List MarketState}
    {reducers : List (InstrumentId × MarketStateReducer)}
    {reducerContexts : List (InstrumentId × ReducerContext)}
    {schedules : List (InstrumentId × List ReplayContextWindow)}
    (h : newMultiWithSchedules states reducers reducerContexts schedules = .ok core) :
    core.clock = .unstarted ∧ core.lastOrderingKey = none ∧ core.lastCanonicalEvent = none ∧
    core.eventStream = .new ∧
      core.firstMatchTime = none := by
  simp only [newMultiWithSchedules, bind_eq_ok, pure_eq_ok] at h
  obtain ⟨_, -, byInstrument, -, _, -, _, -, windows, -, rfl⟩ := h
  exact ⟨rfl, rfl, rfl, rfl, rfl⟩

theorem InStep.initial {states : List MarketState}
    {reducers : List (InstrumentId × MarketStateReducer)}
    {reducerContexts : List (InstrumentId × ReducerContext)}
    {schedules : List (InstrumentId × List ReplayContextWindow)}
    (h : newMultiWithSchedules states reducers reducerContexts schedules = .ok core) :
    InStep core [] := by
  obtain ⟨hclock, -, -, hstream, -⟩ := newMultiWithSchedules_unstarted h
  refine ⟨by rw [hclock]; rfl, by rw [hstream]; rfl, by simp, List.Pairwise.nil, by simp⟩

section Fork

theorem indexStates_ok {states : List MarketState}
    {indexed indexed' : Std.ExtTreeMap InstrumentId MarketState}
    (h : indexStates states indexed = .ok indexed') :
    indexed' = (states.map fun state => (state.instrument, state)).foldl
      (fun m entry => m.insert entry.1 entry.2) indexed := by
  induction states generalizing indexed with
  | nil => exact (Except.ok.inj h).symm
  | cons state rest ih =>
    obtain ⟨⟨⟩, -, hrest⟩ := (bind_eq_ok _ _ _).1 h
    exact ih hrest

theorem indexSchedules_ok {states : Std.ExtTreeMap InstrumentId MarketState}
    {reducers : Std.ExtTreeMap InstrumentId MarketStateReducer}
    {contexts : Std.ExtTreeMap InstrumentId ReducerContext}
    {schedules : List (InstrumentId × List ReplayContextWindow)}
    {indexed indexed' : Std.ExtTreeMap InstrumentId (List ReplayContextWindow)}
    (h : indexSchedules states reducers contexts schedules indexed = .ok indexed') :
    indexed' = (schedules.map fun entry => (entry.1, entry.2.insertionSort windowBefore)).foldl
      (fun m entry => m.insert entry.1 entry.2) indexed := by
  induction schedules generalizing indexed with
  | nil => exact (Except.ok.inj h).symm
  | cons entry rest ih =>
    obtain ⟨instrument, windows⟩ := entry
    simp only [indexSchedules, bind_eq_ok] at h
    obtain ⟨-, -, -, -, -, -, hrest⟩ := h
    exact ih hrest

instance : Std.Total windowBefore := ⟨fun a b => le_total a.start b.start⟩

instance : IsTrans ReplayContextWindow windowBefore := ⟨fun _ _ _ hab hbc => le_trans hab hbc⟩

/-- What a constructed core keeps in its tables. -/
structure Tabled (core : ReplayCore) : Prop where
  states : ∀ (instrument : InstrumentId) (state : MarketState),
      core.states[instrument]? = some state → state.instrument = instrument
  windows : ∀ (instrument : InstrumentId) (windows : List ReplayContextWindow),
      core.reducerContextWindows[instrument]? = some windows →
    windows.insertionSort windowBefore = windows

theorem tabled_newMultiWithSchedules {states : List MarketState}
    {reducers : List (InstrumentId × MarketStateReducer)}
    {reducerContexts : List (InstrumentId × ReducerContext)}
    {schedules : List (InstrumentId × List ReplayContextWindow)}
    (h : newMultiWithSchedules states reducers reducerContexts schedules = .ok core) :
    Tabled core := by
  simp only [newMultiWithSchedules, bind_eq_ok, pure_eq_ok] at h
  obtain ⟨_, -, byInstrument, hstates, _, -, _, -, windows, hwindows, rfl⟩ := h
  refine ⟨?_, ?_⟩
  · rw [indexStates_ok hstates]
    refine OrderedMap.forall_foldl_insert (by simp) fun entry hentry => ?_
    obtain ⟨state, -, rfl⟩ := List.mem_map.1 hentry
    rfl
  · rw [indexSchedules_ok hwindows]
    refine OrderedMap.forall_foldl_insert (by simp) fun entry hentry => ?_
    obtain ⟨schedule, -, rfl⟩ := List.mem_map.1 hentry
    exact (List.pairwise_insertionSort windowBefore _).insertionSort_eq

/-- A core forked before its first event is the same core again. -/
theorem forkUnstarted_eq {states : List MarketState}
    {reducers : List (InstrumentId × MarketStateReducer)}
    {reducerContexts : List (InstrumentId × ReducerContext)}
    {schedules : List (InstrumentId × List ReplayContextWindow)}
    (hnew : newMultiWithSchedules states reducers reducerContexts schedules = .ok core)
    (h : core.forkUnstarted = .ok core') : core' = core := by
  obtain ⟨hclock, hkey, hcanonical, hstream, hfirst⟩ := newMultiWithSchedules_unstarted hnew
  have htabled := tabled_newMultiWithSchedules hnew
  simp only [forkUnstarted, newMultiWithSchedules, bind_eq_ok, pure_eq_ok] at h
  obtain ⟨_, -, _, -, byInstrument, hstates, _, -, _, -, windows, hwindows, rfl⟩ := h
  have hsame : (core.states.values.map fun state => (state.instrument, state)) =
      core.states.toList := by
    rw [OrderedMap.values_eq, List.map_map]
    refine (List.map_congr_left fun entry hentry => ?_).trans (List.map_id _)
    rw [Function.comp_apply,
      htabled.states _ _ (Std.ExtTreeMap.mem_toList_iff_getElem?_eq_some.1 hentry)]
    rfl
  have hsorted : (core.reducerContextWindows.toList.map fun entry =>
      (entry.1, entry.2.insertionSort windowBefore)) =
      core.reducerContextWindows.toList := by
    refine (List.map_congr_left fun entry hentry => ?_).trans (List.map_id _)
    rw [htabled.windows _ _ (Std.ExtTreeMap.mem_toList_iff_getElem?_eq_some.1 hentry)]
    rfl
  rw [indexStates_ok hstates, indexSchedules_ok hwindows, hsame, hsorted,
    OrderedMap.foldl_insert_toList,
    OrderedMap.foldl_insert_toList, OrderedMap.ofList_toList, OrderedMap.ofList_toList]
  cases core
  cases hclock; cases hkey; cases hcanonical; cases hstream; cases hfirst
  rfl

end Fork

end ReplayCore

end Osmium
