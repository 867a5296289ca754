import Osmium.Proofs.Scheduled
import Osmium.Sanity.Streams

/-! The replay core over whole runs: its clock, its keys and its checksum after any events it was
offered, and the replay of streams as the replay of their sorted events. -/

namespace Osmium
open Machine Bytes Result Stateful ReplayCore

section Example

def sampleDate (day : ℤ)
    (h : minEpochDays ≤ (Signed.wrap 32 day).val ∧ (Signed.wrap 32 day).val ≤ maxEpochDays) :
    TradingDate := ⟨Signed.wrap 32 day, h⟩

theorem firstDay_bounds : minEpochDays ≤ (Signed.wrap 32 20000).val ∧
    (Signed.wrap 32 20000).val ≤ maxEpochDays := by decide

def firstDay : TradingDate := sampleDate 20000 firstDay_bounds

def secondDay : TradingDate := sampleDate 20003 (by decide)

/-- regular -/
def regularSegment : SessionSegmentId := ⟨⟨[114, 101, 103, 117, 108, 97, 114], by decide⟩, rfl⟩

def sampleReducer : MarketStateReducer :=
  ⟨MarketStateProfile.twseRegular.toOption.get (by decide +kernel)⟩

def sampleContext (day : TradingDate) : ReducerContext :=
  ⟨day, regularSegment, .carry, Unsigned.wrap 16 1⟩

/-- A quote of the snapshot format, with the sample book in continuous trading. -/
def sampleQuote (instrument : InstrumentId) (day : TradingDate) (micros : ℤ) : DomainEvent where
  instrument := instrument
  tradingDate := day
  sourceFormat := MarketStateProfile.stockSnapshot
  matchTime := sampleTime micros
  sourceSequence := none
  payload :=
    .quoteSnapshot
      ⟨sampleBook, .noObservation, .noObservation, .none, .set .continuous, by decide +kernel⟩

def sampleCore : Except ReplayError ReplayCore :=
  ReplayCore.newMultiWithSchedules [.new sampleInstrument firstDay]
  [(sampleInstrument, sampleReducer)]
    [(sampleInstrument, sampleContext firstDay)] []

end Example

section Clock
variable (hash : List UInt8 → Digest)

/-- From a constructed core, whatever events it is offered and whichever it refuses: a further
refusal changes nothing, the clock and the checksum count the commits, keys and match times never
decrease, and the version of an instrument counts its own commits for as long as they are of one
trading date. -/
theorem replay_clock_invariants (states : List MarketState)
    (reducers : List (InstrumentId × MarketStateReducer))
    (reducerContexts : List (InstrumentId × ReducerContext))
    (schedules : List (InstrumentId × List ReplayContextWindow)) (core : ReplayCore)
    (hcore : newMultiWithSchedules states reducers reducerContexts schedules = .ok core)
    (attempted : List DomainEvent) :
    let run := attemptAll hash attempted core
    (∀ event e core', applyOrdered hash event run.2 = .error e core' → core' = run.2) ∧
    run.2.clock.eventOrdinal.val = run.1.length ∧ run.2.eventStream.eventCount.val = run.1.length ∧
    (run.1.Pairwise fun a b => a.key ≤ b.key) ∧
    (run.1.Pairwise fun a b => a.event.matchTime ≤ b.event.matchTime) ∧
    ∀ later instrument before, run.2.states[instrument]? = some before →
      let more := attemptAll hash later run.2
      (∀ committed ∈ ownCommits instrument more.1,
        committed.event.tradingDate = before.tradingDate) →
      ∃ after, more.2.states[instrument]? = some after ∧
        after.stateVersion.val = before.stateVersion.val +
          (ownCommits instrument more.1).length := by
  have hstep :
      InStep (attemptAll hash attempted core).2 ([] ++ (attemptAll hash attempted core).1) :=
    (InStep.initial hcore).attemptAll attempted
  rw [List.nil_append] at hstep
  refine ⟨fun event => atomic_applyOrdered hash event _, hstep.ordinal, hstep.eventCount,
    hstep.keys, ?_, ?_⟩
  · refine hstep.keys.imp_of_mem fun ha hb hle => ?_
    rw [← hstep.times _ ha, ← hstep.times _ hb]
    exact OrderingKey.matchTime_le hle
  · intro later instrument before hbefore more hdate
    obtain ⟨after, hafter, -, hversion⟩ := version_attemptAll instrument later hbefore hdate
    exact ⟨after, hafter, hversion⟩

/-- Of three quotes the middle one is too early: two commits are counted. -/
theorem replay_clock_counts_two : ∃ core, sampleCore = .ok core ∧
    (attemptAll sampleHash
      [sampleQuote sampleInstrument firstDay 20, sampleQuote sampleInstrument firstDay 10,
      sampleQuote sampleInstrument firstDay 30] core).2.clock.eventOrdinal.val = 2 := by
  obtain ⟨core, hcore⟩ := exists_of_isOk (x := sampleCore) (by decide +kernel)
  refine ⟨core, hcore, ?_⟩
  have h := replay_clock_invariants sampleHash _ _ _ _ core hcore
    [sampleQuote sampleInstrument firstDay 20, sampleQuote sampleInstrument firstDay 10,
      sampleQuote sampleInstrument firstDay 30]
  refine h.2.1.trans ?_
  have hcount : sampleCore.toOption.map (fun core => (attemptAll sampleHash
      [sampleQuote sampleInstrument firstDay 20, sampleQuote sampleInstrument firstDay 10,
        sampleQuote sampleInstrument firstDay 30] core).1.length) = some 2 := by
    decide +kernel
  rw [hcore] at hcount
  exact Option.some.inj hcount

end Clock

section Canonical
variable (hash : List UInt8 → Digest)

/-- No two different byte strings of the events have one fingerprint. -/
def CollisionFree (events : List DomainEvent) : Prop :=
  ∀ a ∈ events, ∀ b ∈ events, ∀ bytes bytes', a.toCanonicalBytes = .ok bytes →
  b.toCanonicalBytes = .ok bytes' →
    hash bytes = hash bytes' → bytes = bytes'

variable {hash}

theorem exists_prepareAll {events : List DomainEvent}
    (h : ∀ event ∈ events, ∃ key, OrderingKey.forEvent hash event = .ok key) :
    ∃ prepared, prepareAll hash events = .ok prepared := by
  induction events with
  | nil => exact ⟨[], rfl⟩
  | cons event rest ih =>
    obtain ⟨⟨key, hkey⟩, hrest⟩ := List.forall_mem_cons.1 h
    simp only [OrderingKey.forEvent, bind_eq_ok, pure_eq_ok] at hkey
    obtain ⟨⟨found, canonical⟩, hkey, rfl⟩ := hkey
    obtain ⟨prepared, hprepared⟩ := ih hrest
    refine ⟨⟨event, found, canonical⟩ :: prepared,
      (prepareAll_ok _ _).2 (.cons ?_ ((prepareAll_ok _ _).1 hprepared))⟩
    exact PreparedOrderEvent.new_ok.2 ⟨hkey, rfl⟩

/-- Equal keys have equal fingerprints, and with them equal bytes. -/
theorem CollisionFree.canonical_eq {events : List DomainEvent} (h : CollisionFree hash events)
    {a b : PreparedOrderEvent} (ha : a.event ∈ events) (hb : b.event ∈ events)
    (hnew : PreparedOrderEvent.new hash a.event = .ok a)
    (hnew' : PreparedOrderEvent.new hash b.event = .ok b) (hkey : a.key = b.key) :
    a.canonical = b.canonical := by
  obtain ⟨-, hbytes, hprint⟩ :=
    OrderingKey.forEventAndCanonical_ok (PreparedOrderEvent.new_ok.1 hnew).1
  obtain ⟨-, hbytes', hprint'⟩ :=
    OrderingKey.forEventAndCanonical_ok (PreparedOrderEvent.new_ok.1 hnew').1
  refine h _ ha _ hb _ _ hbytes hbytes' ?_
  rw [hkey, hprint'] at hprint
  exact (congrArg EventFingerprint.digest hprint).symm

/-- Without collisions no two neighbours are refused. -/
theorem CollisionFree.not_adjacent {events : List DomainEvent} (h : CollisionFree hash events)
    {prepared l : List PreparedOrderEvent} (hprepared : prepareAll hash events = .ok prepared)
    (hsub : ∀ a ∈ l, a ∈ prepared) :
    anyAdjacent (fun a b => a.key = b.key && a.canonical ≠ b.canonical) l = false := by
  induction l with
  | nil => rfl
  | cons a l ih =>
    obtain ⟨ha, hl⟩ := List.forall_mem_cons.1 hsub
    cases l with
    | nil => rfl
    | cons b l =>
      have hmem (item : PreparedOrderEvent) (hitem : item ∈ prepared) : item.event ∈ events := by
        rw [← map_event_of_prepareAll hprepared]
        exact List.mem_map_of_mem hitem
      have hb := hl b List.mem_cons_self
      rw [anyAdjacent, ih hl, Bool.or_false, Bool.and_eq_false_iff, decide_eq_false_iff_not,
        decide_eq_false_iff_not, not_not]
      by_cases hkey : a.key = b.key
      · exact .inr (h.canonical_eq (hmem a ha) (hmem b hb) (new_event_of_mem hprepared ha)
          (new_event_of_mem hprepared hb) hkey)
      · exact .inl hkey

/-- The events in key order are one list, whichever order they come in, and no other sort would find
another. -/
theorem order_events_canonical (hash : List UInt8 → Digest) (events : List DomainEvent)
    (hkeys : ∀ event ∈ events, ∃ key, OrderingKey.forEvent hash event = .ok key)
    (hfree : CollisionFree hash events) :
    ∃ ordered, orderEvents hash events = .ok ordered ∧ ordered.Perm events ∧ InOrder hash ordered ∧
      (∀ other, other.Perm events → orderEvents hash other = .ok ordered) ∧
      ∀ other, other.Perm events → InOrder hash other → other = ordered := by
  obtain ⟨prepared, hprepared⟩ := exists_prepareAll hkeys
  have hperm := prepared.perm_insertionSort keyBefore
  have hsorted := List.pairwise_insertionSort keyBefore prepared
  have hcollide := hfree.not_adjacent hprepared fun a ha => hperm.mem_iff.1 ha
  have hordered := orderEvents_ok.2 ⟨prepared, hprepared, hcollide, rfl⟩
  refine ⟨_, hordered, ?_, ⟨prepared.insertionSort keyBefore, ?_, hsorted⟩, fun other hother =>
    orderEvents_perm hother.symm hordered, fun other hother ⟨items, hitems, hpairwise⟩ => ?_⟩
  · rw [← map_event_of_prepareAll hprepared]
    exact hperm.map _
  · refine (prepareAll_ok _ _).2
      (List.forall₂_map_left_iff.2 (List.forall₂_same.2 fun item hitem => ?_))
    exact new_event_of_mem hprepared (hperm.mem_iff.1 hitem)
  · have hsame : items.Perm prepared := by
      obtain ⟨items', hrel, hperm'⟩ :=
        List.perm_comp_forall₂ hother ((prepareAll_ok _ _).1 hprepared)
      obtain rfl : items = items' := Except.ok.inj (hitems.symm.trans ((prepareAll_ok _ _).2 hrel))
      exact hperm'
    rw [← map_event_of_prepareAll hitems, eq_insertionSort hprepared hsame hpairwise hcollide]

theorem collisionFree_of_all {events : List DomainEvent}
    (h : (events.all fun a => events.all fun b =>
    match a.toCanonicalBytes, b.toCanonicalBytes with
    | .ok bytes, .ok bytes' => hash bytes ≠ hash bytes' || bytes = bytes'
    | _, _ => true) = true) : CollisionFree hash events := by
  intro a ha b hb bytes bytes' hbytes hbytes' hsame
  have hpair := List.all_eq_true.1 (List.all_eq_true.1 h a ha) b hb
  simpa [hbytes, hbytes', hsame] using hpair

/-- Three quotes, two of them alike: the order they come in does not show. -/
theorem order_events_of_three : ∃ ordered,
    orderEvents sampleHash
      [sampleQuote sampleInstrument firstDay 20, sampleQuote sampleInstrument firstDay 10,
      sampleQuote sampleInstrument firstDay 20] = .ok ordered ∧
    orderEvents sampleHash
      [sampleQuote sampleInstrument firstDay 20, sampleQuote sampleInstrument firstDay 20,
      sampleQuote sampleInstrument firstDay 10] = .ok ordered := by
  have hkeys :
      ∀ event ∈ [sampleQuote sampleInstrument firstDay 20, sampleQuote sampleInstrument firstDay 10,
      sampleQuote sampleInstrument firstDay 20],
      (OrderingKey.forEvent sampleHash event).isOk = true := by
    decide +kernel
  obtain ⟨ordered, hordered, -, -, hsame, -⟩ := order_events_canonical sampleHash _
    (fun event hevent => exists_of_isOk (hkeys event hevent))
      (collisionFree_of_all (by decide +kernel))
  exact ⟨ordered, hordered, hsame _ (List.Perm.cons _ (List.Perm.swap _ _ _))⟩

end Canonical

section Merge
variable (hash : List UInt8 → Digest) {core : ReplayCore} {factory : ReplayStreamFactory}

/-- A binding that the core takes, with the stream it opens. -/
structure Opens (core : ReplayCore) (factory : ReplayStreamFactory) (binding : ReplayStreamBinding)
    (stream : EventStream) :
    Prop where
  date : ∃ state, core.states[binding.instrument]? = some state ∧
      (state.tradingDate = binding.tradingDate ∨
      core.hasScheduledTradingDate binding.instrument binding.tradingDate = true)
  stream : factory binding = .ok stream

theorem openStreams_ok (bindings : List ReplayStreamBinding) (streams : List EventStream) :
    core.openStreams factory bindings = .ok streams ↔
    List.Forall₂ (Opens core factory) bindings streams := by
  induction bindings generalizing streams with
  | nil => simp [openStreams, eq_comm]
  | cons binding rest ih =>
    simp only [openStreams, bind_eq_ok, okOr_eq_ok, ensure_eq_ok, mapError_eq_ok, pure_eq_ok, ih,
      List.forall₂_cons_left_iff]
    refine ⟨?_, ?_⟩
    · rintro ⟨state, hstate, _, hdate, stream, hstream, opened, hopened, rfl⟩
      exact ⟨stream, opened, ⟨⟨state, hstate, hdate⟩, hstream⟩, hopened, rfl⟩
    · rintro ⟨stream, opened, ⟨⟨state, hstate, hdate⟩, hstream⟩, hopened, rfl⟩
      exact ⟨state, hstate, (), hdate, stream, hstream, opened, hopened, rfl⟩

theorem replayFrozenMultiWith_eq {γ τ : Type} {plan : ReplayPlan} {streams : List EventStream}
    (hopen : core.openStreams factory plan.bindings = .ok streams)
    (callback : ReplayCallback γ τ) (t : τ) :
    replayFrozenMultiWith hash plan factory callback (core, t) = (do
      each (commitPrepared hash callback) (streamTrace hash streams).1
      raiseFault (.replay ∘ HeadFault.replayError) (streamTrace hash streams).2) (core, t) := by
  unfold replayFrozenMultiWith
  rw [get_bind, lift_bind (a := streams) (by rw [hopen]; rfl), mergeStreams_eq]

/-- Streams in order: the replay is the commits of the sorted events one by one. -/
theorem replayFrozenMultiWith_sorted {γ τ : Type} {plan : ReplayPlan} {streams : List EventStream}
    (hopen : core.openStreams factory plan.bindings = .ok streams)
    (hclean : ∀ stream ∈ streams, stream.failure = none)
    (hsorted : ∀ stream ∈ streams, InOrder hash stream.events) {ordered : List DomainEvent}
    (hordered : orderEvents hash (streams.flatMap EventStream.events) = .ok ordered)
    (callback : ReplayCallback γ τ) (t : τ) :
    replayFrozenMultiWith hash plan factory callback (core, t) =
      each (commitWith hash callback) ordered (core, t) := by
  obtain ⟨sorted, htrace, rfl, hnew⟩ := streamTrace_sorted hclean hsorted hordered
  rw [replayFrozenMultiWith_eq hash hopen, htrace]
  simp only [raiseFault, bind_pure_unit]
  rw [each_commitPrepared hnew]

theorem openStreams_perm {bindings bindings' : List ReplayStreamBinding}
    (hperm : bindings'.Perm bindings)
    {streams : List EventStream} (hopen : core.openStreams factory bindings = .ok streams) :
    ∃ streams', core.openStreams factory bindings' = .ok streams' ∧ streams'.Perm streams := by
  obtain ⟨streams', hopen', hperm'⟩ := List.perm_comp_forall₂ hperm ((openStreams_ok _ _).1 hopen)
  exact ⟨streams', (openStreams_ok _ _).2 hopen', hperm'⟩

/-- A merge out of order is committed up to its first descent and then refused. -/
theorem replayFrozenMultiWith_regression {plan : ReplayPlan} {streams : List EventStream}
    (hopen : core.openStreams factory plan.bindings = .ok streams)
    (hclean : ∀ stream ∈ streams, stream.failure = none)
    (hkeys : ∀ stream ∈ streams, ∃ items, prepareAll hash stream.events = .ok items)
    (hregress : ∃ stream ∈ streams, ¬ InOrder hash stream.events) :
    ∃ (inOrder : List DomainEvent) (next : DomainEvent) (error : ReplayError),
      InOrder hash inOrder ∧ ¬ InOrder hash (inOrder ++ [next]) ∧
      (inOrder ++ [next]).Subperm (streams.flatMap EventStream.events) ∧
      (error = .globalOrderingRegression ∨ error = .canonicalEncoding .lengthOverflow ∧
        ∀ bytes, next.toCanonicalBytes = .ok bytes → 2 ^ 32 ≤ bytes.length) ∧
      ∀ {γ τ : Type} (callback : ReplayCallback γ τ), callback.KeepsCore → ∀ t,
        replayFrozenMultiWith hash plan factory callback (core, t) = (do
          each (commitWith hash callback) inOrder
          throw (FrozenReplayError.replay error)) (core, t) := by
  obtain ⟨sequences, hsequences⟩ :=
    exists_sequences fun stream hstream => ⟨hclean stream hstream, hkeys stream hstream⟩
  have hprepared := prepareAll_flatMap hsequences
  have hperm : (Merge.mergeAll PreparedOrderEvent.key sequences).Perm sequences.flatten :=
    Merge.mergeAll_perm sequences
  -- the stream that regresses is a part of the merge, so that the merge regresses too
  have hdescends : ¬ (Merge.mergeAll PreparedOrderEvent.key sequences).Pairwise keyBefore := by
    intro hsorted
    obtain ⟨stream, hstream, hnot⟩ := hregress
    obtain ⟨items, hitems, hmatch⟩ := (exists_stream hsequences).2 stream hstream
    exact hnot
      ⟨items, hmatch.items, hsorted.sublist (Merge.sublist_mergeAll sequences items hitems)⟩
  obtain ⟨before, last, next, rest, heq, hsorted, hdescent⟩ := Merge.exists_first_descent hdescends
  have hnew : ∀ item ∈ before ++ last :: next :: rest,
      PreparedOrderEvent.new hash item.event = .ok item :=
    fun item hitem => new_event_of_mem hprepared (hperm.mem_iff.1 (heq ▸ hitem))
  have hprepare : ∀ items : List PreparedOrderEvent,
      (∀ item ∈ items, item ∈ before ++ last :: next :: rest) →
      prepareAll hash (items.map PreparedOrderEvent.event) = .ok items := by
    intro items hitems
    rw [prepareAll_ok, List.forall₂_map_left_iff]
    exact List.forall₂_same.2 fun item hitem => hnew item (hitems item hitem)
  have hpart : (before ++ [last] ++ [next]).Sublist (before ++ last :: next :: rest) := by simp
  have hbefore :=
    hprepare (before ++ [last]) fun item hitem => hpart.mem (List.mem_append_left _ hitem)
  have hnext := hprepare (before ++ [last] ++ [next]) fun item hitem => hpart.mem hitem
  refine ⟨(before ++ [last]).map PreparedOrderEvent.event, next.event,
    refusal next.canonical .globalOrderingRegression, ⟨_, hbefore, hsorted⟩, ?_, ?_, ?_, ?_⟩
  · rintro ⟨items, hitems, hpairwise⟩
    rw [← List.map_singleton, ← List.map_append, hnext] at hitems
    rw [← Except.ok.inj hitems, List.append_assoc] at hpairwise
    have hpair := (List.pairwise_append.1 hpairwise).2.1
    exact hdescent ((List.pairwise_cons.1 hpair).1 next List.mem_cons_self)
  · rw [← List.map_singleton, ← List.map_append]
    refine (hpart.map _).subperm.trans (List.Perm.subperm ?_)
    rw [← heq, ← map_event_of_prepareAll hprepared]
    exact hperm.map _
  · unfold refusal
    split_ifs with hlength
    · exact .inl rfl
    · refine .inr ⟨rfl, fun bytes hbytes => ?_⟩
      have hcanonical :=
        (OrderingKey.forEventAndCanonical_ok
          (PreparedOrderEvent.new_ok.1 (hnew next (by simp))).1).2.1
      rw [Except.ok.inj (hbytes.symm.trans hcanonical)]
      exact not_lt.1 hlength
  · intro γ τ callback hkeeps t
    rw [replayFrozenMultiWith_eq hash hopen, streamTrace_clean hsequences, heq]
    rw [hkeeps.each_refused (hnew last (by simp)) fun core hkey _ => checkOrdered_refused
      (validateGlobalOrder_regression hkey (not_le.1 hdescent))]
    rw [each_commitPrepared fun item hitem => hnew item (hpart.mem (List.mem_append_left _ hitem))]
    simp only [bind_assoc]
    rfl

/-- Events that collide are not sorted, and the merge of their streams does not complete either. -/
theorem replayFrozenMultiWith_collision {γ τ : Type} {plan : ReplayPlan}
    {streams : List EventStream} (hopen : core.openStreams factory plan.bindings = .ok streams)
    (hclean : ∀ stream ∈ streams, stream.failure = none)
    (hsorted : ∀ stream ∈ streams, InOrder hash stream.events) {e : OrderingError}
    (hordered : orderEvents hash (streams.flatMap EventStream.events) = .error e)
    {callback : ReplayCallback γ τ} (hkeeps : callback.KeepsCore) (t : τ) (s : ReplayCore × τ) :
    replayFrozenMultiWith hash plan factory callback (core, t) ≠ .ok () s := by
  obtain ⟨sequences, hsequences⟩ := exists_sequences fun stream hstream =>
    ⟨hclean stream hstream, (hsorted stream hstream).imp fun _ hitems => hitems.1⟩
  have hprepared := prepareAll_flatMap hsequences
  have hperm : (Merge.mergeAll PreparedOrderEvent.key sequences).Perm sequences.flatten :=
    Merge.mergeAll_perm sequences
  have hmerged : (Merge.mergeAll PreparedOrderEvent.key sequences).Pairwise fun a b =>
      a.key ≤ b.key := by
    refine Merge.mergeAll_sorted sequences fun items hitems => ?_
    obtain ⟨stream, hstream, hmatch⟩ := (exists_stream hsequences).1 items hitems
    obtain ⟨items', hitems', hpairwise⟩ := hsorted stream hstream
    rw [Except.ok.inj (hmatch.items.symm.trans hitems')]
    exact hpairwise
  -- neighbours of the merge collide, for otherwise the sorted events would not either
  have hcollide : anyAdjacent (fun a b => a.key = b.key && a.canonical ≠ b.canonical)
      (Merge.mergeAll PreparedOrderEvent.key sequences) = true := by
    by_contra hnone
    have hsame := canonical_eq_of_key_eq hmerged (Bool.eq_false_iff.2 hnone)
    have hinsert := sequences.flatten.perm_insertionSort keyBefore
    have hfree : anyAdjacent (fun a b => a.key = b.key && a.canonical ≠ b.canonical)
        (sequences.flatten.insertionSort keyBefore) = false := by
      by_contra hsome
      obtain ⟨before, a, b, rest, heq, hab⟩ := exists_of_anyAdjacent (Bool.not_eq_false _ ▸ hsome)
      simp only [Bool.and_eq_true, decide_eq_true_eq] at hab
      have hmem : ∀ item ∈ before ++ a :: b :: rest,
          item ∈ Merge.mergeAll PreparedOrderEvent.key sequences :=
        fun item hitem => hperm.mem_iff.2 (hinsert.mem_iff.1 (heq ▸ hitem))
      exact hab.2 (hsame a (hmem a (by simp)) b (hmem b (by simp)) hab.1)
    have hok := orderEvents_ok.2 ⟨_, hprepared, hfree, rfl⟩
    rw [hordered] at hok
    cases hok
  obtain ⟨before, a, b, rest, heq, hab⟩ := exists_of_anyAdjacent hcollide
  simp only [Bool.and_eq_true, decide_eq_true_eq] at hab
  have hnew : PreparedOrderEvent.new hash a.event = .ok a :=
    new_event_of_mem hprepared (hperm.mem_iff.1 (by rw [heq]; simp))
  intro h
  rw [replayFrozenMultiWith_eq hash hopen, streamTrace_clean hsequences, heq,
    hkeeps.each_refused hnew fun core hkey hcanonical => checkOrdered_refused
      (validateGlobalOrder_collision (hab.1 ▸ hkey) hcanonical hab.2)] at h
  obtain ⟨_, _, h, -⟩ := (bind_ok _ _ _ _ _).1 h
  obtain ⟨_, _, -, h⟩ := (bind_ok _ _ _ _ _).1 h
  exact (throw_ok _ _ _ _).1 h

/-- Streams whose keys can be computed and that end cleanly. In order, they are replayed as the
sorted sequence of their events, as the batch replay of them does and in whatever order the bindings
are listed; if one of them regresses, an in-order part is committed and the event after it is
refused. -/
theorem streaming_replay_eq_batch (core : ReplayCore) (plan : ReplayPlan)
    (factory : ReplayStreamFactory)
    (streams : List EventStream) (hopen : core.openStreams factory plan.bindings = .ok streams)
    (hclean : ∀ stream ∈ streams, stream.failure = none)
    (hkeys : ∀ stream ∈ streams, ∃ items, prepareAll hash stream.events = .ok items) :
    let events := streams.flatMap EventStream.events
    ((∀ stream ∈ streams, InOrder hash stream.events) →
      (∀ ordered, orderEvents hash events = .ok ordered →
        ∀ {γ τ : Type} (callback : ReplayCallback γ τ) (t : τ),
        replayFrozenMultiWith hash plan factory callback (core, t) =
          each (commitWith hash callback) ordered (core, t) ∧
        (∀ plan' : ReplayPlan, plan'.bindings.Perm plan.bindings →
          replayFrozenMultiWith hash plan' factory callback (core, t) =
            replayFrozenMultiWith hash plan factory callback (core, t)) ∧
        (callback.KeepsCore → ∀ core' t',
          (replayFrozenMultiWith hash plan factory callback (core, t) = .ok () (core', t') →
            ReplayCore.replay hash events core = .ok () core') ∧
          ∀ fault, replayFrozenMultiWith hash plan factory callback (core, t) =
            .error (.replay fault) (core', t') →
            ReplayCore.replay hash events core = .error fault core')) ∧
      ∀ e, orderEvents hash events = .error e →
      ∀ {γ τ : Type} (callback : ReplayCallback γ τ), callback.KeepsCore →
        ∀ t s, replayFrozenMultiWith hash plan factory callback (core, t) ≠ .ok () s) ∧
    ((∃ stream ∈ streams, ¬ InOrder hash stream.events) →
      ∃ (inOrder : List DomainEvent) (next : DomainEvent) (error : ReplayError),
        InOrder hash inOrder ∧
        ¬ InOrder hash (inOrder ++ [next]) ∧ (inOrder ++ [next]).Subperm events ∧
        (error = .globalOrderingRegression ∨ error = .canonicalEncoding .lengthOverflow ∧
          ∀ bytes, next.toCanonicalBytes = .ok bytes → 2 ^ 32 ≤ bytes.length) ∧
        ∀ {γ τ : Type} (callback : ReplayCallback γ τ), callback.KeepsCore → ∀ t,
          replayFrozenMultiWith hash plan factory callback (core, t) = (do
            each (commitWith hash callback) inOrder
            throw (FrozenReplayError.replay error)) (core, t)) := by
  refine ⟨fun hsorted => ⟨fun ordered hordered γ τ callback t => ?_, ?_⟩,
    replayFrozenMultiWith_regression hash hopen hclean hkeys⟩
  · have hreplay := replayFrozenMultiWith_sorted hash hopen hclean hsorted hordered callback t
    refine ⟨hreplay, fun plan' hperm => ?_, fun hkeeps core' t' => ?_⟩
    · obtain ⟨streams', hopen', hperm'⟩ := openStreams_perm hperm hopen
      rw [hreplay]
      refine replayFrozenMultiWith_sorted hash hopen'
        (fun stream hstream => hclean stream (hperm'.mem_iff.1 hstream))
        (fun stream hstream => hsorted stream (hperm'.mem_iff.1 hstream)) ?_ callback t
      exact orderEvents_perm (hperm'.symm.flatMap_right _) hordered
    · have hbatch : ReplayCore.replay hash (streams.flatMap EventStream.events) core =
          ReplayCore.applyAll hash ordered core := by
        unfold ReplayCore.replay
        rw [lift_bind (a := ordered) (by rw [hordered]; rfl)]
      rw [hreplay, hbatch]
      exact ⟨hkeeps.each_ok ordered, fun fault => hkeeps.each_error ordered⟩
  · intro e hordered γ τ callback hkeeps t s
    exact replayFrozenMultiWith_collision hash hopen hclean hsorted hordered hkeeps t s

section Example

def sampleBinding (letter : UInt8) : ReplayStreamBinding where
  descriptorId := sampleHash [letter]
  instrument := sampleInstrument
  tradingDate := firstDay
  sourceRevisionIdentity := sampleHash []
  cacheIdentity := sampleHash []

def sampleStreams : List EventStream :=
  [⟨[sampleQuote sampleInstrument firstDay 10, sampleQuote sampleInstrument firstDay 30], none⟩,
    ⟨[sampleQuote sampleInstrument firstDay 20], none⟩]

/-- Quotes at 10 and 30 under one descriptor, and one at 20 under any other. -/
def sampleFactory : ReplayStreamFactory := fun binding =>
  .ok (if binding.descriptorId = sampleHash [1] then sampleStreams.getD 0 ⟨[], none⟩ else
    sampleStreams.getD 1 ⟨[], none⟩)

end Example

/-- The two sample streams are replayed as their three quotes in order. -/
theorem sample_streams_replayed : ∃ core, sampleCore = .ok core ∧
    replayFrozenMultiWith sampleHash ⟨[sampleBinding 1, sampleBinding 2]⟩ sampleFactory
      (fun _ _ => pure () : ReplayCallback Empty Unit) (core, ()) =
    each (commitWith sampleHash fun _ _ => pure ()) [sampleQuote sampleInstrument firstDay 10,
      sampleQuote sampleInstrument firstDay 20, sampleQuote sampleInstrument firstDay 30]
        (core, ()) := by
  obtain ⟨core, hcore⟩ := exists_of_isOk (x := sampleCore) (by decide +kernel)
  have hopen : sampleCore.toOption.map
      (fun core => core.openStreams sampleFactory [sampleBinding 1, sampleBinding 2]) =
      some (.ok sampleStreams) := by decide +kernel
  have hitems : (sampleStreams.map fun stream =>
      (prepareAll sampleHash stream.events).toOption.map fun items =>
      decide (items.Pairwise keyBefore)) = [some true, some true] := by decide +kernel
  have hordered : orderEvents sampleHash (sampleStreams.flatMap EventStream.events) =
      .ok [sampleQuote sampleInstrument firstDay 10, sampleQuote sampleInstrument firstDay 20,
        sampleQuote sampleInstrument firstDay 30] := by decide +kernel
  rw [hcore] at hopen
  have hsorted : ∀ stream ∈ sampleStreams, InOrder sampleHash stream.events := by
    intro stream hstream
    have hstream' : (prepareAll sampleHash stream.events).toOption.map
        (fun items => decide (items.Pairwise keyBefore)) ∈
        [some true, some true] := hitems ▸ List.mem_map_of_mem hstream
    cases hprepared : prepareAll sampleHash stream.events with
    | error e => simp [hprepared, Except.toOption] at hstream'
    | ok items => exact ⟨items, hprepared, by simpa [hprepared, Except.toOption] using hstream'⟩
  have h := streaming_replay_eq_batch sampleHash core
    ⟨[sampleBinding 1, sampleBinding 2]⟩ sampleFactory sampleStreams
    (Option.some.inj hopen) (by decide) fun stream hstream =>
      (hsorted stream hstream).imp fun _ hprepared => hprepared.1
  exact ⟨core, hcore, ((h.1 hsorted).1 _ hordered _ ()).1⟩

end Merge

end Osmium
