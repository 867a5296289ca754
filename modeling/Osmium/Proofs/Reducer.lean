import Osmium.Proofs.Replay
import Osmium.Sanity.Codec
import Osmium.Sanity.Reducer

/-! Runs of the reducer. A stream in replay order is never refused for its order, and the auction
observations of the state obey the rule of `fromParts` exactly as long as no round merges a
direction with a scheduled purpose. -/

namespace Osmium
open Machine Bytes Result

/-- An event with the context it is reduced in. -/
abbrev ReducerInput := DomainEvent × ReducerContext

namespace MarketStateReducer

/-- The state after an event was offered: a refused event leaves it as it was. -/
def offer (hash : List UInt8 → Digest) (self : MarketStateReducer) (state : MarketState)
    (input : ReducerInput) : MarketState :=
  match self.apply hash state input.1 input.2 with
  | .ok (next, _) => next
  | .error _ => state

end MarketStateReducer

section Ordering
variable {hash : List UInt8 → Digest} {reducer : MarketStateReducer}

/-- The last event of the state is one of the events offered so far. -/
def RefersTo (hash : List UInt8 → Digest) (offered : List ReducerInput)
    (state : MarketState) : Prop :=
  ∀ previous ∈ state.lastEvent, ∃ input ∈ offered, input.1.instrument = state.instrument ∧
    AppliedEventRef.fromEvent hash input.1 = .ok previous

theorem RefersTo.offer (reducer : MarketStateReducer) {offered : List ReducerInput}
    {state : MarketState} (h : RefersTo hash offered state) (input : ReducerInput) :
    RefersTo hash (offered ++ [input]) (reducer.offer hash state input) := by
  unfold MarketStateReducer.offer
  cases happly : reducer.apply hash state input.1 input.2 with
  | error e =>
    intro previous hprevious
    obtain ⟨other, hother, hfacts⟩ := h previous hprevious
    exact ⟨other, List.mem_append_left _ hother, hfacts⟩
  | ok result =>
    obtain ⟨next, receipt⟩ := result
    obtain ⟨eventRef, draft, version, hown, -, href, -, hnext, hinstrument, -⟩ :=
      MarketStateReducer.apply_ok happly
    intro previous hprevious
    have hlast : next.lastEvent = some eventRef := by rw [hnext]
    obtain rfl := Option.some.inj (hlast.symm.trans hprevious)
    exact ⟨input, List.mem_append_right _ (List.mem_singleton_self _),
      hown.trans hinstrument.symm, href⟩

theorem RefersTo.offers (reducer : MarketStateReducer) {offered : List ReducerInput}
    {state : MarketState} (h : RefersTo hash offered state) (inputs : List ReducerInput) :
    RefersTo hash (offered ++ inputs) (inputs.foldl (reducer.offer hash) state) := by
  induction inputs generalizing offered state with
  | nil =>
    rw [List.append_nil]
    exact h
  | cons input rest ih =>
    have hrest := ih (RefersTo.offer reducer h input)
    rwa [List.append_assoc] at hrest

/-- A stream in key order, said about its events. -/
theorem pairwise_of_keys {stream : List ReducerInput} {keys : List OrderingKey}
    (hkeys :
      List.Forall₂ (fun input key => OrderingKey.forEvent hash input.1 = .ok key) stream keys)
    (hsorted : keys.Pairwise (· ≤ ·)) :
    stream.Pairwise fun a b => ∃ ka kb, OrderingKey.forEvent hash a.1 = .ok ka ∧
      OrderingKey.forEvent hash b.1 = .ok kb ∧ ka ≤ kb := by
  induction hkeys with
  | nil => exact .nil
  | @cons a ka stream keys ha hrest ih =>
    obtain ⟨hfirst, hsorted⟩ := List.pairwise_cons.1 hsorted
    refine .cons (fun b hb => ?_) (ih hsorted)
    obtain ⟨i, hi, rfl⟩ := List.mem_iff_getElem.1 hb
    have hi' : i < keys.length := hrest.length_eq ▸ hi
    exact ⟨ka, keys[i], ha, hrest.get hi hi', hfirst _ (List.getElem_mem hi')⟩

/-- An event that does not come before the last one is not refused for its order. -/
theorem ordered_accepted {offered : List ReducerInput} {state : MarketState} {event : DomainEvent}
    {context : ReducerContext} (hrefers : RefersTo hash offered state)
    (hafter : ∀ input ∈ offered, ∃ ka kb, OrderingKey.forEvent hash input.1 = .ok ka ∧
      OrderingKey.forEvent hash event = .ok kb ∧ ka ≤ kb) :
    reducer.apply hash state event context ≠ .error .orderingRegression ∧
      reducer.apply hash state event context ≠ .error .matchTimeRegression := by
  refine ⟨fun h => ?_, fun h => ?_⟩
  · rcases MarketStateReducer.apply_error h with
      h | ⟨h, -⟩ | h | ⟨-, hown, ref, href, previous, hprevious, hlt⟩ | ⟨_, -, h⟩
    · exact h
    · cases h
    · exact failsIn_validateRealtimeShape event _ h
    · obtain ⟨input, hinput, hinstrument, hfrom⟩ := hrefers previous hprevious
      obtain ⟨ka, kb, hka, hkb, hle⟩ := hafter input hinput
      rw [compareWithinInstrument_eq_compare (hown.trans hinstrument.symm) hkb hka href hfrom]
        at hlt
      exact absurd (compare_lt_iff_lt.1 hlt) (not_lt.2 hle)
    · exact MarketStateReducer.failsIn_applyPayload _ _ _ _ _ h
  · rcases MarketStateReducer.apply_error h with
      h | ⟨-, hown, lastTime, hlast, hlt⟩ | h | ⟨h, -⟩ | ⟨_, -, h⟩
    · exact h
    · obtain ⟨previous, hprevious, rfl⟩ := Option.map_eq_some_iff.1 hlast
      obtain ⟨input, hinput, -, hfrom⟩ := hrefers previous hprevious
      obtain ⟨ka, kb, hka, hkb, hle⟩ := hafter input hinput
      obtain ⟨_, -, rfl⟩ := OrderingKey.forEvent_ok hka
      obtain ⟨_, -, rfl⟩ := OrderingKey.forEvent_ok hkb
      obtain ⟨_, -, rfl⟩ := AppliedEventRef.fromEvent_ok hfrom
      exact hlt (OrderingKey.matchTime_le hle)
    · exact failsIn_validateRealtimeShape event _ h
    · cases h
    · exact MarketStateReducer.failsIn_applyPayload _ _ _ _ _ h

/-- The replay orders events of one instrument as the reducer does, so that the reducer never
refuses an event of a stream in replay order because of its order, whatever else it refuses. -/
theorem ordering_agreement (hash : List UInt8 → Digest) :
    (∀ (a b : DomainEvent) (ka kb : OrderingKey), a.instrument = b.instrument →
      OrderingKey.forEvent hash a = .ok ka → OrderingKey.forEvent hash b = .ok kb →
      ∃ ra rb, AppliedEventRef.fromEvent hash a = .ok ra ∧
      AppliedEventRef.fromEvent hash b = .ok rb ∧
        compareWithinInstrument ra rb = compare ka kb) ∧
    ∀ (reducer : MarketStateReducer) (instrument : InstrumentId) (tradingDate : TradingDate)
    (stream : List ReducerInput)
      (keys : List OrderingKey),
      List.Forall₂ (fun input key => OrderingKey.forEvent hash input.1 = .ok key) stream keys →
      keys.Pairwise (· ≤ ·) →
      ∀ before event context rest, stream = before ++ (event, context) :: rest →
        let state := before.foldl (reducer.offer hash) (MarketState.new instrument tradingDate)
        reducer.apply hash state event context ≠ .error .orderingRegression ∧
          reducer.apply hash state event context ≠ .error .matchTimeRegression := by
  refine ⟨fun a b ka kb hinstrument hka hkb => ?_, ?_⟩
  · obtain ⟨ra, hra⟩ := exists_fromEvent hka
    obtain ⟨rb, hrb⟩ := exists_fromEvent hkb
    exact ⟨ra, rb, hra, hrb, compareWithinInstrument_eq_compare hinstrument hka hkb hra hrb⟩
  intro reducer instrument tradingDate stream keys hkeys hsorted before event context rest hstream
  have hrefers : RefersTo hash before
      (before.foldl (reducer.offer hash) (MarketState.new instrument tradingDate)) :=
    RefersTo.offers reducer (fun _ hnone => absurd hnone (by simp [MarketState.new]) :
      RefersTo hash [] _) before
  refine ordered_accepted hrefers fun input hinput => ?_
  have hpairwise := pairwise_of_keys hkeys hsorted
  rw [hstream] at hpairwise
  exact (List.pairwise_append.1 hpairwise).2.2 input hinput (event, context) List.mem_cons_self

end Ordering

section Auctions

/-- The auction observation an event carries, in its market signal or as an indicative auction. -/
def EventPayload.auction (payload : EventPayload) : Option AuctionObservation :=
  match payload.marketSignal with
  | .set signal => signal.auction
  | _ => none

/-- Every auction observation the state holds obeys the rule of `fromParts`. -/
structure MarketState.AuctionsWellFormed (state : MarketState) : Prop where
  signal : ∀ signal ∈ state.marketSignal.known?, signal.WellFormed
  phase : ∀ auction, state.phase.known? = some (.auction auction) → auction.observation.WellFormed
  indicative : ∀ auction ∈ state.indicativeAuction.known?, auction.observation.WellFormed

/-- Merging an observation of the same round joins no known direction to a scheduled purpose. -/
def MergesWell (previous current : AuctionObservation) : Prop :=
  startsNewAuction previous current = false →
    (current.direction = .noObservation → previous.direction.isKnown = true →
      current.purpose.isScheduledPurpose = false) ∧
    (current.purpose = .noObservation → previous.purpose.isScheduledPurpose = true →
      current.direction.isKnown = false)

/-- What an event may bring to the running round: an observation that obeys the rule and merges
well. -/
def RoundKept (hash : List UInt8 → Digest) (state : MarketState) (event : DomainEvent)
    (context : ReducerContext) : Prop :=
  ∀ observation ∈ event.payload.auction, observation.WellFormed ∧
    ∀ eventRef, AppliedEventRef.fromEvent hash event = .ok eventRef →
      ∀ previous ∈
        currentAuctionObservation (MarketStateReducer.enterSegment state context eventRef).next,
        MergesWell previous observation

@[simp] theorem isKnown_noObservation {α : Type} :
    (AuctionEvidence.noObservation : AuctionEvidence α).isKnown = false := rfl

@[simp] theorem isKnown_known {α : Type} (value : α) :
    (AuctionEvidence.known value).isKnown = true := rfl

@[simp] theorem isKnown_unknown {α : Type} :
    (AuctionEvidence.unknown : AuctionEvidence α).isKnown = false := rfl

@[simp] theorem isScheduledPurpose_noObservation :
    AuctionEvidence.noObservation.isScheduledPurpose = false := rfl

@[simp] theorem isScheduledPurpose_unknown :
    AuctionEvidence.unknown.isScheduledPurpose = false := rfl

theorem wellFormed_merge {previous current : AuctionObservation} (h : previous.WellFormed)
    (hsame : startsNewAuction previous current = false) :
    (current.merge previous).WellFormed ↔ current.WellFormed ∧ MergesWell previous current := by
  unfold MergesWell
  simp only [hsame, forall_const]
  unfold AuctionObservation.WellFormed AuctionObservation.merge at *
  -- what is observed now wins, so only an omitted field takes the earlier value
  cases hd : current.direction with
  | noObservation =>
    cases hp : current.purpose with
    | noObservation => simpa [mergeEvidence] using h
    | known purpose => cases hq : previous.direction.isKnown <;> simp [mergeEvidence, hq]
    | unknown => simp [mergeEvidence]
  | known direction =>
    cases hp : current.purpose with
    | noObservation => cases hq : previous.purpose.isScheduledPurpose <;> simp [mergeEvidence, hq]
    | known purpose => simp [mergeEvidence]
    | unknown => simp [mergeEvidence]
  | unknown => simp [mergeEvidence]

theorem wellFormed_mergeWithCurrentAuction {state : MarketState}
    (h : ∀ previous ∈ currentAuctionObservation state,
    previous.WellFormed) (observation : AuctionObservation) :
    (mergeWithCurrentAuction state observation).WellFormed ↔
      observation.WellFormed ∧ ∀ previous ∈ currentAuctionObservation state,
        MergesWell previous observation := by
  unfold mergeWithCurrentAuction
  cases hcurrent : currentAuctionObservation state with
  | none => simp
  | some previous =>
    simp only [Option.mem_def, Option.some.injEq, forall_eq']
    by_cases hnew : startsNewAuction previous observation = true
    · rw [if_pos hnew]
      refine ⟨fun hw => ⟨hw, fun hsame => ?_⟩, fun hw => hw.1⟩
      rw [hnew] at hsame
      cases hsame
    · rw [if_neg hnew]
      exact wellFormed_merge (h previous hcurrent) (Bool.not_eq_true _ ▸ hnew)

theorem MarketState.AuctionsWellFormed.current {state : MarketState}
    (h : state.AuctionsWellFormed) :
    ∀ previous ∈ currentAuctionObservation state, previous.WellFormed := by
  intro previous hprevious
  unfold currentAuctionObservation at hprevious
  split at hprevious
  · next auction hphase =>
    obtain rfl := Option.some.inj hprevious
    exact h.phase auction hphase
  · obtain ⟨auction, hauction, rfl⟩ := Option.map_eq_some_iff.1 hprevious
    exact h.indicative auction hauction
  · obtain ⟨auction, hauction, rfl⟩ := Option.map_eq_some_iff.1 hprevious
    exact h.indicative auction hauction
  · obtain ⟨auction, hauction, rfl⟩ := Option.map_eq_some_iff.1 hprevious
    exact h.indicative auction hauction

theorem MarketState.AuctionsWellFormed.cleared {draft : Draft} (h : draft.next.AuctionsWellFormed)
    (clearedAt : AppliedEventRef) :
    (draft.clearIndicativeAuction clearedAt).next.AuctionsWellFormed := by
  unfold Draft.clearIndicativeAuction
  split
  · exact ⟨h.signal, h.phase, fun _ => nofun⟩
  · exact ⟨h.signal, h.phase, fun _ => nofun⟩
  · exact h

theorem MarketState.AuctionsWellFormed.entered {state : MarketState} (h : state.AuctionsWellFormed)
    (context : ReducerContext) (eventRef : AppliedEventRef) :
    (MarketStateReducer.enterSegment state context eventRef).next.AuctionsWellFormed := by
  unfold MarketStateReducer.enterSegment
  dsimp only
  split_ifs
  · exact h
  · split
    · exact ⟨fun _ => nofun, fun _ => nofun, fun _ => nofun⟩
    · have hdraft : (⟨state, ∅, ∅, none⟩ : Draft).next.AuctionsWellFormed := h
      have hcleared := hdraft.cleared eventRef
      exact ⟨hcleared.signal, hcleared.phase, hcleared.indicative⟩
    · exact ⟨h.signal, h.phase, h.indicative⟩

/-- Two states with the same auction fields. -/
structure SameAuctions (a b : MarketState) : Prop where
  signal : a.marketSignal = b.marketSignal
  phase : a.phase = b.phase
  indicative : a.indicativeAuction = b.indicativeAuction

theorem SameAuctions.wellFormed {a b : MarketState} (h : SameAuctions a b) :
    a.AuctionsWellFormed ↔ b.AuctionsWellFormed := by
  refine ⟨fun hw => ⟨?_, ?_, ?_⟩, fun hw => ⟨?_, ?_, ?_⟩⟩
  · exact h.signal ▸ hw.signal
  · exact h.phase ▸ hw.phase
  · exact h.indicative ▸ hw.indicative
  · exact h.signal.symm ▸ hw.signal
  · exact h.phase.symm ▸ hw.phase
  · exact h.indicative.symm ▸ hw.indicative

theorem SameAuctions.current {a b : MarketState} (h : SameAuctions a b) :
    currentAuctionObservation a = currentAuctionObservation b := by
  unfold currentAuctionObservation
  rw [h.phase, h.indicative]

theorem SameAuctions.applyVolumeObservation {reducer : MarketStateReducer} {draft after : Draft}
    {observation : Observation Volume} {eventRef : AppliedEventRef} {comparePrevious : Bool}
    (h : reducer.applyVolumeObservation draft observation eventRef comparePrevious = .ok after) :
    SameAuctions after.next draft.next := by
  unfold MarketStateReducer.applyVolumeObservation at h
  cases observation with
  | noObservation =>
    obtain rfl := Except.ok.inj h
    exact ⟨rfl, rfl, rfl⟩
  | set volume =>
    simp only [bind_eq_ok, pure_eq_ok] at h
    obtain ⟨_, -, rfl⟩ := h
    exact ⟨rfl, rfl, rfl⟩
  | clear =>
    obtain rfl := Except.ok.inj h
    exact ⟨rfl, rfl, rfl⟩
  | unknown raw =>
    obtain rfl := Except.ok.inj h
    exact ⟨rfl, rfl, rfl⟩

theorem SameAuctions.trans {a b c : MarketState} (h : SameAuctions a b) (h' : SameAuctions b c) :
    SameAuctions a c :=
  ⟨h.signal.trans h'.signal, h.phase.trans h'.phase, h.indicative.trans h'.indicative⟩

theorem SameAuctions.applyTradeObservation (draft : Draft) (observation : Observation ObservedTrade)
    (eventRef : AppliedEventRef) :
    SameAuctions (draft.applyTradeObservation observation eventRef).next draft.next := by
  cases observation with
  | noObservation => exact ⟨rfl, rfl, rfl⟩
  | set trade => exact ⟨rfl, rfl, rfl⟩
  | clear => exact ⟨rfl, rfl, rfl⟩
  | unknown raw => exact ⟨rfl, rfl, rfl⟩

/-- Only an indicative auction is written by its payload; everything else comes with the market
signal. -/
theorem applyPayload_auctions {reducer : MarketStateReducer} {draft after : Draft}
    {payload : EventPayload} {eventRef : AppliedEventRef} {comparePrevious : Bool}
    (h : reducer.applyPayload draft payload eventRef comparePrevious = .ok after) :
    SameAuctions after.next draft.next ∨ ∃ auction, payload = .indicativeAuction auction ∧
    SameAuctions after.next
      { draft.next with
        indicativeAuction :=
          .known (auction.withObservation (mergeWithCurrentAuction draft.next auction.observation))
            eventRef } := by
  cases payload with
  | quoteSnapshot snapshot =>
    have hvolume := SameAuctions.applyVolumeObservation h
    exact .inl (hvolume.trans ((SameAuctions.applyTradeObservation _ _ _).trans ⟨rfl, rfl, rfl⟩))
  | bookSnapshot snapshot =>
    obtain rfl := Except.ok.inj h
    exact .inl ⟨rfl, rfl, rfl⟩
  | tradeBatch batch =>
    have hvolume := SameAuctions.applyVolumeObservation h
    exact .inl (hvolume.trans ⟨rfl, rfl, rfl⟩)
  | indicativeAuction auction =>
    obtain rfl := Except.ok.inj h
    exact .inr ⟨auction, rfl, rfl, rfl, rfl⟩
  | marketStatus status => exact .inl (SameAuctions.applyVolumeObservation h)

theorem phase_wellFormed {signal : MarketSignal} (h : signal.WellFormed) {auction : AuctionState}
    (hphase : postMarketPhase signal = some (.auction auction)) :
    auction.observation.WellFormed := by
  cases signal with
  | continuous => cases hphase
  | closed => cases hphase
  | auctionCollecting observation =>
    obtain rfl : AuctionState.mk observation = auction := by simpa [postMarketPhase] using hphase
    exact h observation rfl
  | auctionUncross observation =>
    simp only [postMarketPhase] at hphase
    split at hphase
    · cases hphase
    · cases hphase
    · cases hphase
    · obtain rfl : AuctionState.mk (nextPeriodicAuctionRound observation) = auction := by
        simpa using hphase
      rfl
    · cases hphase
    · cases hphase

/-- The phase a resolved signal leads to. -/
def phaseField (signal : MarketSignal) (eventRef : AppliedEventRef) : StateField MarketPhase :=
  match postMarketPhase signal with
  | some phase => .known phase eventRef
  | none => .unknown (.text auctionPurposeUnavailable) eventRef

/-- A signal is written as it was resolved, beside the phase it leads to. -/
theorem applyMarketSignal_set {draft : Draft} (signal : MarketSignal) (eventRef : AppliedEventRef)
    (h : ∀ auction ∈ draft.next.indicativeAuction.known?, auction.observation.WellFormed) :
    (draft.applyMarketSignal (.set signal) eventRef).next.AuctionsWellFormed ↔
    (draft.resolveSignal signal).WellFormed := by
  have hindicative : ∀ auction ∈
      (draft.applyMarketSignal (.set signal) eventRef).next.indicativeAuction.known?,
      auction.observation.WellFormed := by
    have hcleared :
        ∀ auction ∈ (draft.clearIndicativeAuction eventRef).next.indicativeAuction.known?,
        auction.observation.WellFormed := by
      unfold Draft.clearIndicativeAuction
      split
      · exact fun _ hnone => by cases hnone
      · exact fun _ hnone => by cases hnone
      · exact h
    cases signal with
    | continuous => exact hcleared
    | closed => exact hcleared
    | auctionCollecting observation => exact h
    | auctionUncross observation => exact hcleared
  have hsignal : (draft.applyMarketSignal (.set signal) eventRef).next.marketSignal =
      .known (draft.resolveSignal signal) eventRef := rfl
  have hphase : (draft.applyMarketSignal (.set signal) eventRef).next.phase =
      phaseField (draft.resolveSignal signal) eventRef := rfl
  refine ⟨fun hw => hw.signal _ (by rw [hsignal]; rfl), fun hw => ⟨?_, ?_, hindicative⟩⟩
  · intro other hother
    rw [hsignal] at hother
    obtain rfl := Option.some.inj hother
    exact hw
  · intro auction hauction
    rw [hphase] at hauction
    cases hpost : postMarketPhase (draft.resolveSignal signal) with
    | none => simp [phaseField, hpost, StateField.known?] at hauction
    | some phase =>
      simp only [phaseField, hpost, StateField.known?, Option.some.injEq] at hauction
      subst hauction
      exact phase_wellFormed hw hpost

theorem resolveSignal_wellFormed (draft : Draft) (signal : MarketSignal) :
    (draft.resolveSignal signal).WellFormed ↔
    ∀ observation ∈ signal.auction,
      (mergeWithCurrentAuction draft.next observation).WellFormed := by
  cases signal with
  | continuous => simp [Draft.resolveSignal, MarketSignal.WellFormed, MarketSignal.auction]
  | closed => simp [Draft.resolveSignal, MarketSignal.WellFormed, MarketSignal.auction]
  | auctionCollecting observation =>
    simp [Draft.resolveSignal, MarketSignal.WellFormed, MarketSignal.auction]
  | auctionUncross observation =>
    simp [Draft.resolveSignal, MarketSignal.WellFormed, MarketSignal.auction]

theorem mergeEvidence_self {α : Type} (prior current : AuctionEvidence α) :
    mergeEvidence (mergeEvidence prior current) current = mergeEvidence prior current := by
  cases current with
  | noObservation => rfl
  | known value => rfl
  | unknown => rfl

/-- Merging once more with the outcome of a merge changes nothing. -/
theorem merge_merge (observation previous : AuctionObservation) :
    observation.merge (observation.merge previous) = observation.merge previous := by
  simp [AuctionObservation.merge, mergeEvidence_self]

theorem merge_self (observation : AuctionObservation) :
    observation.merge observation = observation := by
  have h (α : Type) (evidence : AuctionEvidence α) :
      mergeEvidence evidence evidence = evidence := by
    cases evidence with
    | noObservation => rfl
    | known value => rfl
    | unknown => rfl
  simp [AuctionObservation.merge, h]

theorem startsNewAuction_self (observation : AuctionObservation) :
    startsNewAuction observation observation = false := by
  unfold startsNewAuction
  cases observation.purpose with
  | noObservation => rfl
  | known purpose => simp
  | unknown => rfl

theorem startsNewAuction_merge (observation previous : AuctionObservation) :
    startsNewAuction (observation.merge previous) observation = false := by
  unfold startsNewAuction AuctionObservation.merge
  cases observation.purpose with
  | noObservation => cases previous.purpose <;> rfl
  | known purpose => simp [mergeEvidence]
  | unknown => rfl

/-- An indicative auction is merged twice, into its own field and into the signal it stands for,
with one outcome. -/
theorem mergeWithCurrentAuction_indicative {state after : MarketState} {auction : IndicativeAuction}
    {eventRef : AppliedEventRef} (h : SameAuctions after { state with
      indicativeAuction :=
        .known (auction.withObservation (mergeWithCurrentAuction state auction.observation))
          eventRef }) :
    mergeWithCurrentAuction after auction.observation =
      mergeWithCurrentAuction state auction.observation := by
  have hcurrent := h.current
  by_cases hphase : ∃ running, state.phase.known? = some (.auction running)
  · obtain ⟨running, hrunning⟩ := hphase
    have hsame : currentAuctionObservation after = currentAuctionObservation state := by
      rw [hcurrent]
      simp [currentAuctionObservation, hrunning]
    unfold mergeWithCurrentAuction
    rw [hsame]
  · -- no round is running, so the second merge is with the outcome of the first
    have hmerged : currentAuctionObservation after =
        some (mergeWithCurrentAuction state auction.observation) := by
      rw [hcurrent]
      unfold currentAuctionObservation
      split
      · next running hrunning => exact absurd ⟨running, hrunning⟩ hphase
      · rfl
      · rfl
      · rfl
    rw [mergeWithCurrentAuction, hmerged]
    unfold mergeWithCurrentAuction
    cases currentAuctionObservation state with
    | none =>
      simp only [startsNewAuction_self, Bool.false_eq_true, if_false]
      exact merge_self _
    | some previous =>
      simp only []
      by_cases hnew : startsNewAuction previous auction.observation = true
      · simp only [if_pos hnew, startsNewAuction_self, Bool.false_eq_true, if_false]
        exact merge_self _
      · simp only [if_neg hnew, startsNewAuction_merge, Bool.false_eq_true, if_false]
        exact merge_merge _ _

/-- A reduced event keeps the rule exactly when it may be brought to the running round. -/
theorem auctionsWellFormed_apply {hash : List UInt8 → Digest} {reducer : MarketStateReducer}
    {state next : MarketState}
    {event : DomainEvent} {context : ReducerContext} {receipt : TransitionReceipt}
    (h : reducer.apply hash state event context = .ok (next, receipt))
    (hstate : state.AuctionsWellFormed) :
    next.AuctionsWellFormed ↔ RoundKept hash state event context := by
  obtain ⟨eventRef, draft, version, -, -, href, hdraft, hnext, -, -⟩ :=
    MarketStateReducer.apply_ok h
  have hsame :
      SameAuctions next (draft.applyMarketSignal event.payload.marketSignal eventRef).next := by
    rw [hnext]
    exact ⟨rfl, rfl, rfl⟩
  rw [hsame.wellFormed]
  have hentered := hstate.entered context eventRef
  have hkept : RoundKept hash state event context ↔ ∀ observation ∈ event.payload.auction,
      (mergeWithCurrentAuction (MarketStateReducer.enterSegment state context eventRef).next
        observation).WellFormed := by
    unfold RoundKept
    refine forall₂_congr fun observation _ => ?_
    rw [wellFormed_mergeWithCurrentAuction hentered.current]
    simp [href]
  rw [hkept]
  rcases applyPayload_auctions hdraft with hpayload | ⟨auction, hauction, hpayload⟩
  · have hdraft := hpayload.wellFormed.2 hentered
    have hmerge : ∀ observation, mergeWithCurrentAuction draft.next observation =
        mergeWithCurrentAuction (MarketStateReducer.enterSegment state context eventRef).next
          observation := by
      intro observation
      unfold mergeWithCurrentAuction
      rw [hpayload.current]
    cases hsignal : event.payload.marketSignal with
    | noObservation =>
      simp only [EventPayload.auction, hsignal, Option.mem_def, reduceCtorEq, false_implies,
        implies_true, iff_true]
      exact hdraft
    | clear =>
      simp only [EventPayload.auction, hsignal, Option.mem_def, reduceCtorEq, false_implies,
        implies_true, iff_true]
      exact ⟨fun _ => nofun, fun _ => nofun, hdraft.indicative⟩
    | unknown raw =>
      simp only [EventPayload.auction, hsignal, Option.mem_def, reduceCtorEq, false_implies,
        implies_true, iff_true]
      exact ⟨fun _ => nofun, fun _ => nofun, hdraft.indicative⟩
    | set signal =>
      rw [applyMarketSignal_set signal eventRef hdraft.indicative, resolveSignal_wellFormed]
      simp only [EventPayload.auction, hsignal, hmerge]
  · have hsignal : event.payload.marketSignal = .set (.auctionCollecting auction.observation) := by
      rw [hauction]; rfl
    have hobservation : event.payload.auction = some auction.observation := by
      rw [EventPayload.auction, hsignal]; rfl
    have hmerge := mergeWithCurrentAuction_indicative hpayload
    rw [hsignal, hobservation]
    simp only [Option.mem_def, Option.some.injEq, forall_eq']
    by_cases hmerged :
      (mergeWithCurrentAuction (MarketStateReducer.enterSegment state context eventRef).next
        auction.observation).WellFormed
    · refine iff_of_true ?_ hmerged
      refine (applyMarketSignal_set _ _ fun other hother => ?_).2
        ((resolveSignal_wellFormed _ _).2 fun other hother => ?_)
      · rw [hpayload.indicative] at hother
        obtain rfl := Option.some.inj hother
        exact hmerged
      · obtain rfl := Option.some.inj hother
        rwa [hmerge]
    · refine iff_of_false (fun hw => hmerged ?_) hmerged
      have hwritten :=
        hw.signal (.auctionCollecting (mergeWithCurrentAuction draft.next auction.observation)) rfl
      rw [hmerge] at hwritten
      exact hwritten _ rfl

namespace MarketStateReducer

/-- Reduces events one after the other, as long as none is refused. -/
def applyAll (hash : List UInt8 → Digest) (self : MarketStateReducer) :
    List ReducerInput → MarketState → Except StateTransitionError MarketState
  | [], state => .ok state
  | input :: rest, state => do
    let (next, _) ← self.apply hash state input.1 input.2
    applyAll hash self rest next

variable {hash : List UInt8 → Digest} {self : MarketStateReducer}

theorem applyAll_append (inputs rest : List ReducerInput) (state final : MarketState) :
    self.applyAll hash (inputs ++ rest) state = .ok final ↔
      ∃ mid, self.applyAll hash inputs state = .ok mid ∧
      self.applyAll hash rest mid = .ok final := by
  induction inputs generalizing state with
  | nil => simp [applyAll]
  | cons input inputs ih =>
    simp only [List.cons_append, applyAll, bind_eq_ok, ih]
    refine ⟨fun h => ?_, fun h => ?_⟩
    · obtain ⟨a, ha, mid, hmid, hrest⟩ := h
      exact ⟨mid, ⟨a, ha, hmid⟩, hrest⟩
    · obtain ⟨mid, ⟨a, ha, hmid⟩, hrest⟩ := h
      exact ⟨a, ha, mid, hmid, hrest⟩

end MarketStateReducer

/-- In a run from the initial state, the auction observations of every state reached obey the rule
exactly when every event reduced may be brought to the round running at that time. -/
theorem auction_observations_valid_iff (hash : List UInt8 → Digest) (reducer : MarketStateReducer)
    (instrument : InstrumentId)
    (tradingDate : TradingDate) (inputs : List ReducerInput) (final : MarketState)
    (hrun : reducer.applyAll hash inputs (MarketState.new instrument tradingDate) = .ok final) :
    (∀ before rest state, inputs = before ++ rest →
      reducer.applyAll hash before (MarketState.new instrument tradingDate) = .ok state →
      state.AuctionsWellFormed) ↔
    ∀ before event context rest state, inputs = before ++ (event, context) :: rest →
      reducer.applyAll hash before (MarketState.new instrument tradingDate) = .ok state →
      RoundKept hash state event context := by
  have hnext : ∀ before event context rest state, inputs = before ++ (event, context) :: rest →
      reducer.applyAll hash before (MarketState.new instrument tradingDate) = .ok state →
      ∃ next receipt, reducer.apply hash state event context = .ok (next, receipt) ∧
        reducer.applyAll hash (before ++ [(event, context)])
          (MarketState.new instrument tradingDate) = .ok next := by
    intro before event context rest state hinputs hstate
    rw [hinputs] at hrun
    obtain ⟨mid, hmid, hrest⟩ := (MarketStateReducer.applyAll_append _ _ _ _).1 hrun
    obtain rfl := Except.ok.inj (hstate.symm.trans hmid)
    simp only [MarketStateReducer.applyAll, bind_eq_ok] at hrest
    obtain ⟨⟨next, receipt⟩, happly, -⟩ := hrest
    refine ⟨next, receipt, happly,
      (MarketStateReducer.applyAll_append _ _ _ _).2 ⟨state, hstate, ?_⟩⟩
    rw [MarketStateReducer.applyAll, happly]
    rfl
  refine ⟨fun h before event context rest state hinputs hstate => ?_, fun h before => ?_⟩
  · obtain ⟨next, receipt, happly, hreached⟩ := hnext before event context rest state hinputs hstate
    refine (auctionsWellFormed_apply happly (h before _ state hinputs hstate)).1
      (h _ rest next ?_ hreached)
    rw [hinputs, List.append_assoc, List.singleton_append]
  · induction before using List.reverseRecOn with
    | nil =>
      intro rest state _ hstate
      obtain rfl := Except.ok.inj hstate
      refine ⟨fun _ hnone => ?_, fun _ hnone => ?_, fun _ hnone => ?_⟩
      · cases hnone
      · cases hnone
      · cases hnone
    | append_singleton before input ih =>
      intro rest state hinputs hstate
      obtain ⟨event, context⟩ := input
      rw [List.append_assoc, List.singleton_append] at hinputs
      obtain ⟨mid, hmid, hlast⟩ := (MarketStateReducer.applyAll_append _ _ _ _).1 hstate
      obtain ⟨next, receipt, happly, hreached⟩ := hnext before event context rest mid hinputs hmid
      obtain rfl := Except.ok.inj (hstate.symm.trans hreached)
      exact (auctionsWellFormed_apply happly (ih _ mid hinputs hmid)).2
        (h before event context rest mid hinputs hmid)

/-- A status of the realtime stock format that starts or continues an auction. -/
def auctionStatus (observation : AuctionObservation) (micros : ℤ) : DomainEvent where
  instrument := sampleInstrument
  tradingDate := firstDay
  sourceFormat := stockRealtime
  matchTime := sampleTime micros
  sourceSequence := none
  payload := .marketStatus ((MarketStatusObservation.new .noObservation .none).withMarketSignal
    (.set (.auctionCollecting observation)))

/-- A volatility interruption upwards. -/
def interruptionUp : ReducerInput :=
  (auctionStatus (.volatilityInterruption .up false false) 10, sampleContext firstDay)

/-- A record that says only that the auction is delayed. -/
def delayedRecord : ReducerInput :=
  (auctionStatus ⟨.noObservation, .known true, .noObservation, .noObservation⟩ 11,
    sampleContext firstDay)

theorem running_interruptionUp {state : MarketState}
    (h : sampleReducer.applyAll sampleHash [interruptionUp] (.new sampleInstrument firstDay) =
      .ok state) :
    state.currentSegmentId = some (sampleContext firstDay).sessionSegmentId ∧
      state.phase.known? = some (.auction ⟨.volatilityInterruption .up false false⟩) := by
  have hrunning :
      (sampleReducer.applyAll sampleHash [interruptionUp]
        (.new sampleInstrument firstDay)).toOption.map
      (fun state => (state.currentSegmentId, state.phase.known?)) =
      some (some regularSegment, some (.auction ⟨.volatilityInterruption .up false false⟩)) := by
    decide +kernel
  rw [h] at hrunning
  exact Prod.mk.inj (Option.some.inj hrunning)

/-- The record is merged with the running interruption, and every state of the run obeys the rule.
-/
theorem delayed_interruption_valid : ∃ final,
    sampleReducer.applyAll sampleHash [interruptionUp, delayedRecord]
      (.new sampleInstrument firstDay) = .ok final ∧
    final.marketSignal.known? =
      some (.auctionCollecting
        ⟨.known .volatilityInterruption, .known true, .known false, .known .up⟩) ∧
    final.AuctionsWellFormed := by
  obtain ⟨final, hrun⟩ :=
    exists_of_isOk (x := sampleReducer.applyAll sampleHash [interruptionUp, delayedRecord]
    (.new sampleInstrument firstDay)) (by decide +kernel)
  have hsignal : (sampleReducer.applyAll sampleHash [interruptionUp, delayedRecord]
      (.new sampleInstrument firstDay)).toOption.bind (fun state => state.marketSignal.known?) =
      some (.auctionCollecting
        ⟨.known .volatilityInterruption, .known true, .known false, .known .up⟩) := by
    decide +kernel
  rw [hrun] at hsignal
  refine ⟨final, hrun, hsignal, ?_⟩
  refine (auction_observations_valid_iff sampleHash sampleReducer sampleInstrument firstDay _ final
    hrun).2 ?_ _ []
    final (List.append_nil _).symm hrun
  intro before event context rest state hinputs hstate
  match before with
  | [] =>
    -- no auction runs before the interruption
    cases hinputs
    cases hstate
    intro observation hobservation
    cases hobservation
    exact ⟨rfl, fun eventRef _ previous hprevious => by cases hprevious⟩
  | [first] =>
    cases hinputs
    obtain ⟨hsegment, hphase⟩ := running_interruptionUp hstate
    intro observation hobservation
    cases hobservation
    refine ⟨rfl, fun eventRef _ previous hprevious => ?_⟩
    rw [MarketStateReducer.enterSegment, if_pos hsegment, currentAuctionObservation, hphase]
      at hprevious
    cases hprevious
    unfold MergesWell
    decide
  | first :: second :: others => simp at hinputs

/-- A volatility interruption upwards, then a record that does not know its purpose, then an opening
auction. -/
def interruptionThenOpening : List AuctionObservation :=
  [.volatilityInterruption .up false false,
    ⟨.unknown, .noObservation, .noObservation, .noObservation⟩, .new .opening false false]

/-- Three observations that `fromParts` accepts leave an opening auction with a direction in the
state. -/
theorem direction_carried_into_opening :
    (∀ observation ∈ interruptionThenOpening, observation.WellFormed) ∧
    ∃ final,
      sampleReducer.applyAll sampleHash (interruptionThenOpening.mapIdx fun index observation =>
        (auctionStatus observation (10 + index), sampleContext firstDay))
          (.new sampleInstrument firstDay) = .ok final ∧
      ¬ final.AuctionsWellFormed := by
  refine ⟨by unfold AuctionObservation.WellFormed; decide, ?_⟩
  obtain ⟨final, hrun⟩ := exists_of_isOk (x := sampleReducer.applyAll sampleHash
    (interruptionThenOpening.mapIdx fun index observation =>
      (auctionStatus observation (10 + index), sampleContext firstDay))
        (.new sampleInstrument firstDay)) (by decide +kernel)
  have hsignal :
      (sampleReducer.applyAll sampleHash (interruptionThenOpening.mapIdx fun index observation =>
      (auctionStatus observation (10 + index), sampleContext firstDay))
        (.new sampleInstrument firstDay)).toOption.bind
      (fun state => state.marketSignal.known?) =
      some (.auctionCollecting ⟨.known .opening, .known false, .known false, .known .up⟩) := by
    decide +kernel
  rw [hrun] at hsignal
  exact ⟨final, hrun, fun hw =>
    absurd (hw.signal _ hsignal _ rfl) (by unfold AuctionObservation.WellFormed; decide)⟩

end Auctions

end Osmium
