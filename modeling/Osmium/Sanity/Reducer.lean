import Osmium.Spec.Replay

/-! What one event does to the state of an instrument: which checks it passed, which event the state
refers to after it, and when the reducer's order of events is the order of the replay. -/

namespace Osmium
open Machine Bytes Result

theorem AppliedEventRef.fromEvent_ok {hash : List UInt8 → Digest} {event : DomainEvent}
    {ref : AppliedEventRef} (h : AppliedEventRef.fromEvent hash event = .ok ref) :
    ∃ fingerprint, event.fingerprint hash = .ok fingerprint ∧ ref = {
      matchTime := event.matchTime
      sourceFormat := event.sourceFormat
      sourcePhase := sourcePhaseForEvent event
      eventKind := event.payload.kind
      sourceSequence := event.sourceSequence
      eventFingerprint := fingerprint } := by
  simp only [AppliedEventRef.fromEvent, bind_eq_ok, pure_eq_ok] at h
  obtain ⟨fingerprint, hfingerprint, rfl⟩ := h
  exact ⟨fingerprint, hfingerprint, rfl⟩

/-- Where the replay can rank an event, the reducer ranks it alike. -/
theorem sourcePhaseForEvent_eq {event : DomainEvent} {rank : UInt8}
    (h : OrderingKey.sourcePhaseRank? event = .ok rank) : sourcePhaseForEvent event = rank := by
  unfold OrderingKey.sourcePhaseRank? at h
  unfold sourcePhaseForEvent
  cases hmarket : event.instrument.market with
  | taifex =>
    rw [if_pos (.inl rfl)]
    simpa [hmarket] using h
  | twse | tpex =>
    simp only [hmarket] at h
    by_cases hformat : event.sourceFormat = stockRealtime
    · rw [if_neg (by simp [hformat])]
      rw [if_neg (not_not.2 hformat)] at h
      cases hpayload : event.payload with
      | quoteSnapshot snapshot =>
        simp only [hpayload] at h
        exact Except.ok.inj h
      | bookSnapshot snapshot =>
        simp only [hpayload] at h
        cases h
      | tradeBatch batch =>
        simp only [hpayload] at h
        split_ifs at h
        exact Except.ok.inj h
      | indicativeAuction auction =>
        simp only [hpayload] at h
        exact Except.ok.inj h
      | marketStatus status =>
        simp only [hpayload] at h
        exact Except.ok.inj h
    · rw [if_pos (.inr hformat)]
      rw [if_pos hformat] at h
      exact Except.ok.inj h

theorem OrderingKey.forEvent_ok {hash : List UInt8 → Digest} {event : DomainEvent}
    {key : OrderingKey} (h : OrderingKey.forEvent hash event = .ok key) :
    ∃ fingerprint, event.fingerprint hash = .ok fingerprint ∧ key = {
      matchTime := event.matchTime
      marketRank := event.instrument.market.discriminant
      symbol := event.instrument.symbol
      sourceFormat := event.sourceFormat
      sourcePhaseRank := sourcePhaseForEvent event
      eventKindRank := event.payload.discriminant
      sourceSequence := event.sourceSequence
      eventFingerprint := fingerprint } := by
  simp only [forEvent, forEventAndCanonical, bind_eq_ok, mapError_eq_ok, pure_eq_ok] at h
  obtain ⟨_, ⟨canonical, hcanonical, rank, hrank, rfl⟩, rfl⟩ := h
  refine ⟨⟨hash canonical⟩, ?_, ?_⟩
  · rw [DomainEvent.fingerprint, hcanonical]
    rfl
  · rw [sourcePhaseForEvent_eq hrank]

theorem compareWithinInstrument_eq {a b : DomainEvent} (fa fb : EventFingerprint)
    (h : a.instrument = b.instrument) :
    compareWithinInstrument
      ⟨a.matchTime, a.sourceFormat, sourcePhaseForEvent a, a.payload.kind, a.sourceSequence, fa⟩
      ⟨b.matchTime, b.sourceFormat, sourcePhaseForEvent b, b.payload.kind, b.sourceSequence, fb⟩ =
    compare
      (⟨a.matchTime, a.instrument.market.discriminant, a.instrument.symbol, a.sourceFormat,
        sourcePhaseForEvent a, a.payload.discriminant, a.sourceSequence, fa⟩ : OrderingKey)
      ⟨b.matchTime, b.instrument.market.discriminant, b.instrument.symbol, b.sourceFormat,
        sourcePhaseForEvent b, b.payload.discriminant, b.sourceSequence, fb⟩ := by
  have hrank : compare a.instrument.market.discriminant b.instrument.market.discriminant = .eq := by
    rw [h]
    exact Std.ReflCmp.compare_self
  have hsymbol : compare a.instrument.symbol b.instrument.symbol = .eq := by
    rw [h]
    exact Std.ReflCmp.compare_self
  change _ = (compare a.matchTime b.matchTime).then
    ((compare a.instrument.market.discriminant b.instrument.market.discriminant).then
    ((compare a.instrument.symbol b.instrument.symbol).then
      ((compare a.sourceFormat b.sourceFormat).then
    ((compare (sourcePhaseForEvent a) (sourcePhaseForEvent b)).then
    ((compare a.payload.discriminant b.payload.discriminant).then
    ((compare a.sourceSequence b.sourceSequence).then (compare fa fb)))))))
  rw [hrank, hsymbol]
  rfl

/-- The two orders of one instrument's events agree. -/
theorem compareWithinInstrument_eq_compare {hash : List UInt8 → Digest} {a b : DomainEvent}
    {ka kb : OrderingKey} {ra rb : AppliedEventRef} (h : a.instrument = b.instrument)
    (hka : OrderingKey.forEvent hash a = .ok ka)
    (hkb : OrderingKey.forEvent hash b = .ok kb) (hra : AppliedEventRef.fromEvent hash a = .ok ra)
    (hrb : AppliedEventRef.fromEvent hash b = .ok rb) :
    compareWithinInstrument ra rb = compare ka kb := by
  obtain ⟨fa, hfa, rfl⟩ := OrderingKey.forEvent_ok hka
  obtain ⟨fb, hfb, rfl⟩ := OrderingKey.forEvent_ok hkb
  obtain ⟨fa', hfa', rfl⟩ := AppliedEventRef.fromEvent_ok hra
  obtain ⟨fb', hfb', rfl⟩ := AppliedEventRef.fromEvent_ok hrb
  obtain rfl := Except.ok.inj (hfa.symm.trans hfa')
  obtain rfl := Except.ok.inj (hfb.symm.trans hfb')
  exact compareWithinInstrument_eq fa fb h

theorem exists_fromEvent {hash : List UInt8 → Digest} {event : DomainEvent} {key : OrderingKey}
    (h : OrderingKey.forEvent hash event = .ok key) :
    ∃ ref, AppliedEventRef.fromEvent hash event = .ok ref := by
  obtain ⟨fingerprint, hfingerprint, -⟩ := OrderingKey.forEvent_ok h
  exact ⟨_, by rw [AppliedEventRef.fromEvent, hfingerprint]; rfl⟩

/-- Refusals that do not depend on what the event observed or on its place among the events. -/
def StateTransitionError.Envelope : StateTransitionError → Prop
  | .instrumentMismatch | .tradingDateMismatch | .boundaryPolicyVersionMismatch | .profile _
  | .canonicalEncoding _
  | .stateVersionOverflow | .staleProposal => True
  | _ => False

def StateTransitionError.OfVolume : StateTransitionError → Prop
  | .cumulativeVolumeRegression _ _ | .volumeUnitMismatch _ _ => True
  | _ => False

def StateTransitionError.OfShape : StateTransitionError → Prop
  | .invalidTwseRealtimeShape | .invalidTpexRealtimeShape => True
  | _ => False

theorem failsIn_validateRealtimeShape (event : DomainEvent) :
    FailsIn StateTransitionError.OfShape (validateRealtimeShape event) := by
  unfold validateRealtimeShape
  dsimp only
  cases event.instrument.market with
  | twse => exact FailsIn.ensure trivial
  | tpex => exact FailsIn.ensure trivial
  | taifex => exact FailsIn.pure ()

namespace MarketStateReducer
variable {hash : List UInt8 → Digest} {self : MarketStateReducer} {state next : MarketState}
  {event : DomainEvent}
  {context : ReducerContext} {receipt : TransitionReceipt}

/-- What an accepted event went through. -/
theorem apply_ok (h : self.apply hash state event context = .ok (next, receipt)) :
    ∃ eventRef draft version, event.instrument = state.instrument ∧
    event.tradingDate = state.tradingDate ∧
      AppliedEventRef.fromEvent hash event = .ok eventRef ∧
      self.applyPayload (enterSegment state context eventRef) event.payload eventRef
        (decide (state.currentSegmentId = some context.sessionSegmentId)) = .ok draft ∧
      next = { (draft.applyMarketSignal event.payload.marketSignal eventRef).next with
        lastEvent := some eventRef, stateVersion := version } ∧
      next.instrument = state.instrument ∧ next.tradingDate = state.tradingDate ∧
      receipt.boundaryAction =
        (draft.applyMarketSignal event.payload.marketSignal eventRef).boundaryAction ∧
      receipt.changedFields =
        ((draft.applyMarketSignal event.payload.marketSignal eventRef).changed.insert
          .lastEvent).toList := by
  simp only [apply, bind_eq_ok] at h
  obtain ⟨proposal, hp, hc⟩ := h
  simp only [commit, bind_eq_ok, ensure_eq_ok, pure_eq_ok, Prod.mk.injEq] at hc
  obtain ⟨_, ⟨-, hinstrument, hdate⟩, rfl, rfl⟩ := hc
  simp only [propose, validateEnvelope, bind_eq_ok, ensure_eq_ok, mapError_eq_ok, okOr_eq_ok,
    pure_eq_ok] at hp
  obtain ⟨_, ⟨_, hown, _, ⟨hsame, -⟩, -⟩, _, -, _, -, eventRef, href, _, -, version, -, draft,
      hdraft, rfl⟩ := hp
  exact ⟨eventRef, draft, version, hown, hsame, href, hdraft, rfl, hinstrument.symm,
    hdate.symm, rfl, rfl⟩

theorem failsIn_applyVolumeObservation (draft : Draft) (observation : Observation Volume)
    (eventRef : AppliedEventRef) (comparePrevious : Bool) :
    FailsIn StateTransitionError.OfVolume
      (self.applyVolumeObservation draft observation eventRef comparePrevious) := by
  unfold applyVolumeObservation
  cases observation with
  | noObservation => exact FailsIn.pure _
  | clear => exact FailsIn.pure _
  | unknown raw => exact FailsIn.pure _
  | set volume =>
    refine FailsIn.bind ?_ fun _ => FailsIn.pure _
    unfold validateVolume
    cases self.profile.cumulativeVolumePolicy with
    | unconstrained => exact FailsIn.pure _
    | nonDecreasingWithinSegment unit =>
      refine FailsIn.bind (FailsIn.ensure trivial) fun _ => ?_
      split
      · exact FailsIn.bind (FailsIn.ensure trivial) fun _ => FailsIn.ensure trivial
      · exact FailsIn.pure _

theorem failsIn_applyPayload (draft : Draft) (payload : EventPayload) (eventRef : AppliedEventRef)
    (comparePrevious : Bool) :
    FailsIn StateTransitionError.OfVolume
      (self.applyPayload draft payload eventRef comparePrevious) := by
  cases payload with
  | quoteSnapshot snapshot => exact failsIn_applyVolumeObservation _ _ _ _
  | bookSnapshot snapshot => exact FailsIn.pure _
  | tradeBatch batch => exact failsIn_applyVolumeObservation _ _ _ _
  | indicativeAuction auction => exact FailsIn.pure _
  | marketStatus status => exact failsIn_applyVolumeObservation _ _ _ _

/-- The ways an event can be refused. -/
theorem apply_error {e : StateTransitionError}
    (h : self.apply hash state event context = .error e) :
    e.Envelope ∨
    (e = .matchTimeRegression ∧ event.instrument = state.instrument ∧
      ∃ lastTime ∈ state.lastMatchTime, ¬ lastTime ≤ event.matchTime) ∨
    validateRealtimeShape event = .error e ∨
    (e = .orderingRegression ∧ event.instrument = state.instrument ∧ ∃ eventRef,
      AppliedEventRef.fromEvent hash event = .ok eventRef ∧
      ∃ previous ∈ state.lastEvent, compareWithinInstrument eventRef previous = .lt) ∨
    ∃ eventRef, AppliedEventRef.fromEvent hash event = .ok eventRef ∧
      self.applyPayload (enterSegment state context eventRef) event.payload eventRef
        (decide (state.currentSegmentId = some context.sessionSegmentId)) = .error e := by
  rcases (bind_eq_error _ _ _).1 h with h | ⟨proposal, -, h⟩
  · rcases (bind_eq_error _ _ _).1 h with h | ⟨_, henvelope, h⟩
    · simp only [validateEnvelope, bind_eq_error, ensure_eq_error, ensure_eq_ok] at h
      rcases h with ⟨-, rfl⟩ | ⟨_, hown, ⟨-, rfl⟩ | ⟨_, -, ⟨-, rfl⟩ | ⟨_, -, htime, rfl⟩⟩⟩
      · exact .inl trivial
      · exact .inl trivial
      · exact .inl trivial
      · refine .inr (.inl ⟨rfl, hown, ?_⟩)
        simpa only [not_forall, exists_prop] using htime
    have hown : event.instrument = state.instrument := by
      simp only [validateEnvelope, bind_eq_ok, ensure_eq_ok] at henvelope
      obtain ⟨_, hown, -⟩ := henvelope
      exact hown
    rcases (bind_eq_error _ _ _).1 h with h | ⟨_, -, h⟩
    · obtain ⟨error, -, rfl⟩ := (mapError_eq_error _ _ _).1 h
      exact .inl trivial
    rcases (bind_eq_error _ _ _).1 h with h | ⟨_, -, h⟩
    · exact .inr (.inr (.inl h))
    rcases (bind_eq_error _ _ _).1 h with h | ⟨eventRef, href, h⟩
    · obtain ⟨error, -, rfl⟩ := (mapError_eq_error _ _ _).1 h
      exact .inl trivial
    have href := (mapError_eq_ok _ _ _).1 href
    rcases (bind_eq_error _ _ _).1 h with h | ⟨_, -, h⟩
    · obtain ⟨hregress, rfl⟩ := (ensure_eq_error _ _ _).1 h
      refine .inr (.inr (.inr (.inl ⟨rfl, hown, eventRef, href, ?_⟩)))
      simpa only [not_forall, exists_prop, not_not] using hregress
    rcases (bind_eq_error _ _ _).1 h with h | ⟨version, -, h⟩
    · obtain ⟨-, rfl⟩ := (okOr_eq_error _ _ _).1 h
      exact .inl trivial
    rcases (bind_eq_error _ _ _).1 h with h | ⟨draft, -, h⟩
    · exact .inr (.inr (.inr (.inr ⟨eventRef, href, h⟩)))
    · cases h
  · simp only [commit, bind_eq_error, ensure_eq_error, pure_eq_error, and_false, exists_false,
      or_false] at h
    obtain ⟨-, rfl⟩ := h
    exact .inl trivial

end MarketStateReducer

end Osmium
