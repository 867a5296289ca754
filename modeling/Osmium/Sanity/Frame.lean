import Osmium.Sanity.Reducer

/-! Which fields of the state the parts of a reduction write, and that everything written is noted
for the receipt. -/

namespace Osmium
open Machine Bytes Result

/-- The field of two states is the same, with the event it was observed at. -/
def ChangedField.Same (a b : MarketState) : ChangedField → Prop
  | .currentSegment => a.currentSegmentId = b.currentSegmentId
  | .book => a.book = b.book
  | .recentTrade => a.recentTrade = b.recentTrade
  | .cumulativeVolume => a.cumulativeVolume = b.cumulativeVolume
  | .indicativeAuction => a.indicativeAuction = b.indicativeAuction
  | .marketSignal => a.marketSignal = b.marketSignal
  | .phase => a.phase = b.phase
  | .lastEvent => a.lastEvent = b.lastEvent

theorem ChangedField.Same.refl (a : MarketState) (field : ChangedField) : field.Same a a := by
  cases field <;> rfl

theorem ChangedField.Same.trans {a b c : MarketState} {field : ChangedField} (h : field.Same a b)
    (h' : field.Same b c) :
    field.Same a c := by
  cases field <;> exact Eq.trans h h'

/-- A part of a reduction that writes no fields but some, and notes those it changed. -/
structure Writes (fields : List ChangedField) (before after : Draft) : Prop where
  frame : ∀ field ∉ fields, field.Same before.next after.next
  kept : ∀ field ∈ before.changed, field ∈ after.changed
  noted : ∀ field, ¬ field.Same before.next after.next → field ∈ after.changed

theorem Writes.none (draft : Draft) : Writes [] draft draft :=
  ⟨fun field _ => .refl _ field, fun _ h => h, fun field h => absurd (.refl _ field) h⟩

theorem Writes.mono {fields fields' : List ChangedField} {before after : Draft}
    (h : Writes fields before after) (hsub : fields ⊆ fields') : Writes fields' before after :=
  ⟨fun field hfield => h.frame field fun hmem => hfield (hsub hmem), h.kept, h.noted⟩

theorem Writes.trans {fields fields' : List ChangedField} {a b c : Draft} (h : Writes fields a b)
    (h' : Writes fields' b c) : Writes (fields ++ fields') a c := by
  refine ⟨fun field hfield => ?_, fun field hfield =>
    h'.kept field (h.kept field hfield), fun field hdiffers => ?_⟩
  · rw [List.mem_append, not_or] at hfield
    exact (h.frame field hfield.1).trans (h'.frame field hfield.2)
  · by_cases hsame : field.Same a.next b.next
    · exact h'.noted field fun hsame' => hdiffers (hsame.trans hsame')
    · exact h'.kept field (h.noted field hsame)

section Steps
variable {draft after : Draft}

theorem Writes.change {next : MarketState} {field : ChangedField}
    (h : ∀ other ≠ field, other.Same draft.next next) :
    Writes [field] draft (draft.change next field) := by
  refine ⟨fun other hother => h other fun heq =>
    hother (List.mem_singleton.2 heq), fun other hother => ?_, fun other hdiffers => ?_⟩
  · exact Std.ExtTreeSet.mem_insert.2 (.inr hother)
  · obtain rfl : other = field := by
      by_contra hne
      exact hdiffers (h other hne)
    exact Std.ExtTreeSet.mem_insert_self

theorem writes_setBook (book : CompleteBookSnapshot) (eventRef : AppliedEventRef) :
    Writes [.book] draft (draft.setBook book eventRef) :=
  .change fun other hother => by cases other <;> first | rfl | exact absurd rfl hother

theorem writes_setTrade (trade : StateField TradeObservation) :
    Writes [.recentTrade] draft (draft.setTrade trade) :=
  .change fun other hother => by cases other <;> first | rfl | exact absurd rfl hother

theorem writes_setVolume (volume : StateField Volume) :
    Writes [.cumulativeVolume] draft (draft.setVolume volume) :=
  .change fun other hother => by cases other <;> first | rfl | exact absurd rfl hother

theorem writes_setIndicative (auction : StateField IndicativeAuction) :
    Writes [.indicativeAuction] draft
    (draft.change { draft.next with indicativeAuction := auction } .indicativeAuction) :=
  .change fun other hother => by cases other <;> first | rfl | exact absurd rfl hother

theorem writes_clearIndicativeAuction (clearedAt : AppliedEventRef) :
    Writes [.indicativeAuction] draft (draft.clearIndicativeAuction clearedAt) := by
  unfold Draft.clearIndicativeAuction
  split
  · exact writes_setIndicative _
  · exact writes_setIndicative _
  · exact (Writes.none draft).mono (List.nil_subset _)

/-- Without an observation the field is left alone. -/
def ifObserved {α : Type} (observation : Observation α) (field : ChangedField) :
    List ChangedField :=
  match observation with
  | .noObservation => []
  | .set _ | .clear | .unknown _ => [field]

theorem writes_applyTradeObservation (observation : Observation ObservedTrade)
    (eventRef : AppliedEventRef) :
    Writes (ifObserved observation .recentTrade) draft
      (draft.applyTradeObservation observation eventRef) := by
  cases observation with
  | noObservation => exact .none draft
  | set trade => exact writes_setTrade _
  | clear => exact writes_setTrade _
  | unknown raw =>
    have h : Writes [.recentTrade] draft (draft.setTrade (.unknown raw eventRef)) :=
      writes_setTrade _
    exact ⟨h.frame, h.kept, h.noted⟩

theorem writes_applyVolumeObservation {reducer : MarketStateReducer}
    {observation : Observation Volume} {eventRef : AppliedEventRef} {comparePrevious : Bool}
    (h : reducer.applyVolumeObservation draft observation eventRef comparePrevious = .ok after) :
    Writes (ifObserved observation .cumulativeVolume) draft after := by
  unfold MarketStateReducer.applyVolumeObservation at h
  cases observation with
  | noObservation =>
    obtain rfl := Except.ok.inj h
    exact .none draft
  | set volume =>
    simp only [bind_eq_ok, pure_eq_ok] at h
    obtain ⟨_, -, rfl⟩ := h
    exact writes_setVolume _
  | clear =>
    obtain rfl := Except.ok.inj h
    exact writes_setVolume _
  | unknown raw =>
    obtain rfl := Except.ok.inj h
    have hwrites : Writes [.cumulativeVolume] draft (draft.setVolume (.unknown raw eventRef)) :=
      writes_setVolume _
    exact ⟨hwrites.frame, hwrites.kept, hwrites.noted⟩

/-- A signal writes itself and the phase, and ends an indicative auction when it ends the
collecting. -/
def MarketSignal.endsCollecting : MarketSignal → Bool
  | .auctionCollecting _ => false
  | .continuous | .auctionUncross _ | .closed => true

/-- The fields that the market signal of an event writes. -/
def signalFields : Observation MarketSignal → List ChangedField
  | .noObservation => []
  | .set signal => if signal.endsCollecting = true then
      [.indicativeAuction, .marketSignal, .phase] else [.marketSignal, .phase]
  | .clear | .unknown _ => [.marketSignal, .phase]

theorem writes_setSignal (signal : StateField MarketSignal) (phase : StateField MarketPhase) :
    Writes [.marketSignal, .phase] draft (draft.setSignal signal phase) := by
  refine ⟨fun field hfield => ?_, fun field hfield => ?_, fun field hdiffers => ?_⟩
  · cases field <;> first | rfl | simp at hfield
  · exact Std.ExtTreeSet.mem_insert.2 (.inr (Std.ExtTreeSet.mem_insert.2 (.inr hfield)))
  · cases field with
    | marketSignal => exact Std.ExtTreeSet.mem_insert.2 (.inr Std.ExtTreeSet.mem_insert_self)
    | phase => exact Std.ExtTreeSet.mem_insert_self
    | _ => exact absurd rfl hdiffers

theorem writes_applyMarketSignal (observation : Observation MarketSignal)
    (eventRef : AppliedEventRef) :
    Writes (signalFields observation) draft (draft.applyMarketSignal observation eventRef) := by
  cases observation with
  | noObservation => exact .none draft
  | clear => exact writes_setSignal _ _
  | unknown raw => exact writes_setSignal _ _
  | set signal =>
    have hends (h : signal.endsCollecting = true) (signal' : StateField MarketSignal)
        (phase : StateField MarketPhase) :
        Writes (signalFields (.set signal)) draft
          ((draft.clearIndicativeAuction eventRef).setSignal signal' phase) := by
      rw [signalFields, if_pos h]
      exact (writes_clearIndicativeAuction eventRef).trans (writes_setSignal signal' phase)
    cases signal with
    | continuous => exact hends rfl _ _
    | closed => exact hends rfl _ _
    | auctionUncross auction => exact hends rfl _ _
    | auctionCollecting auction => exact writes_setSignal _ _

/-- The observation of a trade; a batch is one in itself. -/
def EventPayload.tradeFields : EventPayload → List ChangedField
  | .quoteSnapshot snapshot => ifObserved snapshot.trade .recentTrade
  | .tradeBatch _ => [.recentTrade]
  | .bookSnapshot _ | .indicativeAuction _ | .marketStatus _ => []

def EventPayload.bookFields : EventPayload → List ChangedField
  | .quoteSnapshot _ | .bookSnapshot _ => [.book]
  | .tradeBatch _ | .indicativeAuction _ | .marketStatus _ => []

/-- The volume a payload observes; books and indicative auctions have none. -/
def EventPayload.cumulativeVolume : EventPayload → Observation Volume
  | .quoteSnapshot snapshot => snapshot.cumulativeVolume
  | .tradeBatch batch => batch.cumulativeVolume
  | .marketStatus status => status.cumulativeVolume
  | .bookSnapshot _ | .indicativeAuction _ => .noObservation

def EventPayload.indicativeFields : EventPayload → List ChangedField
  | .indicativeAuction _ => [.indicativeAuction]
  | .quoteSnapshot _ | .bookSnapshot _ | .tradeBatch _ | .marketStatus _ => []

/-- The fields that belong to a payload, its market signal included. -/
def EventPayload.fields (payload : EventPayload) : List ChangedField :=
  payload.bookFields ++ payload.tradeFields ++
    ifObserved payload.cumulativeVolume .cumulativeVolume ++
    payload.indicativeFields ++ signalFields payload.marketSignal

theorem writes_applyPayload {reducer : MarketStateReducer} {payload : EventPayload}
    {eventRef : AppliedEventRef} {comparePrevious : Bool}
    (h : reducer.applyPayload draft payload eventRef comparePrevious = .ok after) :
    Writes payload.fields draft (after.applyMarketSignal payload.marketSignal eventRef) := by
  refine Writes.trans ?_ (writes_applyMarketSignal _ _)
  cases payload with
  | quoteSnapshot snapshot =>
    have hbook : Writes [.book] draft (draft.setBook snapshot.book eventRef) := writes_setBook _ _
    have htrade := hbook.trans (writes_applyTradeObservation snapshot.trade eventRef)
    exact (htrade.trans (writes_applyVolumeObservation h)).trans (.none after)
  | bookSnapshot snapshot =>
    obtain rfl := Except.ok.inj h
    exact writes_setBook snapshot.book eventRef
  | tradeBatch batch =>
    exact ((writes_setTrade _).trans (writes_applyVolumeObservation h)).trans (.none after)
  | indicativeAuction auction =>
    obtain rfl := Except.ok.inj h
    exact writes_setIndicative _
  | marketStatus status => exact (writes_applyVolumeObservation h).trans (.none after)

end Steps

section Segments
variable (state : MarketState) (context : ReducerContext) (eventRef : AppliedEventRef)

/-- A reset writes all observable fields. -/
theorem writes_resetObservableFields (draft : Draft) :
    Writes [.book, .recentTrade, .cumulativeVolume, .indicativeAuction, .marketSignal, .phase] draft
      draft.resetObservableFields := by
  refine ⟨fun field hfield => ?_, fun field hfield => ?_, fun field hdiffers => ?_⟩
  · cases field <;> first | rfl | simp at hfield
  · exact Std.ExtTreeSet.mem_insertMany_list.2 (.inl hfield)
  · refine Std.ExtTreeSet.mem_insertMany_list.2 (.inr ?_)
    cases field <;> first | decide | exact absurd rfl hdiffers

theorem writes_setSegment (draft : Draft) (segmentId : SessionSegmentId) :
    Writes [.currentSegment] draft
    (draft.change { draft.next with currentSegmentId := some segmentId } .currentSegment) :=
  .change fun other hother => by cases other <;> first | rfl | exact absurd rfl hother

/-- Where the boundary asks for a reset. -/
def ResetsAt (state : MarketState) (context : ReducerContext) : Prop :=
  state.currentSegmentId ≠ none ∧ state.currentSegmentId ≠ some context.sessionSegmentId ∧
    context.segmentBoundaryPolicy = .resetObservableFields

instance : Decidable (ResetsAt state context) := inferInstanceAs (Decidable (_ ∧ _ ∧ _))

/-- The fields that entering a segment writes. -/
def segmentFields : List ChangedField :=
  if state.currentSegmentId = some context.sessionSegmentId then []
  else match state.currentSegmentId, context.segmentBoundaryPolicy with
    | some _, .resetObservableFields =>
      [.book, .recentTrade, .cumulativeVolume, .indicativeAuction, .marketSignal, .phase,
        .currentSegment]
    | _, .carry => [.indicativeAuction, .currentSegment]
    | none, .resetObservableFields => [.currentSegment]

theorem writes_enterSegment :
    Writes (segmentFields state context) ⟨state, ∅, ∅, none⟩
      (MarketStateReducer.enterSegment state context eventRef) := by
  unfold segmentFields MarketStateReducer.enterSegment
  dsimp only
  split_ifs with hsame
  · exact .none _
  · cases hsegment : state.currentSegmentId with
    | none =>
      cases hpolicy : context.segmentBoundaryPolicy with
      | carry => exact (writes_clearIndicativeAuction eventRef).trans (writes_setSegment _ _)
      | resetObservableFields => exact writes_setSegment _ _
    | some segment =>
      cases hpolicy : context.segmentBoundaryPolicy with
      | carry => exact (writes_clearIndicativeAuction eventRef).trans (writes_setSegment _ _)
      | resetObservableFields =>
        exact (writes_resetObservableFields _).trans (writes_setSegment _ _)

variable {state context} in
/-- Without a reset, entering a segment leaves all but the segment and an indicative auction. -/
theorem segmentFields_subset (h : ¬ ResetsAt state context) :
    segmentFields state context ⊆ [.indicativeAuction, .currentSegment] := by
  unfold segmentFields
  split_ifs with hsame
  · exact List.nil_subset _
  · cases hsegment : state.currentSegmentId with
    | none => cases context.segmentBoundaryPolicy <;> simp
    | some segment =>
      cases hpolicy : context.segmentBoundaryPolicy with
      | carry => simp
      | resetObservableFields => exact absurd ⟨by simp [hsegment], hsame, hpolicy⟩ h

end Segments

/-- A whole reduction, as one part: everything that differs is on the receipt, and only the fields
of the boundary and of the payload differ. -/
theorem MarketStateReducer.writes_apply {hash : List UInt8 → Digest} {self : MarketStateReducer}
    {state next : MarketState}
    {event : DomainEvent} {context : ReducerContext} {receipt : TransitionReceipt}
    (h : self.apply hash state event context = .ok (next, receipt)) :
    (∀ field ∉ segmentFields state context ++ event.payload.fields ++ [.lastEvent],
      field.Same state next) ∧
      ∀ field, ¬ field.Same state next → field ∈ receipt.changedFields := by
  obtain ⟨eventRef, draft, version, -, -, -, hdraft, rfl, -, -, -, hchanged⟩ := apply_ok h
  have hwrites := (writes_enterSegment state context eventRef).trans (writes_applyPayload hdraft)
  have hlast : Writes [.lastEvent] (draft.applyMarketSignal event.payload.marketSignal eventRef)
      ((draft.applyMarketSignal event.payload.marketSignal eventRef).change
        { (draft.applyMarketSignal event.payload.marketSignal eventRef).next with
          lastEvent := some eventRef, stateVersion := version } .lastEvent) :=
    .change fun other hother => by cases other <;> first | rfl | exact absurd rfl hother
  have hall := hwrites.trans hlast
  refine ⟨hall.frame, fun field hdiffers => ?_⟩
  rw [hchanged, Std.ExtTreeSet.mem_toList]
  exact hall.noted field hdiffers

end Osmium
