import Osmium.Proofs.Reducer
import Osmium.Sanity.Frame

/-! The frame of a reduction: an event changes the fields that belong to its payload, and its
receipt names all of them. -/

namespace Osmium
open Machine Bytes Result

section Fields
variable {field : ChangedField}

theorem eq_of_mem_ifObserved {α : Type} {observation : Observation α} {own : ChangedField}
    (h : field ∈ ifObserved observation own) : field = own := by
  cases observation with
  | noObservation => cases h
  | set value => exact List.mem_singleton.1 h
  | clear => exact List.mem_singleton.1 h
  | unknown raw => exact List.mem_singleton.1 h

theorem mem_signalFields {observation : Observation MarketSignal}
    (h : field ∈ signalFields observation) :
    field = .indicativeAuction ∨ field = .marketSignal ∨ field = .phase := by
  cases observation with
  | noObservation => cases h
  | set signal =>
    simp only [signalFields] at h
    split_ifs at h
    · simpa using h
    · exact .inr (by simpa using h)
  | clear => exact .inr (by simpa [signalFields] using h)
  | unknown raw => exact .inr (by simpa [signalFields] using h)

theorem eq_of_mem_bookFields {payload : EventPayload} (h : field ∈ payload.bookFields) :
    field = .book ∧ (payload.kind = .quoteSnapshot ∨ payload.kind = .bookSnapshot) := by
  cases payload with
  | quoteSnapshot snapshot => exact ⟨List.mem_singleton.1 h, .inl rfl⟩
  | bookSnapshot snapshot => exact ⟨List.mem_singleton.1 h, .inr rfl⟩
  | tradeBatch batch => cases h
  | indicativeAuction auction => cases h
  | marketStatus status => cases h

theorem eq_of_mem_tradeFields {payload : EventPayload} (h : field ∈ payload.tradeFields) :
    field = .recentTrade := by
  cases payload with
  | quoteSnapshot snapshot => exact eq_of_mem_ifObserved h
  | tradeBatch batch => exact List.mem_singleton.1 h
  | bookSnapshot snapshot => cases h
  | indicativeAuction auction => cases h
  | marketStatus status => cases h

theorem eq_of_mem_indicativeFields {payload : EventPayload} (h : field ∈ payload.indicativeFields) :
    field = .indicativeAuction := by
  cases payload with
  | indicativeAuction auction => exact List.mem_singleton.1 h
  | quoteSnapshot snapshot => cases h
  | bookSnapshot snapshot => cases h
  | tradeBatch batch => cases h
  | marketStatus status => cases h

/-- A field of a payload is in the part that is its own. -/
theorem mem_fields {payload : EventPayload} (h : field ∈ payload.fields) :
    field = .book ∧ field ∈ payload.bookFields ∨ field = .recentTrade ∧
    field ∈ payload.tradeFields ∨
      field = .cumulativeVolume ∧ field ∈ ifObserved payload.cumulativeVolume .cumulativeVolume ∨
      field = .indicativeAuction ∨
      (field = .marketSignal ∨ field = .phase) ∧ field ∈ signalFields payload.marketSignal := by
  simp only [EventPayload.fields, List.mem_append] at h
  rcases h with (((h | h) | h) | h) | h
  · exact .inl ⟨(eq_of_mem_bookFields h).1, h⟩
  · exact .inr (.inl ⟨eq_of_mem_tradeFields h, h⟩)
  · exact .inr (.inr (.inl ⟨eq_of_mem_ifObserved h, h⟩))
  · exact .inr (.inr (.inr (.inl (eq_of_mem_indicativeFields h))))
  · rcases mem_signalFields h with hindicative | hsignal
    · exact .inr (.inr (.inr (.inl hindicative)))
    · exact .inr (.inr (.inr (.inr ⟨hsignal, h⟩)))

end Fields

/-- Without a reset an event changes only the fields of its payload, and beside them its segment and
an indicative auction that the boundary ended; whatever it changes is on the receipt. -/
theorem reducer_frame (hash : List UInt8 → Digest) (reducer : MarketStateReducer)
    (state next : MarketState)
    (event : DomainEvent) (context : ReducerContext) (receipt : TransitionReceipt)
    (h : reducer.apply hash state event context = .ok (next, receipt)) :
    (∀ field : ChangedField, ¬ field.Same state next → field ∈ receipt.changedFields) ∧
    (¬ ResetsAt state context →
      (∀ field ∉ event.payload.fields, field ≠ .lastEvent →
        (field = .currentSegment ∨ field = .indicativeAuction →
          state.currentSegmentId = some context.sessionSegmentId) →
        field.Same state next) ∧
      (event.payload.kind = .indicativeAuction → next.book = state.book ∧
        next.recentTrade = state.recentTrade ∧
        next.cumulativeVolume = state.cumulativeVolume) ∧
      (event.payload.kind = .marketStatus → next.book = state.book ∧
        next.recentTrade = state.recentTrade) ∧
      (event.payload.kind = .tradeBatch → next.book = state.book) ∧
      (∀ snapshot, event.payload = .quoteSnapshot snapshot → snapshot.trade = .noObservation →
        next.recentTrade = state.recentTrade) ∧
      (event.payload.cumulativeVolume = .noObservation →
        next.cumulativeVolume = state.cumulativeVolume) ∧
      (event.payload.marketSignal = .noObservation → next.marketSignal = state.marketSignal ∧
        next.phase = state.phase)) := by
  obtain ⟨hframe, hnoted⟩ := MarketStateReducer.writes_apply h
  refine ⟨hnoted, fun hreset => ?_⟩
  have hown : ∀ field ∉ event.payload.fields, field ≠ .lastEvent →
      (field = .currentSegment ∨ field = .indicativeAuction →
        state.currentSegmentId = some context.sessionSegmentId) →
      field.Same state next := by
    intro field hfield hlast hsegment
    refine hframe field ?_
    simp only [List.mem_append, List.mem_singleton, not_or]
    refine ⟨⟨fun hmem => ?_, hfield⟩, hlast⟩
    have hboundary := segmentFields_subset hreset hmem
    rw [segmentFields, if_pos (hsegment (by simpa [or_comm] using hboundary))] at hmem
    cases hmem
  have hbook
      (hkind : ¬ (event.payload.kind = .quoteSnapshot ∨ event.payload.kind = .bookSnapshot)) :
      next.book = state.book := by
    refine (hown .book (fun hmem => ?_) nofun nofun).symm
    rcases mem_fields hmem with ⟨-, hmem⟩ | ⟨h, -⟩ | ⟨h, -⟩ | h | ⟨h | h, -⟩
    · exact hkind (eq_of_mem_bookFields hmem).2
    all_goals cases h
  have htrade (hnone : event.payload.tradeFields = []) : next.recentTrade = state.recentTrade := by
    refine (hown .recentTrade (fun hmem => ?_) nofun nofun).symm
    rcases mem_fields hmem with ⟨h, -⟩ | ⟨-, hmem⟩ | ⟨h, -⟩ | h | ⟨h | h, -⟩
    · cases h
    · rw [hnone] at hmem
      cases hmem
    all_goals cases h
  have hvolume (hnone : event.payload.cumulativeVolume = .noObservation) :
      next.cumulativeVolume = state.cumulativeVolume := by
    refine (hown .cumulativeVolume (fun hmem => ?_) nofun nofun).symm
    rcases mem_fields hmem with ⟨h, -⟩ | ⟨h, -⟩ | ⟨-, hmem⟩ | h | ⟨h | h, -⟩
    · cases h
    · cases h
    · rw [hnone] at hmem
      cases hmem
    all_goals cases h
  have hsignal (hnone : event.payload.marketSignal = .noObservation) (field : ChangedField)
      (hfield : field = .marketSignal ∨ field = .phase) : field.Same state next := by
    refine hown field (fun hmem => ?_) ?_ ?_
    · rcases mem_fields hmem with ⟨rfl, -⟩ | ⟨rfl, -⟩ | ⟨rfl, -⟩ | rfl | ⟨-, hmem⟩
      iterate 4 simp at hfield
      rw [hnone] at hmem
      cases hmem
    · rintro rfl
      simp at hfield
    · rintro (rfl | rfl) <;> simp at hfield
  refine ⟨hown, fun hkind => ?_, fun hkind => ?_, fun hkind => ?_, fun snapshot hpayload hnone =>
    ?_, hvolume, fun hnone => ?_⟩
  · cases hpayload : event.payload with
    | indicativeAuction auction =>
      exact ⟨hbook (by simp [hkind]), htrade (by rw [hpayload]; rfl),
        hvolume (by rw [hpayload]; rfl)⟩
    | _ => simp [hpayload, EventPayload.kind] at hkind
  · cases hpayload : event.payload with
    | marketStatus status => exact ⟨hbook (by simp [hkind]), htrade (by rw [hpayload]; rfl)⟩
    | _ => simp [hpayload, EventPayload.kind] at hkind
  · exact hbook (by simp [hkind])
  · exact htrade (by rw [hpayload, EventPayload.tradeFields, hnone]; rfl)
  · exact ⟨(hsignal hnone .marketSignal (.inl rfl)).symm, (hsignal hnone .phase (.inr rfl)).symm⟩

def sampleTrade : ObservedTrade := ⟨samplePrice 100, sampleLots 10 tenLots, .regular⟩

/-- A quote with the sample book and a trade of ten lots. -/
def tradedQuote : DomainEvent :=
  { sampleQuote sampleInstrument firstDay 10 with
    payload :=
      .quoteSnapshot
        ⟨sampleBook, .set sampleTrade, .noObservation, .none, .set .continuous, by decide +kernel⟩ }

/-- An auction status after the quote leaves its book and its trade as they are. -/
theorem reducer_frame_of_status : ∃ state next receipt,
    sampleReducer.applyAll sampleHash [(tradedQuote, sampleContext firstDay)]
      (.new sampleInstrument firstDay) = .ok state ∧
    sampleReducer.apply sampleHash state (auctionStatus (.new .closing false false) 20)
      (sampleContext firstDay) =
      .ok (next, receipt) ∧
    next.book.known? = some sampleBook ∧ next.book = state.book ∧
    next.recentTrade.known? = some (.single sampleTrade) ∧
    next.recentTrade = state.recentTrade := by
  obtain ⟨final, hrun⟩ :=
    exists_of_isOk (x := sampleReducer.applyAll sampleHash [(tradedQuote, sampleContext firstDay),
    (auctionStatus (.new .closing false false) 20, sampleContext firstDay)]
      (.new sampleInstrument firstDay))
    (by decide +kernel)
  have hshown : (sampleReducer.applyAll sampleHash [(tradedQuote, sampleContext firstDay)]
      (.new sampleInstrument firstDay)).toOption.map (fun state =>
        (state.currentSegmentId, state.book.known?, state.recentTrade.known?)) =
      some (some (sampleContext firstDay).sessionSegmentId, some sampleBook,
        some (.single sampleTrade)) := by decide +kernel
  obtain ⟨state, hstate, hlast⟩ :=
    (MarketStateReducer.applyAll_append [(tradedQuote, sampleContext firstDay)] _ _ _).1 hrun
  rw [hstate] at hshown
  simp only [MarketStateReducer.applyAll, bind_eq_ok] at hlast
  obtain ⟨⟨next, receipt⟩, happly, -⟩ := hlast
  simp only [toOption_ok, Option.map_some, Option.some.injEq, Prod.mk.injEq] at hshown
  obtain ⟨hsegment, hbook, htrade⟩ := hshown
  have hreset : ¬ ResetsAt state (sampleContext firstDay) := fun h => h.2.1 hsegment
  obtain ⟨-, -, hstatus, -⟩ := (reducer_frame _ _ _ _ _ _ _ happly).2 hreset
  obtain ⟨hsameBook, hsameTrade⟩ := hstatus rfl
  exact ⟨state, next, receipt, hstate,
    happly, by rw [hsameBook]; exact hbook, hsameBook, by rw [hsameTrade]; exact htrade, hsameTrade⟩

end Osmium
