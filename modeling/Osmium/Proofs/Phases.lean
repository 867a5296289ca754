import Osmium.Proofs.Auction
import Osmium.Proofs.Depth
import Osmium.Proofs.Evaluation
import Osmium.Sanity.Passive
import Osmium.Spec.Coordinator

/-! Which fills the phase of a session keeps back. The phase reaches the simulators only as matching
and order entry of the trading context: a cool-down blocks order entry and leaves matching as it is.
-/

namespace Osmium
open Machine Bytes Result Stateful ScheduledDepthSimulator

section Depth
variable {s : ScheduledDepthSimulator} {order : ScheduledOrder} {index : ℕ} {time : MatchTime}

/-- A resting order finds depth: a visible book that is not stale, matching that is on, and an offer
within its limit. -/
def MeetsDepth (s : ScheduledDepthSimulator) (time : MatchTime) (order : ScheduledOrder) : Prop :=
  ∃ profile book, s.configs[order.request.intent.instrument]? = some profile ∧
    s.visibleBook order.request.intent.instrument time = some book ∧
    isStale profile.model book time = .ok false ∧
    (s.visibleTradingState order.request.intent.instrument time).any
      (fun state => state.matching.isEnabled) = true ∧
    0 < offered book.evidence.book order.request.intent.side profile.model.depthLevels
      order.request.intent.orderType
      profile.model.adversePriceDelta (book.consumed order.request.intent.side)

/-- A sweep is of what the order meets. -/
theorem filledTotal_sweepBook {profile : InstrumentProfile} {book : VisibleBookState}
    {request : ScheduledOrderRequest} {requested : Quantity} {sweep : DepthSweepResult}
    (h : sweepBook profile book request requested = .ok sweep) :
    filledTotal sweep.fills =
      min requested.value.val (offered book.evidence.book request.intent.side
      profile.model.depthLevels request.intent.orderType profile.model.adversePriceDelta
      (book.consumed request.intent.side)) := by
  simp only [sweepBook, bind_eq_ok, mapError_eq_ok, pure_eq_ok] at h
  obtain ⟨_, hsweep, _, -, rfl⟩ := h
  exact (sweep_takes hsweep).1

/-- An order takes something exactly when it meets depth and is not refused. -/
theorem takesDepth_iff_meets (found : s.orders[index]? = some order) :
    TakesDepth s time index ↔ MeetsDepth s time order ∧ ¬ RefusesDepth s time index := by
  rw [takesDepth_iff found, refusesDepth_iff found]
  refine ⟨?_, fun ⟨hmeets, hnot⟩ => ?_⟩
  · rintro ⟨sweep, hsweep, hsome⟩
    refine ⟨?_, fun ⟨e, he⟩ => nomatch hsweep.symm.trans he⟩
    simp only [passiveSweep, bind_eq_ok, okOr_eq_ok] at hsweep
    obtain ⟨profile, hprofile, hsweep⟩ := hsweep
    cases hbook : s.visibleBook order.request.intent.instrument time with
    | none => simp [hbook, pure_eq_ok] at hsweep
    | some book =>
      simp only [hbook, bind_eq_ok] at hsweep
      obtain ⟨stale, hstale, hsweep⟩ := hsweep
      split_ifs at hsweep with hidle
      · cases hsweep
      · obtain ⟨hfresh, hmatching⟩ := not_or.1 hidle
        simp only [bind_eq_ok, okOr_eq_ok, pure_eq_ok, Option.some.injEq] at hsweep
        obtain ⟨requested, -, _, hswept, rfl⟩ := hsweep
        have htotal := filledTotal_sweepBook hswept
        rw [ne_eq, ← filledTotal_eq_zero, htotal, ← ne_eq, ← Nat.pos_iff_ne_zero] at hsome
        refine ⟨profile, book, hprofile, hbook, ?_, Bool.not_eq_false _ ▸ hmatching,
          (lt_min_iff.1 hsome).2⟩
        rw [hstale, Bool.eq_false_iff.2 hfresh]
  · obtain ⟨profile, book, hprofile, hbook, hstale, hmatching, hoffered⟩ := hmeets
    cases hsweep : s.passiveSweep order time with
    | error e => exact absurd ⟨e, hsweep⟩ hnot
    | ok result =>
      simp only [passiveSweep, bind_eq_ok, okOr_eq_ok, hprofile, hbook, Option.some.injEq] at hsweep
      obtain ⟨_, rfl, stale, hfresh, hsweep⟩ := hsweep
      obtain rfl := Except.ok.inj (hstale.symm.trans hfresh)
      rw [if_neg (by simp [hmatching])] at hsweep
      simp only [bind_eq_ok, okOr_eq_ok, pure_eq_ok] at hsweep
      obtain ⟨requested, -, sweep, hswept, rfl⟩ := hsweep
      have hpos := lt_min requested.pos hoffered
      refine ⟨sweep, rfl, fun hnone => ?_⟩
      rw [← filledTotal_sweepBook hswept, hnone] at hpos
      exact lt_irrefl _ hpos

/-- Every resting order of an instrument that finds depth is refused, or comes after one that is. -/
def DepthQuiet (s : ScheduledDepthSimulator) (instrument : InstrumentId)
    (time : MatchTime) : Prop :=
  ∀ before index after order, s.eligibleOrders (passiveEligible instrument) =
    before ++ index :: after →
    s.orders[index]? = some order → MeetsDepth s time order →
    ∃ other ∈ before ++ [index], RefusesDepth s time other

theorem evaluateActive_fills_iff (hash : List UInt8 → Digest) (hs : Sound s)
    (instrument : InstrumentId) (controlSequence : U64) (time : MatchTime) :
    (stateAfter (evaluateActive hash instrument controlSequence time s)).fills = s.fills ↔
      DepthQuiet s instrument time := by
  have hiff := executePassiveOrders_fills_iff hash hs nodup_eligibleOrders
    (waiting_eligible instrument) controlSequence time
  refine hiff.trans ⟨fun hall before index after order hsplit found hmeets => ?_,
    fun hall before index after hsplit htakes => ?_⟩
  · by_cases hrefuses : RefusesDepth s time index
    · exact ⟨index, List.mem_append_right _ (List.mem_singleton_self _), hrefuses⟩
    · obtain ⟨other, hother, hrefused⟩ :=
        hall before index after hsplit ((takesDepth_iff_meets found).2 ⟨hmeets, hrefuses⟩)
      exact ⟨other, List.mem_append_left _ hother, hrefused⟩
  · obtain ⟨order, sweep, found, -⟩ := id htakes
    obtain ⟨hmeets, hrefuses⟩ := (takesDepth_iff_meets found).1 htakes
    obtain ⟨other, hother, hrefused⟩ := hall before index after order hsplit found hmeets
    rcases List.mem_append.1 hother with hother | hother
    · exact ⟨other, hother, hrefused⟩
    · obtain rfl := List.mem_singleton.1 hother
      exact absurd hrefused hrefuses

/-- The trading state that is visible lets an order of this type in. -/
def MayEnter (s : ScheduledDepthSimulator) (time : MatchTime) (order : ScheduledOrder) : Prop :=
  (s.visibleTradingState order.request.intent.instrument time).any
    (fun state => entryAllowed state.newOrderEntry order.request.intent.orderType) = true

/-- An activation sweeps what a passive match would, where the order may enter. -/
theorem depthAtActivation_sweep_iff {sweep : DepthSweepResult}
    (hunfilled : order.filledValue.val = 0) :
    s.depthAtActivation order.request time = .ok (.sweep sweep) ↔
      MayEnter s time order ∧ s.passiveSweep order time = .ok (some sweep) := by
  obtain ⟨remaining, hremaining, hvalue, hunit⟩ :=
    remainingQuantity_some order.request.intent.quantity order.filledValue
    (by rw [hunfilled]; exact order.request.intent.quantity.pos)
  obtain rfl : remaining = order.request.intent.quantity :=
    Quantity.ext (Unsigned.ext (by rw [hvalue, hunfilled, Nat.sub_zero])) hunit
  unfold depthAtActivation passiveSweep MayEnter
  simp only [bind_eq_ok, okOr_eq_ok, hremaining]
  cases s.visibleBook order.request.intent.instrument time with
  | none => simp [pure_eq_ok]
  | some book =>
    simp only [bind_eq_ok]
    constructor
    · rintro ⟨profile, hprofile, stale, hstale, h⟩
      split_ifs at h with hold hmatching hentry
      · cases h
      · cases h
      · cases h
      · simp only [bind_eq_ok, pure_eq_ok, DepthDecision.sweep.injEq] at h
        obtain ⟨_, hswept, rfl⟩ := h
        refine ⟨Bool.not_eq_false _ ▸ hentry, profile, hprofile, stale, hstale, ?_⟩
        rw [if_neg (not_or.2 ⟨hold, hmatching⟩)]
        simp only [bind_eq_ok, okOr_eq_ok, pure_eq_ok, Option.some.injEq]
        exact ⟨_, rfl, _, hswept, rfl⟩
    · rintro ⟨hentry, profile, hprofile, stale, hstale, h⟩
      split_ifs at h with hidle
      · cases h
      · obtain ⟨hfresh, hmatching⟩ := not_or.1 hidle
        simp only [bind_eq_ok, okOr_eq_ok, pure_eq_ok, Option.some.injEq] at h
        obtain ⟨_, rfl, _, hswept, rfl⟩ := h
        refine ⟨profile, hprofile, stale, hstale, ?_⟩
        rw [if_neg hfresh, if_neg hmatching, if_neg (by rw [hentry]; exact Bool.noConfusion)]
        simp only [bind_eq_ok, pure_eq_ok]
        exact ⟨_, hswept, rfl⟩

/-- An activation that is let through and may enter finds no depth, or is refused. -/
def ActivationQuiet (s : ScheduledDepthSimulator) (id : OrderId) (time : MatchTime) : Prop :=
  ∀ order index, s.checkActivation id time = .ok (order, index) → MayEnter s time order →
  MeetsDepth s time order →
    RefusesDepth s time index

/-- An activation against depth records nothing exactly when it is quiet. -/
theorem activate_fills_iff (hash : List UInt8 → Digest) (hs : Sound s) {id : OrderId}
    (hlocate : s.locate id = some (order, index))
    (hpolicy : order.request.executionPolicy = .visibleDepthAtActivationV1)
    (controlSequence : U64) (time : MatchTime) :
    (stateAfter (activate hash id controlSequence time s)).fills = s.fills ↔
    ActivationQuiet s id time := by
  unfold ActivationQuiet
  rw [activate, get_bind]
  cases hcheck : s.checkActivation id time with
  | error e =>
    rw [lift_bind_error rfl]
    exact iff_of_true rfl fun _ _ h => by cases h
  | ok found =>
    obtain ⟨order', index'⟩ := found
    obtain ⟨hfound, hstatus, htime⟩ := checkActivation_ok hcheck
    obtain ⟨rfl, rfl⟩ := Prod.mk.inj (Option.some_inj.1 (hlocate.symm.trans hfound))
    have found := (locate_eq_some hlocate).1
    have hunfilled := hs.wired.unfilled order (List.mem_of_getElem? found) (.inl hstatus)
    have hpos := order.request.intent.quantity.pos
    have hquiet : (∀ order' index', (Except.ok (order, index) : Except ScheduledSimulationError _) =
        .ok (order', index') →
        MayEnter s time order' → MeetsDepth s time order' → RefusesDepth s time index') ↔
        ¬ (MayEnter s time order ∧ TakesDepth s time index) := by
      rw [takesDepth_iff_meets found]
      constructor
      · intro h hboth
        obtain ⟨hentry, hmeets, hnot⟩ := hboth
        exact hnot (h order index rfl hentry hmeets)
      · intro h order' index' hsame
        cases hsame
        exact fun hentry hmeets => by_contra fun hnot => h ⟨hentry, hmeets, hnot⟩
    rw [lift_bind rfl, hquiet]
    simp only []
    split_ifs with hblocked
    · obtain ⟨activation, -, hfail⟩ :=
        failActivation_eq s index order .newOrderEntryBlocked [] (by omega)
      rw [hfail]
      refine iff_of_true rfl fun hboth => ?_
      obtain ⟨shown, hshown, hallowed⟩ := (Option.any_eq_true _ _).1 hboth.1
      rw [hshown] at hblocked
      simp [hallowed] at hblocked
    · simp only [hpolicy]
      have hsweeps : TakesDepth s time index ↔
          ∃ sweep, s.passiveSweep order time = .ok (some sweep) ∧ sweep.fills ≠ [] :=
        takesDepth_iff found time
      rcases activateAgainstDepth_outcome hash controlSequence hs found hstatus htime with
        ⟨e, herror, hdecision⟩ | ⟨activation, s', hok, -, -, -, hfills⟩
      · rw [herror]
        refine iff_of_true rfl fun hboth => ?_
        obtain ⟨hentry, htakes⟩ := hboth
        obtain ⟨sweep, hsweep, -⟩ := hsweeps.1 htakes
        rw [(depthAtActivation_sweep_iff hunfilled).2 ⟨hentry, hsweep⟩] at hdecision
        cases hdecision
      · rw [hok]
        refine hfills.trans ⟨fun h hboth => ?_, fun h sweep hdecision => ?_⟩
        · obtain ⟨hentry, htakes⟩ := hboth
          obtain ⟨sweep, hsweep, hsome⟩ := hsweeps.1 htakes
          exact hsome (h sweep ((depthAtActivation_sweep_iff hunfilled).2 ⟨hentry, hsweep⟩))
        · obtain ⟨hentry, hsweep⟩ := (depthAtActivation_sweep_iff hunfilled).1 hdecision
          by_contra hsome
          exact h ⟨hentry, hsweeps.2 ⟨sweep, hsweep, hsome⟩⟩

end Depth

section Phase
open MarketTradingContextEvaluator

/-- The book of the event's instrument is one that the event published, with its trading context. -/
def BookOf (s : ScheduledDepthSimulator) (event : DomainEvent) (trading : TradingContext) : Prop :=
  ∃ book, s.books[event.instrument]? = some book ∧ book.evidence.matchTime = event.matchTime ∧
    book.evidence.matching = trading.matching ∧ book.evidence.newOrderEntry = trading.newOrderEntry

/-- The book that a run publishes for an event is the event's. -/
theorem bookOf_publishBook {σ : Type} {event : DomainEvent} {observation : BufferedObservation}
    {book : CompleteBookSnapshot} {self self' : ScheduledCoordinator σ}
    (h : ScheduledCoordinator.publishBook event observation (some book) self = .ok () self') :
    BookOf self'.simulator event observation.trading := by
  simp only [ScheduledCoordinator.publishBook, ScheduledCoordinator.onSimulator, bind_ok, lift_ok,
    mapError_eq_ok, zoom_ok] at h
  obtain ⟨evidence, _, ⟨hnew, rfl⟩, t, hpublish, rfl⟩ := h
  obtain ⟨-, hbooks, -⟩ := publishVisibleBook_ok hpublish
  unfold VisibleBookEvidence.new at hnew
  split_ifs at hnew with hcausal
  cases hnew
  have hshown : t.books[event.instrument]? =
      some (freshBook ⟨event.instrument, book, event.matchTime,
      observation.visibleAt, observation.trading.matching, observation.trading.newOrderEntry,
      hcausal⟩) := by
    rw [hbooks]
    exact Std.ExtTreeMap.getElem?_insert_self
  exact ⟨_, hshown, rfl, rfl, rfl⟩

/-- The auction match that is allocated at the commit of the event. -/
def MatchOf (evidence : AuctionMatchEvidence) (event : DomainEvent) (occurrence : EventOccurrence)
    (trading : TradingContext) : Prop :=
  trading.matching = .enabled .callAuction ∧
    ScheduledCoordinator.auctionClearingPrice event = .ok (some evidence.clearingPrice) ∧
    evidence.instrument = event.instrument ∧ evidence.matchTime = event.matchTime ∧
    evidence.runEventOrdinal = occurrence.runEventOrdinal

/-- The price is refused, or no order that waits for the auction crosses it. -/
def AuctionQuiet (s : ScheduledDepthSimulator) (evidence : AuctionMatchEvidence) : Prop :=
  ∀ profile, s.configs[evidence.instrument]? = some profile →
  profile.pricePolicy.accepts evidence.clearingPrice = true →
    ∀ order ∈ s.orders, auctionEligible evidence order = true →
      auctionCrosses order.request.intent evidence.clearingPrice = false

/-- A call fills from the event: it sweeps the book that the event published, whenever and under
whatever trading state it does so, or it is the auction match of the event. Settlements are at
prices of their own. -/
def DrawsOn (event : DomainEvent) (occurrence : EventOccurrence) (trading : TradingContext)
    (s : ScheduledDepthSimulator) : SimulatorCall → Prop
  | .activate id _ _ => BookOf s event trading ∧ ∃ order index, s.locate id = some (order, index) ∧
      order.request.intent.instrument = event.instrument ∧
      order.request.executionPolicy = .visibleDepthAtActivationV1
  | .evaluateActive instrument _ _ => BookOf s event trading ∧ instrument = event.instrument
  | .evaluateAuctionMatch evidence => MatchOf evidence event occurrence trading
  | _ => False

/-- What there is for a call to match is nothing, or refused. -/
def SimulatorCall.Quiet (s : ScheduledDepthSimulator) : SimulatorCall → Prop
  | .activate id _ time => ActivationQuiet s id time
  | .evaluateActive instrument _ time => DepthQuiet s instrument time
  | .evaluateAuctionMatch evidence => AuctionQuiet s evidence
  | _ => True

/-- A call that draws on an event records nothing exactly when it is quiet. -/
theorem SimulatorCall.fills_iff (hash : List UInt8 → Digest) {s : ScheduledDepthSimulator}
    (hs : Sound s) {event : DomainEvent} {occurrence : EventOccurrence} {trading : TradingContext}
    {call : SimulatorCall} (hdraws : DrawsOn event occurrence trading s call) :
    (stateAfter (call.run hash s)).fills = s.fills ↔ call.Quiet s := by
  cases call with
  | activate id controlSequence time =>
    obtain ⟨-, order, index, hlocate, -, hpolicy⟩ := hdraws
    rw [SimulatorCall.run, stateAfter_map]
    exact activate_fills_iff hash hs hlocate hpolicy controlSequence time
  | evaluateActive instrument controlSequence time =>
    rw [SimulatorCall.run, stateAfter_map]
    exact evaluateActive_fills_iff hash hs instrument controlSequence time
  | evaluateAuctionMatch evidence =>
    rw [SimulatorCall.run, stateAfter_map]
    exact evaluateAuctionMatch_fills_iff hash s evidence
  | submit o => cases hdraws
  | cancelBeforeActivation client => cases hdraws
  | expire id time => cases hdraws
  | cancelActiveMarketOrders instrument => cases hdraws
  | publishVisibleBook evidence => cases hdraws
  | publishVisibleTradingState evidence => cases hdraws

theorem coolDown_blocks {event : DomainEvent} {occurrence : EventOccurrence} {state : MarketState}
    {segment : SessionSegment} {trading : TradingContext}
    (h : evaluate event occurrence state segment = .ok trading)
    (hphase : trading.session.phase = .coolDown) : trading.newOrderEntry = .blocked .coolDown := by
  simp only [evaluate, bind_eq_ok, pure_eq_ok] at h
  obtain ⟨_, -, phase, -, rfl⟩ := h
  exact if_pos hphase

/-- While the trading state of a cool-down is the one that is visible, activations are quiet. -/
theorem activationQuiet_of_blocked {s : ScheduledDepthSimulator} {id : OrderId} {time : MatchTime}
    {reason : OrderBlockReason} (h : ∀ order index, s.locate id = some (order, index) → ∃ shown,
      s.visibleTradingState order.request.intent.instrument time = some shown ∧
      shown.newOrderEntry = .blocked reason) :
    ActivationQuiet s id time := by
  intro order index hcheck hentry
  obtain ⟨shown, hshown, hblocked⟩ := h order index (checkActivation_ok hcheck).1
  rw [MayEnter, hshown, Option.any_some, hblocked] at hentry
  cases hentry

/-- No event of a cool-down is filled from in either simulator, and no call auction of a warm-up in
the one that fills from subsequent events, exactly when nothing meets the event: in a cool-down the
orders of the scheduled simulator still take depth from the book that the event published or cross
in its auction, and a warm-up does not keep an auction from filling. -/
theorem phase_fills_nothing_iff (hash : List UInt8 → Digest) (instruments : List InstrumentId)
    (quantityUnit : QuantityUnit) (model : FillModel) (pricePolicy : PricePolicy)
    (calls : List SimCall) (configs : List ScheduledInstrumentConfig) (s₀ : ScheduledDepthSimulator)
    (new : ScheduledDepthSimulator.new configs = .ok s₀) (scheduledCalls : List SimulatorCall)
    (event : DomainEvent) (occurrence : EventOccurrence) (state : MarketState)
    (segment : SessionSegment)
    (trading : TradingContext) (context : evaluate event occurrence state segment = .ok trading) :
    let self :=
      (runSim hash calls
        ⟨Simulator.newWithPricePolicy instruments quantityUnit model pricePolicy, []⟩).simulator
    let evaluated := stateAfter (Simulator.evaluate event occurrence trading self)
    ((trading.session.phase = .coolDown → evaluated.fills = self.fills ∧
        EveryCall hash (fun s call => DrawsOn event occurrence trading s call →
          (stateAfter (call.run hash s)).fills = s.fills) scheduledCalls s₀) ∧
      (trading.session.phase = .warmUp → trading.matching = .enabled .callAuction →
        evaluated.fills = self.fills)) ↔
    (trading.session.phase = .coolDown →
        EveryCall hash (fun s call => DrawsOn event occurrence trading s call → call.Quiet s)
          scheduledCalls s₀) ∧
      (trading.session.phase = .warmUp → trading.matching = .enabled .callAuction →
        NotMatched trading ∨ FillsNone self event occurrence) := by
  intro self evaluated
  have htracks : Tracks model pricePolicy
      (runSim hash calls
        ⟨Simulator.newWithPricePolicy instruments quantityUnit model pricePolicy, []⟩) :=
    (Tracks.initial instruments quantityUnit model pricePolicy).afterAll calls
  have hfills : evaluated.fills = self.fills ↔
      NotMatched trading ∨ FillsNone self event occurrence :=
    htracks.fills_iff hash event occurrence trading
  refine and_congr (imp_congr_right fun hphase => ?_)
    (imp_congr_right fun _ => imp_congr_right fun _ => hfills)
  have hstopped : NotMatched trading := .inr (.inr (by rw [coolDown_blocks context hphase]; rfl))
  rw [and_iff_right (hfills.2 (.inl hstopped))]
  exact everyCall_congr hash (new_sound_simulator new)
    (fun s call hs => imp_congr_right fun hdraws => call.fills_iff hash hs hdraws) scheduledCalls

/-- Just before the opening, an auction collects orders. -/
def openingStatus : DomainEvent := auctionStatus (.new .opening false false) (-20)

/-- The uncross of an opening auction: ten lots at a hundred. -/
def openingUncross : DomainEvent :=
  { sampleQuote sampleInstrument firstDay (-10) with
    payload := .quoteSnapshot
      ⟨sampleBook, .set ⟨samplePrice 100, sampleLots 10 tenLots, .regular⟩, .noObservation, .none,
        .set (.auctionUncross (.new .opening false false)), by decide +kernel⟩ }

/-- A buy of ten lots at a hundred, sent at the status. -/
def limitBuyAfter (trading : TradingContext) : Simulator :=
  (runSim sampleHash
    [.submit ⟨[], Eq.refl true⟩ (occurrenceAfter openingStatus 1) trading (Unsigned.wrap 32 1)
    ⟨sampleInstrument, .buy, sampleLots 10 tenLots, .limit (samplePrice 100)⟩]
    ⟨Simulator.newWithPricePolicy [sampleInstrument] .tradingUnit
      ⟨.tradePrint, .displayed, Decimal.zero, 0, 0⟩
      .positiveOnly, []⟩).simulator

/-- A book after the close. -/
def lateQuote : DomainEvent := sampleQuote sampleInstrument firstDay 1000010

/-- The late book becomes visible with its trading context. -/
def showLateQuote (trading : TradingContext) : SimulatorCall :=
  .publishVisibleBook { sampleEvidence 1000010 1000010 (by decide +kernel) with
    matching := trading.matching, newOrderEntry := trading.newOrderEntry }

/-- A buy for one lot at one, below every offer, that stays active. -/
def lowBuy : OrderSubmission := sampleSubmission 0 { sampleRequest 97 (Eq.refl true) .buy 10 with
  intent := ⟨sampleInstrument, .buy, sampleLots 1 oneLot, .limit (samplePrice 1)⟩ }

/-- A buy that is to sweep the late book when it is activated. -/
def lateBuy : OrderSubmission :=
  sampleSubmission 1 { sampleRequest 98 (Eq.refl true) .buy 1000010 with
    executionPolicy := .visibleDepthAtActivationV1 }

/-- Whether the late quote has a context in a cool-down, and what else holds of the context. -/
def lateCheck (p : TradingContext → Bool) : Bool :=
  (contextAfter [] lateQuote).toOption.any fun reached =>
    reached.2.2.2.session.phase = .coolDown && reached.2.2.2.newOrderEntry = .blocked .coolDown &&
      p reached.2.2.2

theorem lateCheck_ok {p : TradingContext → Bool} (h : lateCheck p = true) :
    ∃ before state receipt trading,
    contextAfter [] lateQuote = .ok (before, state, receipt, trading) ∧
    trading.session.phase = .coolDown ∧
      p trading = true := by
  simp only [lateCheck, Option.any_eq_true, Bool.and_eq_true, decide_eq_true_eq, toOption_eq_some]
    at h
  obtain ⟨⟨before, state, receipt, trading⟩, hrun, ⟨hphase, -⟩, hp⟩ := h
  exact ⟨before, state, receipt, trading, hrun, hphase, hp⟩

def bookOf (s : ScheduledDepthSimulator) (event : DomainEvent) (trading : TradingContext) : Bool :=
  s.books[event.instrument]?.any fun book => book.evidence.matchTime = event.matchTime &&
    book.evidence.matching = trading.matching && book.evidence.newOrderEntry = trading.newOrderEntry

theorem bookOf_iff (s : ScheduledDepthSimulator) (event : DomainEvent) (trading : TradingContext) :
    bookOf s event trading = true ↔ BookOf s event trading := by
  simp only [bookOf, Option.any_eq_true, Bool.and_eq_true, decide_eq_true_eq, and_assoc, BookOf]

def idOf (o : OrderSubmission) : OrderId := (o.orderId sampleHash).getD ⟨sampleHash []⟩

/-- A buy at one that rests since the session, a buy that is to be activated at the late book, and
the book. -/
def lateOrders (trading : TradingContext) : List SimulatorCall :=
  [.submit lowBuy, .activate (idOf lowBuy) (Unsigned.wrap 64 1) (sampleTime 10),
    .submit lateBuy, showLateQuote trading]

/-- The late buy comes to its activation, and the late book is then evaluated. -/
def lateActivation : SimulatorCall :=
  .activate (idOf lateBuy) (Unsigned.wrap 64 2) (sampleTime 1000010)

def lateEvaluation : SimulatorCall :=
  .evaluateActive sampleInstrument (Unsigned.wrap 64 3) (sampleTime 1000010)

/-- No order that rests has anything on offer. -/
def offersNothing (s : ScheduledDepthSimulator) : Bool :=
  (s.eligibleOrders (passiveEligible sampleInstrument)).all fun index =>
    s.orders[index]?.all fun order =>
    s.configs[order.request.intent.instrument]?.all fun profile =>
      s.books[order.request.intent.instrument]?.all fun book =>
      offered book.evidence.book order.request.intent.side profile.model.depthLevels
        order.request.intent.orderType
        profile.model.adversePriceDelta (book.consumed order.request.intent.side) = 0

theorem depthQuiet_of_offersNothing {s : ScheduledDepthSimulator} {time : MatchTime}
    (h : offersNothing s = true) :
    DepthQuiet s sampleInstrument time := by
  intro before index after order hsplit found hmeets
  obtain ⟨profile, book, hprofile, hbook, -, -, hoffered⟩ := hmeets
  have hnone := List.all_eq_true.1 h index (by rw [hsplit]; simp)
  obtain ⟨hbook, -⟩ := Option.filter_eq_some_iff.1 hbook
  simp only [found, hprofile, hbook, Option.all_some, decide_eq_true_eq] at hnone
  exact absurd hoffered (by omega)

/-- The late book fills neither a buy below its offers nor one that is activated at it. -/
theorem late_quote_fills_no_scheduled_order : ∃ state trading,
    evaluate lateQuote (occurrenceAfter lateQuote 1) state sampleSegment = .ok trading ∧
    trading.session.phase = .coolDown ∧
    ∃ visible, visible = runCalls sampleHash (lateOrders trading) sampleSimulator ∧
      DrawsOn lateQuote (occurrenceAfter lateQuote 1) trading visible lateActivation ∧
      DrawsOn lateQuote (occurrenceAfter lateQuote 1) trading
        (stateAfter (lateActivation.run sampleHash visible))
        lateEvaluation ∧
      EveryCall sampleHash
        (fun s call => DrawsOn lateQuote (occurrenceAfter lateQuote 1) trading s call →
        (stateAfter (call.run sampleHash s)).fills = s.fills)
          (lateOrders trading ++ [lateActivation, lateEvaluation])
          sampleSimulator := by
  obtain ⟨_, state, _, trading, hrun, hphase, hp⟩ := lateCheck_ok (p := fun trading =>
    let visible := runCalls sampleHash (lateOrders trading) sampleSimulator
    let activated := stateAfter (lateActivation.run sampleHash visible)
    bookOf visible lateQuote trading && bookOf activated lateQuote trading &&
      offersNothing activated &&
      (visible.locate (idOf lateBuy)).any (fun entry =>
        entry.1.request.intent.instrument = sampleInstrument &&
          entry.1.request.executionPolicy = .visibleDepthAtActivationV1 &&
          (visible.visibleTradingState entry.1.request.intent.instrument (sampleTime 1000010)).any
            fun shown =>
            shown.newOrderEntry = .blocked .coolDown)) (by decide +kernel)
  simp only [Bool.and_eq_true, Option.any_eq_true, decide_eq_true_eq, and_assoc] at hp
  obtain ⟨hvisible, hactivated, hnothing, ⟨order, index⟩, hlocate, hinstrument, hpolicy, shown,
      hshown, hblocked⟩ := hp
  have hcontext := (contextAfter_ok hrun).2.2
  have hactivation : DrawsOn lateQuote (occurrenceAfter lateQuote 1) trading
      (runCalls sampleHash (lateOrders trading) sampleSimulator) lateActivation :=
    ⟨(bookOf_iff _ _ _).1 hvisible, order, index, hlocate, hinstrument, hpolicy⟩
  refine ⟨state, trading, hcontext, hphase, _, rfl, hactivation,
    ⟨(bookOf_iff _ _ _).1 hactivated, rfl⟩, ?_⟩
  refine ((phase_fills_nothing_iff sampleHash [] .tradingUnit
    ⟨.tradePrint, .displayed, Decimal.zero, 0, 0⟩ .positiveOnly []
    [sampleDepthConfig] sampleSimulator new_sampleDepthConfig
      (lateOrders trading ++ [lateActivation, lateEvaluation])
    lateQuote (occurrenceAfter lateQuote 1) state sampleSegment trading hcontext).2
      ⟨fun _ => ?_, fun hwarm => ?_⟩).1
      hphase |>.2
  · refine ⟨False.elim, fun h => ?_, False.elim, False.elim, fun _ => ?_, fun _ => ?_, trivial⟩
    · obtain ⟨⟨book, hbook, -⟩, -⟩ := h
      cases hbook
    · apply activationQuiet_of_blocked
      intro order' index' hlocate'
      cases hlocate.symm.trans hlocate'
      exact ⟨shown, hshown, hblocked⟩
    · exact depthQuiet_of_offersNothing hnothing
  · rw [hphase] at hwarm
    cases hwarm

/-- A buy that rests since the session, and the late book. -/
def restingBuy (trading : TradingContext) : List SimulatorCall :=
  [.submit sampleBuy, .activate (idOf sampleBuy) (Unsigned.wrap 64 1) (sampleTime 10),
    showLateQuote trading]

/-- A book after the close fills a resting buy, and an auction before the opening fills a limit
order. -/
theorem phases_fill :
    (∃ before state receipt trading,
      contextAfter [] lateQuote = .ok (before, state, receipt, trading) ∧
      trading.session.phase = .coolDown ∧
      ∃ visible, visible = runCalls sampleHash (restingBuy trading) sampleSimulator ∧
        DrawsOn lateQuote (occurrenceAfter lateQuote 1) trading visible lateEvaluation ∧
        visible.fills.length = 0 ∧
        (stateAfter (lateEvaluation.run sampleHash visible)).fills.length = 1) ∧
    ∃ collected reached : MarketState × MarketState × TransitionReceipt × TradingContext,
      contextAfter [] openingStatus = .ok collected ∧
      contextAfter [(openingStatus, sampleContext firstDay)] openingUncross = .ok reached ∧
      reached.2.2.2.session.phase = .warmUp ∧ reached.2.2.2.matching = .enabled .callAuction ∧
      (limitBuyAfter collected.2.2.2).fills.length = 0 ∧
      (stateAfter
        (Simulator.evaluate openingUncross (occurrenceAfter openingUncross 2) reached.2.2.2
        (limitBuyAfter collected.2.2.2))).fills.length = 1 := by
  refine ⟨?_, ?_⟩
  · obtain ⟨before, state, receipt, trading, hrun, hphase, hp⟩ := lateCheck_ok (p := fun trading =>
      let visible := runCalls sampleHash (restingBuy trading) sampleSimulator
      bookOf visible lateQuote trading && visible.fills.length = 0 &&
        (stateAfter (lateEvaluation.run sampleHash visible)).fills.length = 1) (by decide +kernel)
    simp only [Bool.and_eq_true, decide_eq_true_eq, and_assoc] at hp
    obtain ⟨hbook, hnone, hfilled⟩ := hp
    exact ⟨before, state, receipt, trading, hrun, hphase, _, rfl, ⟨(bookOf_iff _ _ _).1 hbook, rfl⟩,
      hnone, hfilled⟩
  · have hboth : (contextAfter [] openingStatus).toOption.any (fun collected =>
        (contextAfter [(openingStatus, sampleContext firstDay)] openingUncross).toOption.any
          fun reached =>
          reached.2.2.2.session.phase = .warmUp && reached.2.2.2.matching = .enabled .callAuction &&
          (limitBuyAfter collected.2.2.2).fills.length = 0 &&
          (stateAfter
            (Simulator.evaluate openingUncross (occurrenceAfter openingUncross 2) reached.2.2.2
            (limitBuyAfter collected.2.2.2))).fills.length = 1) = true := by
      decide +kernel
    simp only [Option.any_eq_true, Bool.and_eq_true, decide_eq_true_eq, toOption_eq_some] at hboth
    obtain ⟨collected, hcollected, reached, hreached, ⟨⟨hphase, hmatching⟩, hnone⟩, hfills⟩ := hboth
    exact ⟨collected, reached, hcollected, hreached, hphase, hmatching, hnone, hfills⟩

end Phase

end Osmium
