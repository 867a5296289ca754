import Osmium.Proofs.Replay
import Osmium.Proofs.Simulator
import Osmium.Sanity.Evaluation

/-! One evaluation of the subsequent-event simulator in any state its calls lead to: when both sides
together stay within one trade print, and when a failed evaluation leaves nothing behind. -/

namespace Osmium
open Machine Bytes Result Stateful Simulator

/-- The event is not matched at all. -/
def NotMatched (trading : TradingContext) : Prop :=
  interruptsMatching trading.marketSignal = true ∨ trading.matching.isEnabled = false ∨
    entryStopped trading.newOrderEntry = true

section Example

/-- A trade of ten lots and nothing else. -/
def printOf (units : ℤ) (micros : ℤ) : DomainEvent where
  instrument := sampleInstrument
  tradingDate := firstDay
  sourceFormat := MarketStateProfile.stockSnapshot
  matchTime := sampleTime micros
  sourceSequence := none
  payload :=
    .tradeBatch
      ⟨[⟨samplePrice units, sampleLots 10 tenLots, .regular⟩], .unspecified, .noObservation, .none,
    .noObservation, rfl⟩

def occurrenceOf (event : DomainEvent) (ordinal : ℕ) : EventOccurrence where
  runEventOrdinal := Unsigned.wrap 64 ordinal
  orderingKey :=
    ⟨event.matchTime, event.instrument.market.discriminant, event.instrument.symbol,
      event.sourceFormat, 0, 0,
    none, ⟨sampleHash []⟩⟩
  eventFingerprint := ⟨sampleHash []⟩
  instrumentStateVersion := Unsigned.wrap 64 ordinal

/-- Continuous trading in the regular session, open to orders. -/
def continuousTrading : TradingContext where
  eventFingerprint := ⟨sampleHash []⟩
  instrumentStateVersion := Unsigned.wrap 64 1
  session := ⟨regularSegment, .regular, .active⟩
  newOrderEntry := .allowed
  matching := .enabled .continuous
  auction := none
  marketSignal := none
  marketRuleName := ⟨[], by decide⟩
  marketRuleVersion := Unsigned.wrap 16 1

def marketOrderOf (side : OrderSide) : OrderIntent :=
  ⟨sampleInstrument, side, sampleLots 10 tenLots, .market⟩

/-- Market orders of ten lots, a buy and then a sell, sent at one print. -/
def buyThenSell : List SimCall :=
  [.submit ⟨[], by decide⟩ (occurrenceOf (printOf 1 0) 1) continuousTrading (Unsigned.wrap 32 1)
    (marketOrderOf .buy),
    .submit ⟨[], by decide⟩ (occurrenceOf (printOf 1 0) 1) continuousTrading (Unsigned.wrap 32 2)
      (marketOrderOf .sell)]

/-- The simulator that holds the two orders. -/
def bothSides (delta : Decimal) : Simulator :=
  (runSim sampleHash buyThenSell
    ⟨newWithPricePolicy [sampleInstrument] .tradingUnit ⟨.tradePrint, .displayed, delta, 0, 0⟩
    .positiveOnly, []⟩).simulator

end Example

section Print

/-- The quantity of the trade that an event prints. -/
def printedQuantity (event : DomainEvent) : ℕ :=
  match evidence event .tradePrint .buy with
  | none => 0
  | some offer => offer.2.value.val

def filledQuantity (fills : List FillRecord) : ℕ :=
  (fills.map fun fill => fill.quantity.value.val).sum

/-- One print is evidence for both sides. -/
theorem evidence_tradePrint (event : DomainEvent) (side : OrderSide) :
    evidence event .tradePrint side = evidence event .tradePrint .buy := by
  cases side with
  | buy => rfl
  | sell =>
    unfold evidence
    cases event.payload <;> rfl

theorem displayedTo_tradePrint {model : FillModel} (hmodel : model.evidence = .tradePrint)
    (event : DomainEvent)
    (side : OrderSide) : displayedTo model event side = printedQuantity event := by
  have hside : evidence event model.evidence side = evidence event .tradePrint .buy := by
    rw [hmodel, evidence_tradePrint]
  unfold displayedTo printedQuantity
  cases hprint : evidence event .tradePrint .buy with
  | none => simp only [hside, hprint]
  | some offer => simp only [hside, hprint]

theorem filledQuantity_grants (grants : List Grant) :
    filledQuantity (grants.map Grant.fill) = sideTotal grants .buy + sideTotal grants .sell := by
  induction grants with
  | nil => rfl
  | cons grant grants ih =>
    unfold filledQuantity at ih ⊢
    rw [List.map_cons, List.map_cons, List.sum_cons, ih, sideTotal_cons, sideTotal_cons]
    unfold Grant.value
    cases grant.order.intent.side with
    | buy => simp [Nat.add_assoc]
    | sell => simp [Nat.add_left_comm]

/-- Where a side wants something, the print is offered to it. -/
theorem offered_of_wanted {self : Simulator} {event : DomainEvent} {occurrence : EventOccurrence}
    {orders : List SimOrder} {side : OrderSide} (hmodel : self.model.evidence = .tradePrint)
    (h : self.wanted event occurrence orders side ≠ 0) :
    (self.available event).offered side = printedQuantity event ∧ 0 < printedQuantity event := by
  obtain ⟨order, -, hside, hwants⟩ : ∃ order ∈ orders, order.intent.side = side ∧
      self.wants event occurrence order = true := by
    by_contra hnone
    refine h ?_
    unfold wanted
    rw [List.filter_eq_nil_iff.2 fun order horder => ?_]
    · rfl
    · rw [decide_eq_true_eq]
      exact fun hboth => hnone ⟨order, horder, hboth⟩
  unfold wants at hwants
  cases halone : self.alone event occurrence order with
  | error e => simp [halone] at hwants
  | ok fill =>
    cases fill with
    | none => simp [halone] at hwants
    | some fill =>
      obtain ⟨offer, hoffer, -⟩ := grant_ok (self.offers_available event) halone
      rw [hside] at hoffer
      have hoffered := offered_available hoffer
      rw [displayedTo_tradePrint hmodel] at hoffered
      refine ⟨hoffered, ?_⟩
      rw [← hoffered, Available.offered, hoffer]
      exact offer.2.pos

/-- What both sides are filled together, wherever a tracked simulator is. -/
theorem Tracks.shares_print {model : FillModel} {pricePolicy : PricePolicy} {run : SimRun}
    (h : Tracks model pricePolicy run) (hevidence : model.evidence = .tradePrint)
    (hquantity : model.quantity = .displayed) (event : DomainEvent) (occurrence : EventOccurrence) :
    let self := run.simulator
    sideTotal (self.matchGrants event occurrence) .buy +
      sideTotal (self.matchGrants event occurrence) .sell ≤
        printedQuantity event ↔
      self.wanted event occurrence self.orders .buy = 0 ∨
      self.wanted event occurrence self.orders .sell = 0 ∨
        self.wanted event occurrence self.orders .buy +
          self.wanted event occurrence self.orders .sell ≤
          printedQuantity event := by
  intro self
  replace hevidence : self.model.evidence = .tradePrint := h.rules.1 ▸ hevidence
  replace hquantity : self.model.quantity = .displayed := h.rules.1 ▸ hquantity
  have hoffers := self.offers_available event
  have hleaves := self.leaves_available event
  have hwithin (side : OrderSide) :
      sideTotal (self.matchGrants event occurrence) side ≤
        self.wanted event occurrence self.orders side :=
    sideTotal_le_wanted h.sound hoffers hleaves side
  have hprinted (side : OrderSide) :
      sideTotal (self.matchGrants event occurrence) side ≤ printedQuantity event := by
    rw [← displayedTo_tradePrint hevidence event side]
    exact (sideTotal_le_offered hquantity hoffers side).trans (offered_available_le self event side)
  have hbuy := hprinted .buy
  have hsell := hprinted .sell
  have hbuy' := hwithin .buy
  have hsell' := hwithin .sell
  by_cases hzero : self.wanted event occurrence self.orders .buy = 0 ∨
    self.wanted event occurrence self.orders .sell = 0
  · refine iff_of_true ?_ (hzero.elim .inl fun h => .inr (.inl h))
    omega
  · obtain ⟨hwantsBuy, hwantsSell⟩ := not_or.1 hzero
    -- both sides are filled somewhere, so that the slippage of neither is refused
    have hnone : ∀ order ∈ self.orders, ¬ self.Fails event occurrence order := by
      intro order horder hfails
      cases hside : order.intent.side with
      | buy => exact hwantsBuy (wanted_eq_zero_of_fails (h.sound order horder) hfails hside)
      | sell => exact hwantsSell (wanted_eq_zero_of_fails (h.sound order horder) hfails hside)
    have htotal (side : OrderSide) (hwants : self.wanted event occurrence self.orders side ≠ 0) :
        sideTotal (self.matchGrants event occurrence) side =
          min (printedQuantity event) (self.wanted event occurrence self.orders side) := by
      rw [← (offered_of_wanted hevidence hwants).1]
      exact sideTotal_eq_min hquantity h.sound hoffers hleaves hnone side
    have hpositive := (offered_of_wanted hevidence hwantsBuy).2
    rw [htotal .buy hwantsBuy, htotal .sell hwantsSell]
    omega

/-- Orders of both sides stay within one print together exactly when only one side can be filled, or
all of it fits. -/
theorem print_filled_once_iff (hash : List UInt8 → Digest) (instruments : List InstrumentId)
    (quantityUnit : QuantityUnit)
    (adversePriceDelta : Decimal) (marketDataLatencyMs orderLatencyMs : U64)
    (pricePolicy : PricePolicy)
    (calls : List SimCall) (event : DomainEvent) (occurrence : EventOccurrence)
    (trading : TradingContext) :
    let model : FillModel :=
      ⟨.tradePrint, .displayed, adversePriceDelta, marketDataLatencyMs, orderLatencyMs⟩
    let self :=
      (runSim hash calls
        ⟨newWithPricePolicy instruments quantityUnit model pricePolicy, []⟩).simulator
    let after := stateAfter (Simulator.evaluate event occurrence trading self)
    let wanted := self.wanted event occurrence self.orders
    filledQuantity (after.fills.drop self.fills.length) ≤ printedQuantity event ↔
      NotMatched trading ∨ wanted .buy = 0 ∨ wanted .sell = 0 ∨
      wanted .buy + wanted .sell ≤ printedQuantity event := by
  intro model self after wanted
  have htracks : Tracks model pricePolicy
      (runSim hash calls ⟨newWithPricePolicy instruments quantityUnit model pricePolicy, []⟩) :=
    (Tracks.initial instruments quantityUnit model pricePolicy).afterAll calls
  have hfills :
      after.fills = self.fills ++ (self.evaluateGrants event occurrence trading).map Grant.fill :=
    htracks.evaluate_fills event occurrence trading hash
  rw [hfills, List.drop_left, filledQuantity_grants]
  by_cases hmatched : NotMatched trading
  · rw [show self.evaluateGrants event occurrence trading = [] from if_pos hmatched]
    exact iff_of_true (Nat.zero_le _) (.inl hmatched)
  · rw [show self.evaluateGrants event occurrence trading = self.matchGrants event occurrence from
      if_neg hmatched, or_iff_right hmatched]
    exact htracks.shares_print rfl rfl event occurrence

/-- The buy and the sell both take all of the ten lots of one print. -/
theorem print_filled_twice :
    printedQuantity (printOf 1 1) = 10 ∧
      filledQuantity
        ((stateAfter
          (Simulator.evaluate (printOf 1 1) (occurrenceOf (printOf 1 1) 2) continuousTrading
        (bothSides Decimal.zero))).fills.drop (bothSides Decimal.zero).fills.length) = 20 := by
  decide +kernel

end Print

section Failure
variable {self : Simulator} {event : DomainEvent} {occurrence : EventOccurrence}

/-- If the event fails on an order, then on one before all that it would fill. -/
def FailsFirst (self : Simulator) (event : DomainEvent) (occurrence : EventOccurrence) : Prop :=
  (∃ order ∈ self.orders, self.Fails event occurrence order) →
    ∀ before order after, self.orders = before ++ order :: after →
    self.wants event occurrence order = true →
      ∃ other ∈ before, self.Fails event occurrence other

/-- Every order that the event alone would fill comes after one on which it fails. -/
def FillsNone (self : Simulator) (event : DomainEvent) (occurrence : EventOccurrence) : Prop :=
  ∀ before order after, self.orders = before ++ order :: after →
  self.wants event occurrence order = true →
    ∃ other ∈ before, self.Fails event occurrence other

/-- An evaluation fills nothing exactly when its event is not matched, or fills no order. -/
theorem Tracks.fills_iff {model : FillModel} {pricePolicy : PricePolicy} {run : SimRun}
    (h : Tracks model pricePolicy run) (hash : List UInt8 → Digest) (event : DomainEvent)
    (occurrence : EventOccurrence) (trading : TradingContext) :
    (stateAfter (Simulator.evaluate event occurrence trading run.simulator)).fills =
      run.simulator.fills ↔
      NotMatched trading ∨ FillsNone run.simulator event occurrence := by
  have hfills :
      (stateAfter (Simulator.evaluate event occurrence trading run.simulator)).fills = _ :=
    h.evaluate_fills event occurrence trading hash
  rw [hfills, List.append_right_eq_self, List.map_eq_nil_iff]
  by_cases hmatched : NotMatched trading
  · rw [show run.simulator.evaluateGrants event occurrence trading = [] from if_pos hmatched]
    exact iff_of_true rfl (.inl hmatched)
  · rw [show run.simulator.evaluateGrants event occurrence trading =
      run.simulator.matchGrants event occurrence
      from if_neg hmatched, or_iff_right hmatched]
    exact passGrants_eq_nil_iff h.sound

/-- A pass without grants leaves the orders as they are. -/
theorem map_fst_of_passGrants_nil {orders : List SimOrder} {result : List (SimOrder × Option Grant)}
    (h : List.Forall₂ (self.Passes event occurrence) orders result)
    (hnone : result.filterMap Prod.snd = []) :
    result.map Prod.fst = orders := by
  induction h with
  | nil => rfl
  | cons hpass _ ih =>
    rcases hpass with rfl | ⟨grant, rfl, -⟩
    · rw [List.map_cons, ih hnone]
    · cases hnone

theorem matchOrders_fails_iff
    (hsorted : self.orders.Pairwise fun a b => a.acceptanceSequence < b.acceptanceSequence)
    (hsound : ∀ order ∈ self.orders, order.Sound) :
    (∃ e after, matchOrders event occurrence self = .error e after) ↔
      ∃ order ∈ self.orders, self.Fails event occurrence order := by
  have huntouched (order : SimOrder) (hfails : self.Fails event occurrence order) :
      (self.available event).side order.intent.side ≠ none := by
    intro hnone
    obtain ⟨e, hfails⟩ := hfails
    rw [alone, grant, hnone] at hfails
    split_ifs at hfails
  rw [← each_passOrder_fails hsound ⟨[], self.available event, self.fills, []⟩
    (self.offers_available event)
    (self.leaves_available event) fun order _ => huntouched order]
  unfold matchOrders
  rw [get_bind, insertionSort_orders hsorted]
  cases hpass : each (self.passOrder event occurrence) self.orders
    ⟨[], self.available event, self.fills, []⟩ with
  | ok u final => exact iff_of_false (fun ⟨_, _, h⟩ => nomatch h) fun ⟨_, _, h⟩ => nomatch h
  | error e final => exact iff_of_true ⟨e, _, rfl⟩ ⟨e, final, rfl⟩

/-- An evaluation fails exactly when its event is matched and fails on some order. -/
theorem evaluate_fails_iff
    (hsorted : self.orders.Pairwise fun a b => a.acceptanceSequence < b.acceptanceSequence)
    (hsound : ∀ order ∈ self.orders, order.Sound) (event : DomainEvent)
    (occurrence : EventOccurrence) (trading : TradingContext) :
    (∃ e after, Simulator.evaluate event occurrence trading self = .error e after) ↔
      ¬ NotMatched trading ∧ ∃ order ∈ self.orders, self.Fails event occurrence order := by
  unfold Simulator.evaluate NotMatched
  by_cases hinterrupt : interruptsMatching trading.marketSignal = true
  · rw [if_pos hinterrupt]
    exact iff_of_false (fun ⟨_, _, h⟩ => nomatch h) fun h => h.1 (.inl hinterrupt)
  · rw [if_neg hinterrupt]
    by_cases hstopped : trading.matching.isEnabled = false ∨
      entryStopped trading.newOrderEntry = true
    · rw [if_pos hstopped]
      exact iff_of_false (fun ⟨_, _, h⟩ => nomatch h) fun h => h.1 (.inr hstopped)
    · rw [if_neg hstopped, matchOrders_fails_iff hsorted hsound]
      exact ⟨fun h => ⟨not_or.2 ⟨hinterrupt, hstopped⟩, h⟩, And.right⟩

/-- A failed evaluation leaves the orders and the fills as they were exactly when it fails on an
order before all that it would fill. -/
theorem failed_evaluation_unchanged_iff (hash : List UInt8 → Digest)
    (instruments : List InstrumentId)
    (quantityUnit : QuantityUnit) (model : FillModel) (pricePolicy : PricePolicy)
    (calls : List SimCall)
    (event : DomainEvent) (occurrence : EventOccurrence) (trading : TradingContext) :
    let self :=
      (runSim hash calls
        ⟨newWithPricePolicy instruments quantityUnit model pricePolicy, []⟩).simulator
    (∀ e after, Simulator.evaluate event occurrence trading self = .error e after →
        after.orders = self.orders ∧ after.fills = self.fills) ↔
      NotMatched trading ∨ FailsFirst self event occurrence := by
  intro self
  have htracks : Tracks model pricePolicy
      (runSim hash calls ⟨newWithPricePolicy instruments quantityUnit model pricePolicy, []⟩) :=
    (Tracks.initial instruments quantityUnit model pricePolicy).afterAll calls
  have hsorted := htracks.order_sorted
  have hfails := evaluate_fails_iff hsorted htracks.sound event occurrence trading
  by_cases hmatched : NotMatched trading
  · refine iff_of_true (fun e after h => ?_) (.inl hmatched)
    exact absurd hmatched (hfails.1 ⟨e, after, h⟩).1
  · have hstate : stateAfter (Simulator.evaluate event occurrence trading self) = { self with
        orders := (self.matchResult event occurrence).map Prod.fst
        fills := self.fills ++ (self.matchGrants event occurrence).map Grant.fill } := by
      obtain ⟨hinterrupt, hstopped⟩ := not_or.1 hmatched
      unfold Simulator.evaluate
      rw [if_neg hinterrupt, if_neg hstopped]
      exact stateAfter_matchOrders hsorted htracks.sound
    rw [or_iff_right hmatched]
    refine ⟨fun hunchanged hsome => ?_, fun hfirst e after h => ?_⟩
    · obtain ⟨e, after, h⟩ := hfails.2 ⟨hmatched, hsome⟩
      have hfills := (hunchanged e after h).2
      rw [h] at hstate
      rw [show after = _ from hstate] at hfills
      refine (passGrants_eq_nil_iff htracks.sound).1 ?_
      exact List.map_eq_nil_iff.1 (List.append_right_eq_self.1 hfills)
    · have hnone := (passGrants_eq_nil_iff htracks.sound).2 (hfirst (hfails.1 ⟨e, after, h⟩).2)
      rw [h] at hstate
      rw [show after = _ from hstate]
      refine ⟨map_fst_of_passGrants_nil (passResult_passes (self.offers_available event)) hnone, ?_⟩
      rw [matchGrants, hnone]
      exact List.append_nil _

/-- A print at one with a slippage of one fills the buy, and then refuses the sell at zero. -/
theorem failed_evaluation_keeps_fill : ∃ before after, before = bothSides (samplePrice 1).value ∧
    Simulator.evaluate (printOf 1 1) (occurrenceOf (printOf 1 1) 2) continuousTrading before =
      .error .invalidSlippage after ∧
    after.orders ≠ before.orders ∧ after.fills.length = before.fills.length + 1 := by
  have hfails :
      failsAnd (Simulator.evaluate (printOf 1 1) (occurrenceOf (printOf 1 1) 2) continuousTrading
      (bothSides (samplePrice 1).value)) (fun e after => e = .invalidSlippage ∧
        after.orders ≠ (bothSides (samplePrice 1).value).orders ∧
        after.fills.length = (bothSides (samplePrice 1).value).fills.length + 1) = true := by
    decide +kernel
  obtain ⟨e, after, h, hkeeps⟩ := exists_of_failsAnd hfails
  obtain ⟨rfl, hchanged⟩ := of_decide_eq_true hkeeps
  exact ⟨_, after, rfl, h, hchanged⟩

end Failure

end Osmium
