import Osmium.Proofs.Auction
import Osmium.Proofs.Evaluation

/-! A volatility interruption in the subsequent-event simulator. The interruption is a phase of the
market state and lasts until an event ends it; the simulator reads it off the signal of each event
alone. -/

namespace Osmium
open Machine Bytes Result Stateful Simulator

section Interruption
open MarketTradingContextEvaluator

/-- The market phase is the auction of a volatility interruption. -/
def Interrupted (state : MarketState) : Prop :=
  ∃ auction, state.phase.known? = some (.auction auction) ∧
  auction.observation.purpose = .known .volatilityInterruption

/-- No market order of the instrument is open. -/
def NoMarketPending (instrument : InstrumentId) (self : Simulator) : Prop :=
  ∀ order ∈ self.orders, order.status.isOpen = true → order.intent.instrument = instrument →
    order.intent.orderType ≠ .market

/-- What may be called besides the events of the instrument. -/
def Between (instrument : InstrumentId) : SimCall → Prop
  | .evaluate event _ _ => event.instrument ≠ instrument
  | .submit _ _ _ _ _ | .cancelSegmentEnd _ | .cancelEndOfRun => True

/-- A market order of the instrument is sent under the context of the instrument's own event, or it
is rejected. -/
def EntersUnder (initial : Simulator) (instrument : InstrumentId) (trading : TradingContext) :
    SimCall → Prop
  | .submit _ _ other _ intent => intent.instrument = instrument → intent.orderType = .market →
    other = trading ∨ initial.rejection other intent ≠ none
  | .evaluate _ _ _ | .cancelSegmentEnd _ | .cancelEndOfRun => True

/-- Calls besides the events of the instrument, that enter no market order while matching is
interrupted. -/
structure CalledAt (initial : Simulator) (instrument : InstrumentId) (state : MarketState)
    (trading : TradingContext) (calls : List SimCall) : Prop where
  between : ∀ call ∈ calls, Between instrument call
  enters : Interrupted state → ∀ call ∈ calls, EntersUnder initial instrument trading call

/-- An event of an interruption says so itself. Or it is not matched or fills nothing, and no market
order is left from before the interruption. -/
def HaltsMatching (state next : MarketState) (event : DomainEvent) (occurrence : EventOccurrence)
    (trading : TradingContext) (self : Simulator) : Prop :=
  Interrupted next → interruptsMatching trading.marketSignal = true ∨
    (NotMatched trading ∨ FillsNone self event occurrence) ∧
    (Interrupted state ∨ NoMarketPending event.instrument self)

/-- The market state and the simulator through the events of one instrument, whose steps all halt
matching. An event is first shown to the strategy and then evaluated; orders are placed in between,
and further calls follow. -/
inductive HaltingRun (hash : List UInt8 → Digest) (reducer : MarketStateReducer)
    (instrument : InstrumentId) (initial : Simulator) : MarketState → Simulator → Prop
  | new (tradingDate : TradingDate) :
      HaltingRun hash reducer instrument initial (.new instrument tradingDate) initial
  | step {state next : MarketState} {self : Simulator} {event : DomainEvent}
      {context : ReducerContext}
      {receipt : TransitionReceipt} {occurrence : EventOccurrence} {segment : SessionSegment}
      {trading : TradingContext}
      {placed calls : List SimCall} (run : HaltingRun hash reducer instrument initial state self)
      (applied : reducer.apply hash state event context = .ok (next, receipt))
      (evaluated : MarketTradingContextEvaluator.evaluate event occurrence next segment =
        .ok trading)
      (places : CalledAt initial instrument next trading placed)
      (halts :
        HaltsMatching state next event occurrence trading (placed.foldl (SimCall.after hash) self))
      (called : CalledAt initial instrument next trading calls) :
      HaltingRun hash reducer instrument initial next (calls.foldl (SimCall.after hash)
        (stateAfter
          (Simulator.evaluate event occurrence trading (placed.foldl (SimCall.after hash) self))))
  | nextDate {state : MarketState} {self : Simulator}
      (run : HaltingRun hash reducer instrument initial state self)
      (tradingDate : TradingDate) :
      HaltingRun hash reducer instrument initial (.new instrument tradingDate) self

section Context
variable {hash : List UInt8 → Digest} {reducer : MarketStateReducer} {state next : MarketState}
  {event : DomainEvent}
  {context : ReducerContext} {receipt : TransitionReceipt} {occurrence : EventOccurrence}
  {segment : SessionSegment}
  {trading : TradingContext}

end Context

section Orders
variable {hash : List UInt8 → Digest} {model : FillModel} {pricePolicy : PricePolicy} {run : SimRun}
  {initial self : Simulator} {instrument : InstrumentId} {trading : TradingContext}

theorem NoMarketPending.follows {self : Simulator} {orders : List SimOrder}
    (h : NoMarketPending instrument self)
    (hfollows : List.Forall₂ SimOrder.Follows self.orders orders) :
    ∀ order ∈ orders, order.status.isOpen = true → order.intent.instrument = instrument →
      order.intent.orderType ≠ .market := by
  intro order horder hopen
  obtain ⟨index, hindex, rfl⟩ := List.mem_iff_getElem.1 horder
  have hbefore : index < self.orders.length := hfollows.length_eq ▸ hindex
  obtain ⟨hsubmitted, hstill⟩ := List.Forall₂.get hfollows hbefore hindex
  have hintent : orders[index].intent = self.orders[index].intent :=
    (SimOrder.eq_of_submitted hsubmitted).2.1
  rw [hintent]
  exact h _ (List.getElem_mem hbefore) (hstill hopen)

/-- What a simulator rejects depends on nothing that a call changes. -/
theorem Tracks.rejection_after (hash : List UInt8 → Digest) (htracks : Tracks model pricePolicy run)
    (call : SimCall) :
    (call.after hash run.simulator).rejection = run.simulator.rejection := by
  cases call with
  | submit strategyId occurrence trading outputSequence intent =>
    rw [SimCall.after]
    rcases stateAfter_submit hash run.simulator strategyId occurrence trading
      outputSequence intent with
      hstate | ⟨_, _, hstate, -⟩
    · rw [hstate]
    · rw [hstate]
      rfl
  | evaluate event occurrence trading =>
    rw [SimCall.after]
    rcases stateAfter_evaluate htracks.order_sorted htracks.sound event occurrence trading with
      ⟨-, _, hstate⟩ | ⟨-, hstate⟩
    · rw [hstate]
      rfl
    · rw [hstate]
      rfl
  | cancelSegmentEnd segmentId => rfl
  | cancelEndOfRun => rfl

/-- Where a simulator has come to: it tracks what it granted, and rejects what it did at first. -/
def Reached (model : FillModel) (pricePolicy : PricePolicy) (initial self : Simulator) : Prop :=
  ∃ grants, Tracks model pricePolicy ⟨self, grants⟩ ∧ self.rejection = initial.rejection

theorem Reached.after (h : Reached model pricePolicy initial self) (hash : List UInt8 → Digest)
    (call : SimCall) :
    Reached model pricePolicy initial (call.after hash self) := by
  obtain ⟨grants, htracks, hrejects⟩ := h
  exact ⟨_, htracks.after hash call, (htracks.rejection_after hash call).trans hrejects⟩

theorem Reached.afterAll (h : Reached model pricePolicy initial self) (hash : List UInt8 → Digest)
    (calls : List SimCall) :
    Reached model pricePolicy initial (calls.foldl (SimCall.after hash) self) := by
  induction calls generalizing self with
  | nil => exact h
  | cons call rest ih => exact ih (h.after hash call)

/-- Where the context refuses market orders, none is left open by a call. -/
theorem NoMarketPending.after (h : NoMarketPending instrument self)
    (hreached : Reached model pricePolicy initial self)
    (hash : List UInt8 → Digest) (hrefuses : entryAllowed trading.newOrderEntry .market = false)
    {call : SimCall} (henters : EntersUnder initial instrument trading call) :
    NoMarketPending instrument (call.after hash self) := by
  obtain ⟨grants, htracks, hrejects⟩ := hreached
  rcases htracks.orders_after hash call with
    ⟨hfollows, -⟩ | ⟨_, _, other, _, intent, order, _, rfl, hstate, haccepts⟩
  · exact h.follows hfollows
  · rw [hstate]
    intro candidate hcandidate hopen hinstrument hmarket
    rcases List.mem_append.1 hcandidate with hbefore | hnew
    · exact h candidate hbefore hopen hinstrument hmarket
    · obtain rfl := List.mem_singleton.1 hnew
      rw [haccepts.intent] at hinstrument hmarket
      have hallowed := haccepts.allowed
      rcases henters hinstrument hmarket with rfl | hrejected
      · simp only [rejection, hmarket, hrefuses] at hallowed
        split_ifs at hallowed
      · rw [hrejects] at hallowed
        exact hrejected hallowed

theorem NoMarketPending.afterAll (h : NoMarketPending instrument self)
    (hreached : Reached model pricePolicy initial self) (hash : List UInt8 → Digest)
    (hrefuses : entryAllowed trading.newOrderEntry .market = false) {more : List SimCall}
    (henters : ∀ call ∈ more, EntersUnder initial instrument trading call) :
    NoMarketPending instrument (more.foldl (SimCall.after hash) self) := by
  induction more generalizing self with
  | nil => exact h
  | cons call rest ih =>
    obtain ⟨hfirst, hrest⟩ := List.forall_mem_cons.1 henters
    exact ih (h.after hreached hash hrefuses hfirst) (hreached.after hash call) hrest

end Orders

section Run
variable {hash : List UInt8 → Digest} {reducer : MarketStateReducer} {instrument : InstrumentId}
  {initial : Simulator}
  {model : FillModel} {pricePolicy : PricePolicy} {state next : MarketState} {self : Simulator}
  {event : DomainEvent}
  {context : ReducerContext} {receipt : TransitionReceipt} {occurrence : EventOccurrence}
  {segment : SessionSegment}
  {trading : TradingContext}

theorem HaltingRun.reached (h : HaltingRun hash reducer instrument initial state self)
    (hinitial : Tracks model pricePolicy ⟨initial, []⟩) :
    Reached model pricePolicy initial self := by
  induction h with
  | new tradingDate => exact ⟨[], hinitial, rfl⟩
  | nextDate _ tradingDate ih => exact ih
  | @step _ _ _ event _ _ occurrence _ trading placed calls _ _ _ _ _ _ ih =>
    exact ((ih.afterAll hash placed).after hash (.evaluate event occurrence trading)).afterAll hash
      calls

end Run

end Interruption

end Osmium
