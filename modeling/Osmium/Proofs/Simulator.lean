import Osmium.Sanity.SimulatorCalls

/-! The subsequent-event simulator over whole runs of calls, failing ones included: how orders fill,
what justifies a fill, and how displayed quantity is shared out. -/

namespace Osmium
open Machine Bytes Result Stateful Simulator

section Displayed
variable {model : FillModel} {pricePolicy : PricePolicy} {run : SimRun}

/-- The quantity an event displays to a side. -/
def displayedTo (model : FillModel) (event : DomainEvent) (side : OrderSide) : ℕ :=
  match evidence event model.evidence side with
  | none => 0
  | some offer => offer.2.value.val

theorem side_available (self : Simulator) (event : DomainEvent) (side : OrderSide) :
    (self.available event).side side =
      (evidence event self.model.evidence side).filter fun offer =>
        self.pricePolicy.accepts offer.1 := by
  cases side with
  | buy => rfl
  | sell => rfl

theorem offered_available_le (self : Simulator) (event : DomainEvent) (side : OrderSide) :
    (self.available event).offered side ≤ displayedTo self.model event side := by
  unfold Available.offered displayedTo
  rw [side_available]
  cases evidence event self.model.evidence side with
  | none => exact le_rfl
  | some offer =>
    rw [Option.filter_some]
    split_ifs
    · exact le_rfl
    · exact Nat.zero_le _

theorem offered_available {self : Simulator} {event : DomainEvent} {side : OrderSide}
    {offer : Price × Quantity} (h : (self.available event).side side = some offer) :
    (self.available event).offered side = displayedTo self.model event side := by
  unfold Available.offered displayedTo
  rw [h, (Option.filter_eq_some_iff.1 ((side_available self event side).symm.trans h)).1]

theorem mem_evaluateGrants {self : Simulator} {event : DomainEvent} {occurrence : EventOccurrence}
    {trading : TradingContext}
    {grant : Grant} (h : grant ∈ self.evaluateGrants event occurrence trading) :
    self.evaluateGrants event occurrence trading = self.matchGrants event occurrence := by
  unfold evaluateGrants at h ⊢
  split_ifs at h ⊢ with hstopped
  · cases h
  · rfl

/-- Orders are attributed their own fills when no other order has their identity. -/
theorem Tracks.filled_by_id (h : Tracks model pricePolicy run) {order : SimOrder}
    (horder : order ∈ run.simulator.orders)
    (hunique : ∀ other ∈ run.simulator.orders, other.id = order.id →
      other.acceptanceSequence = order.acceptanceSequence) :
    order.filled.val =
      ((run.simulator.fills.filter fun fill => fill.orderId = order.id).map fun fill =>
        fill.quantity.value.val).sum := by
  rw [h.filled order horder, h.fills, List.filter_map, List.map_map, grantedTo]
  congr 2
  refine List.filter_congr fun grant hgrant => ?_
  obtain ⟨hjustified, hmem⟩ := h.granted grant hgrant
  obtain ⟨own, hown, hsame⟩ := List.mem_map.1 hmem
  have hid : grant.fill.orderId = own.id := by
    rw [hjustified.fill, (SimOrder.eq_of_submitted hsame).1]
    rfl
  have hsequence : own.acceptanceSequence = grant.order.acceptanceSequence :=
    (SimOrder.eq_of_submitted hsame).2.2
  simp only [Function.comp_apply, hid, ← hsequence, decide_eq_decide]
  refine ⟨fun heq => ?_, hunique own hown⟩
  -- acceptance sequences tell orders apart
  have hsorted := h.order_sorted
  by_contra hne
  obtain ⟨i, hi, rfl⟩ := List.getElem_of_mem hown
  obtain ⟨j, hj, rfl⟩ := List.getElem_of_mem horder
  rcases lt_trichotomy i j with hlt | rfl | hlt
  · exact absurd heq (List.pairwise_iff_getElem.1 hsorted i j hi hj hlt).ne
  · exact hne rfl
  · exact absurd heq (List.pairwise_iff_getElem.1 hsorted j i hj hi hlt).ne'

section Evaluation
variable (h : Tracks model pricePolicy run) (event : DomainEvent) (occurrence : EventOccurrence)
  (trading : TradingContext)

/-- What an evaluation grants is nothing, or what its one pass over the orders matches. -/
theorem evaluateGrants_cases (self : Simulator) :
    self.evaluateGrants event occurrence trading = [] ∨
      self.evaluateGrants event occurrence trading = self.matchGrants event occurrence := by
  by_cases hempty : self.evaluateGrants event occurrence trading = []
  · exact .inl hempty
  · obtain ⟨grant, hgrant⟩ := List.exists_mem_of_ne_nil _ hempty
    exact .inr (mem_evaluateGrants hgrant)

theorem matchResult_passes (self : Simulator) : List.Forall₂ (self.Passes event occurrence)
    self.orders (self.matchResult event occurrence) :=
  passResult_passes (offers_available self event)

include h

/-- An evaluation records the fills of its grants. -/
theorem Tracks.evaluate_fills (hash : List UInt8 → Digest) :
    (runSim hash [.evaluate event occurrence trading] run).simulator.fills =
      run.simulator.fills ++
        (run.simulator.evaluateGrants event occurrence trading).map Grant.fill := by
  have hfills := (h.after hash (.evaluate event occurrence trading)).fills
  rw [List.map_append, ← h.fills] at hfills
  exact hfills

/-- Its grants are in the order in which the orders were accepted. -/
theorem Tracks.grants_ordered :
    (run.simulator.evaluateGrants event occurrence trading).Pairwise
      fun a b => a.order.acceptanceSequence < b.order.acceptanceSequence := by
  rcases evaluateGrants_cases event occurrence trading run.simulator with hnone | hmatch
  · rw [hnone]
    exact .nil
  · have hsorted :=
      h.order_sorted.sublist (sublist_of_passes (matchResult_passes event occurrence _))
    rw [List.pairwise_map] at hsorted
    rw [hmatch]
    exact hsorted

theorem Tracks.sideTotal_le_displayed (hmodel : model.quantity = .displayed) (side : OrderSide) :
    sideTotal (run.simulator.evaluateGrants event occurrence trading) side ≤
      displayedTo model event side := by
  rcases evaluateGrants_cases event occurrence trading run.simulator with hnone | hmatch
  · rw [hnone]
    exact Nat.zero_le _
  · rw [hmatch, ← h.rules.1]
    exact (sideTotal_le_offered (h.rules.1 ▸ hmodel) (offers_available run.simulator event)
      side).trans (offered_available_le run.simulator event side)

variable {event occurrence trading}

/-- A grant takes what the grants before it have left, as far as its order needs it. -/
theorem Tracks.grant_takes_rest (hmodel : model.quantity = .displayed) {before after : List Grant}
    {grant : Grant}
    (hsplit : run.simulator.evaluateGrants event occurrence trading = before ++ grant :: after) :
    grant.value = min grant.order.remaining.val
      (displayedTo model event grant.order.intent.side -
        sideTotal before grant.order.intent.side) := by
  have hoffers := offers_available run.simulator event
  have hmem : grant ∈ run.simulator.evaluateGrants event occurrence trading :=
    hsplit ▸ List.mem_append_right _ List.mem_cons_self
  have hmatch := mem_evaluateGrants hmem
  rw [hmatch] at hsplit hmem
  have hmodel' : run.simulator.model.quantity = .displayed := h.rules.1 ▸ hmodel
  obtain ⟨-, -, -, hjustified⟩ := grant_of_passes (matchResult_passes event occurrence _) hmem
  obtain ⟨offer, hoffer, -⟩ := offer_eq_of_mem hoffers hmem
  have hsum := offer_of_passGrants hmodel' hoffers hsplit
  rw [offered_available hoffer, h.rules.1] at hsum
  have hvalue : grant.value = min grant.order.remaining.val grant.offer.2.value.val := by
    unfold Grant.value
    rw [hjustified.displayed hmodel']
    exact Monotone.map_min fun a b hle => hle
  rw [hvalue]
  omega

/-- An open order that the same evidence could fill is filled completely before a later one gets
anything. -/
theorem Tracks.earlier_filled {grant : Grant} {order : SimOrder}
    (hgrant : grant ∈ run.simulator.evaluateGrants event occurrence trading)
    (horder : order ∈ run.simulator.orders)
    (hbefore : order.acceptanceSequence < grant.order.acceptanceSequence)
    (hside : order.intent.side = grant.order.intent.side)
    (hmay : mayFill event occurrence order = true)
    (hunit : order.intent.quantity.unit = grant.order.intent.quantity.unit)
    (htouched : limitTouched order.intent grant.offer.1 = true)
    (hslipped : limitTouched order.intent grant.fill.price = true) :
    ∃ own ∈ run.simulator.evaluateGrants event occurrence trading, own.order = order ∧
      own.value = order.remaining.val := by
  have hmatch := mem_evaluateGrants hgrant
  rw [hmatch] at hgrant ⊢
  obtain ⟨hmem, -, -, hjustified⟩ := grant_of_passes (matchResult_passes event occurrence _) hgrant
  obtain ⟨earlier, rest, hsplit⟩ := List.append_of_mem horder
  have hsorted := h.order_sorted
  have hlater : grant.order ∈ rest := by
    rw [hsplit] at hmem hsorted
    rcases List.mem_append.1 hmem with hearly | hmem
    · exact absurd ((List.pairwise_append.1 hsorted).2.2 _ hearly order List.mem_cons_self)
        hbefore.asymm
    · rcases List.mem_cons.1 hmem with hsame | hmem
      · rw [hsame] at hbefore
        exact absurd hbefore (lt_irrefl _)
      · exact hmem
  unfold matchGrants at hgrant ⊢
  rw [hsplit] at hgrant hsorted ⊢
  refine filled_before (offers_available run.simulator event) hsorted
    (h.sound order horder) hgrant hlater hside hmay ?_ htouched hslipped
  exact hjustified.offerUnit.trans hunit.symm

end Evaluation

end Displayed

section Grants
variable {model : FillModel} {pricePolicy : PricePolicy} {hash : List UInt8 → Digest}
  {calls : List SimCall}
  {start : SimRun}

/-- How a grant comes about in a run of calls: a submission at `origin` is accepted as the order of
the grant, in the state that the calls before it lead to, and a later evaluation makes the grant. -/
inductive GrantedIn (hash : List UInt8 → Digest) (calls : List SimCall) (start : SimRun)
    (grant : Grant) (origin : EventOccurrence) : Prop
  | of (before : List SimCall) (strategyId : Text) (entryTrading : TradingContext)
      (outputSequence : U32)
      (middle : List SimCall) (trading : TradingContext) (after : List SimCall)
      (split : calls =
        before ++ .submit strategyId origin entryTrading outputSequence grant.order.intent ::
        (middle ++ .evaluate grant.event grant.occurrence trading :: after))
      (accepted : SimAccepts hash (runSim hash before start).simulator strategyId origin
        entryTrading outputSequence
        grant.order.intent grant.order.submitted)
      (granted :
        grant ∈ (runSim hash (before ++ .submit strategyId origin entryTrading outputSequence
        grant.order.intent :: middle) start).simulator.evaluateGrants grant.event
          grant.occurrence trading)

/-- In a run that begins without orders every grant comes about in this way. -/
theorem Tracks.grantedIn (h : Tracks model pricePolicy start) (hnone : start.simulator.orders = [])
    (hfresh : start.grants = []) {grant : Grant}
    (hgrant : grant ∈ (runSim hash calls start).grants) :
    ∃ origin, GrantedIn hash calls start grant origin := by
  rcases mem_grants_runSim hash hgrant with
    hold | ⟨earlier, event, occurrence, trading, after, rfl, hgranted⟩
  · rw [hfresh] at hold
    cases hold
  have hpasses : List.Forall₂ ((runSim hash earlier start).simulator.Passes event occurrence)
      (runSim hash earlier start).simulator.orders
        ((runSim hash earlier start).simulator.matchResult event occurrence) :=
    passResult_passes (offers_available _ event)
  obtain ⟨horder, rfl, rfl, -⟩ := grant_of_passes hpasses (mem_evaluateGrants hgranted ▸ hgranted)
  rcases h.exists_submission hash earlier horder with
    ⟨own, hown, -⟩ |
      ⟨before, strategyId, origin, entryTrading, outputSequence, middle, rfl, haccepts⟩
  · rw [hnone] at hown
    cases hown
  exact ⟨origin, .of before strategyId entryTrading outputSequence middle trading after
    (by simp) haccepts hgranted⟩

/-- The order carries the ordinal of its origin, and may be filled from the origin's match time and
the latencies on. -/
theorem GrantedIn.origin {grant : Grant} {origin : EventOccurrence}
    (h : GrantedIn hash calls start grant origin) (hstart : Tracks model pricePolicy start) :
    grant.order.originOrdinal = origin.runEventOrdinal ∧ grant.order.eligibleMatchTime.key =
      origin.orderingKey.matchTime.key + 1000 *
        (model.marketDataLatencyMs.val + model.orderLatencyMs.val) := by
  obtain ⟨before, _, _, _, _, _, _, -, haccepted, -⟩ := h
  have htime := addLatency_ok haccepted.time
  rw [(hstart.afterAll before).rules.1] at htime
  exact ⟨haccepted.ordinal, htime⟩

end Grants

/-- Over every run of calls: an order's filled quantity is the sum of its fills, within its quantity
and equal to it exactly when the order is filled, and terminal orders stay as they are; every fill
comes from an event after the one the order was submitted at, not before the latencies have passed,
at the evidence price moved against the order and within its limit and the price policy; and
displayed quantity is shared out in acceptance order and never exceeded. -/
theorem simulator_run_invariants (hash : List UInt8 → Digest) (instruments : List InstrumentId)
    (quantityUnit : QuantityUnit)
    (model : FillModel) (pricePolicy : PricePolicy) (calls : List SimCall) :
    let start : SimRun := ⟨newWithPricePolicy instruments quantityUnit model pricePolicy, []⟩
    let run := runSim hash calls start
    (run.simulator.fills = run.grants.map Grant.fill ∧
      ∀ grant ∈ run.grants, ∃ order ∈ run.simulator.orders,
        order.submitted = grant.order.submitted) ∧
    (∀ order ∈ run.simulator.orders,
      order.filled.val = grantedTo run.grants order.acceptanceSequence ∧
      order.filled.val ≤ order.intent.quantity.value.val ∧
      (order.status = .filled ↔ order.filled.val = order.intent.quantity.value.val) ∧
      ((∀ other ∈ run.simulator.orders, other.id = order.id →
        other.acceptanceSequence = order.acceptanceSequence) →
        order.filled.val = ((run.simulator.fills.filter fun fill => fill.orderId = order.id).map
          fun fill => fill.quantity.value.val).sum)) ∧
    (∀ more (index : ℕ) (order : SimOrder), run.simulator.orders[index]? = some order →
      order.status.isOpen = false →
      (runSim hash more run).simulator.orders[index]? = some order) ∧
    (∀ grant ∈ run.grants, ∃ origin, GrantedIn hash calls start grant origin ∧
      grant.fill.orderId = grant.order.id ∧
      grant.fill.trigger = .marketEvent grant.occurrence.runEventOrdinal ∧
      grant.fill.matchTime = grant.event.matchTime ∧ grant.fill.side = grant.order.intent.side ∧
      grant.order.originOrdinal = origin.runEventOrdinal ∧
      grant.order.originOrdinal < grant.occurrence.runEventOrdinal ∧
      grant.order.eligibleMatchTime ≤ grant.fill.matchTime ∧
      grant.order.eligibleMatchTime.key = origin.orderingKey.matchTime.key +
        1000 * (model.marketDataLatencyMs.val + model.orderLatencyMs.val) ∧
      origin.orderingKey.matchTime.key + 1000 *
        (model.marketDataLatencyMs.val + model.orderLatencyMs.val) ≤
        grant.fill.matchTime.key ∧
      grant.event.instrument = grant.order.intent.instrument ∧
      (∃ price displayed, evidence grant.event model.evidence grant.order.intent.side =
        some (price, displayed) ∧
        0 ≤ model.adversePriceDelta.atoms.val ∧
        grant.fill.price.value.atoms.val =
          price.value.atoms.val + model.adverseMove grant.order.intent.side) ∧
      limitTouched grant.order.intent grant.fill.price = true ∧
      pricePolicy.accepts grant.fill.price = true) ∧
    (∀ event occurrence trading,
      let granted := run.simulator.evaluateGrants event occurrence trading
      (runSim hash [.evaluate event occurrence trading] run).simulator.fills =
        run.simulator.fills ++ granted.map Grant.fill ∧
      granted.Pairwise (fun a b => a.order.acceptanceSequence < b.order.acceptanceSequence) ∧
      (model.quantity = .displayed →
        (∀ side, sideTotal granted side ≤ displayedTo model event side) ∧
        (∀ before grant after, granted = before ++ grant :: after →
          grant.value = min grant.order.remaining.val
          (displayedTo model event grant.order.intent.side -
            sideTotal before grant.order.intent.side))) ∧
      -- an open order that the same evidence could fill is filled completely before a later one
      -- gets anything
      (∀ grant ∈ granted, ∀ order ∈ run.simulator.orders,
        order.acceptanceSequence < grant.order.acceptanceSequence →
        order.intent.side = grant.order.intent.side →
        mayFill event occurrence order = true →
        order.intent.quantity.unit = grant.order.intent.quantity.unit →
        limitTouched order.intent grant.offer.1 = true →
        limitTouched order.intent grant.fill.price = true →
        ∃ own ∈ granted, own.order = order ∧ own.value = order.remaining.val)) := by
  intro start run
  have hstart := Tracks.initial instruments quantityUnit model pricePolicy
  have htracks : Tracks model pricePolicy run := hstart.afterAll calls
  refine ⟨⟨htracks.fills, fun grant hgrant => ?_⟩, fun order horder => ?_, fun more index order =>
    htracks.closed_run more, fun grant hgrant => ?_, fun event occurrence trading => ?_⟩
  · obtain ⟨-, hmem⟩ := htracks.granted grant hgrant
    exact List.mem_map.1 hmem
  · exact ⟨htracks.filled order horder, (htracks.sound order horder).within,
      (htracks.sound order horder).complete, htracks.filled_by_id horder⟩
  · obtain ⟨hjustified, -⟩ := htracks.granted grant hgrant
    obtain ⟨origin, hgranted⟩ := hstart.grantedIn rfl rfl hgrant
    obtain ⟨displayed, hevidence, -⟩ := hjustified.evidence
    obtain ⟨hdelta, haccepts, hprice⟩ := applySlippage_ok hjustified.slipped
    have hfill := hjustified.fill
    have hmatch : grant.fill.matchTime = grant.event.matchTime :=
      congrArg FillRecord.matchTime hfill
    obtain ⟨hordinal, htime⟩ := hgranted.origin hstart
    refine ⟨origin, hgranted, congrArg FillRecord.orderId hfill,
      congrArg FillRecord.trigger hfill, hmatch,
      congrArg FillRecord.side hfill, hordinal, hjustified.later,
      hmatch ▸ hjustified.eligible, htime, ?_,
      hjustified.instrument, ⟨_, displayed, hevidence, hdelta, hprice⟩,
      hjustified.touched, haccepts⟩
    rw [← htime, hmatch]
    exact hjustified.eligible
  · exact ⟨htracks.evaluate_fills event occurrence trading hash,
      htracks.grants_ordered event occurrence trading,
      fun hmodel => ⟨htracks.sideTotal_le_displayed event occurrence trading hmodel,
        fun _ _ _ hsplit => htracks.grant_takes_rest hmodel hsplit⟩,
      fun _ hgrant _ horder => htracks.earlier_filled hgrant horder⟩

end Osmium
