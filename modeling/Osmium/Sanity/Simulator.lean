import Osmium.Spec.Simulator

/-! What a pass over the orders grants. A pass gives each order in acceptance order what its
predecessors left of the evidence; the fills it records are exactly these grants, also when it fails
half way. -/

namespace Osmium
open Machine Bytes Result Stateful

/-- A fill with the order it was granted to, as the order was before it, and what was offered to the
order. -/
structure Grant where
  event : DomainEvent
  occurrence : EventOccurrence
  order : SimOrder
  offer : Price × Quantity
  fill : FillRecord

def Grant.value (self : Grant) : ℕ := self.fill.quantity.value.val

/-- The filled quantity is within the order, and reaches it exactly when the order is filled. -/
structure SimOrder.Sound (order : SimOrder) : Prop where
  within : order.filled.val ≤ order.intent.quantity.value.val
  complete : order.status = .filled ↔ order.filled.val = order.intent.quantity.value.val

def SimOrder.afterGrant (self : SimOrder) (quantity : Quantity) : SimOrder :=
  self.withFilled (Unsigned.wrap 64 (self.filled.val + quantity.value.val))

/-- The order as it was accepted. -/
def SimOrder.submitted (self : SimOrder) : SimOrder := { self with filled := 0, status := .pending }

theorem SimOrder.eq_of_submitted {a b : SimOrder} (h : a.submitted = b.submitted) :
    a.id = b.id ∧ a.intent = b.intent ∧ a.acceptanceSequence = b.acceptanceSequence := by
  unfold SimOrder.submitted at h
  injection h with hid hintent _ _ _ hsequence
  exact ⟨hid, hintent, hsequence⟩

section Orders
variable {order : SimOrder} {quantity : Quantity}

theorem SimOrder.val_remaining (h : order.filled.val ≤ order.intent.quantity.value.val) :
    order.remaining.val = order.intent.quantity.value.val - order.filled.val :=
  Unsigned.val_wrappingSub _ _ h

theorem SimOrder.Sound.filled_lt (h : order.Sound) (hopen : order.status.isOpen = true) :
    order.filled.val < order.intent.quantity.value.val := by
  refine lt_of_le_of_ne h.within fun heq => ?_
  rw [h.complete.2 heq] at hopen
  cases hopen

theorem SimOrder.sound_withFilled (order : SimOrder) {filled : U64}
    (h : filled.val ≤ order.intent.quantity.value.val) : (order.withFilled filled).Sound := by
  have hval : ({ order with filled := filled } : SimOrder).remaining.val =
      order.intent.quantity.value.val - filled.val :=
    SimOrder.val_remaining h
  have hstatus : (order.withFilled filled).status =
      if ({ order with filled := filled } : SimOrder).remaining.val = 0 then .filled else
        .partiallyFilled := rfl
  rw [hval] at hstatus
  refine ⟨h, ?_⟩
  change _ ↔ filled.val = order.intent.quantity.value.val
  rw [hstatus]
  split_ifs with hzero
  · exact ⟨fun _ => by omega, fun _ => rfl⟩
  · exact ⟨nofun, fun heq => absurd heq (by omega)⟩

theorem SimOrder.Sound.val_sum (h : order.Sound) (hle : quantity.value.val ≤ order.remaining.val) :
    order.filled.val + quantity.value.val ≤ order.intent.quantity.value.val := by
  rw [SimOrder.val_remaining h.within] at hle
  have hwithin := h.within
  omega

theorem SimOrder.Sound.val_afterGrant (h : order.Sound)
    (hle : quantity.value.val ≤ order.remaining.val) :
    (order.afterGrant quantity).filled.val = order.filled.val + quantity.value.val :=
  Nat.mod_eq_of_lt (lt_of_le_of_lt (h.val_sum hle) order.intent.quantity.value.lt)

theorem SimOrder.Sound.afterGrant (h : order.Sound)
    (hle : quantity.value.val ≤ order.remaining.val) :
    (order.afterGrant quantity).Sound := by
  refine SimOrder.sound_withFilled order ?_
  exact le_of_eq_of_le (h.val_afterGrant hle) (h.val_sum hle)

end Orders

/-- Everything that makes a grant a legal fill under a model and a price policy. -/
structure Grant.Justified (model : FillModel) (pricePolicy : PricePolicy)
    (grant : Grant) : Prop where
  isOpen : grant.order.status.isOpen = true
  later : grant.order.originOrdinal < grant.occurrence.runEventOrdinal
  eligible : grant.order.eligibleMatchTime ≤ grant.event.matchTime
  instrument : grant.event.instrument = grant.order.intent.instrument
  evidence : ∃ displayed : Quantity,
    evidence grant.event model.evidence grant.order.intent.side = some (grant.offer.1, displayed) ∧
    grant.offer.2.value ≤ displayed.value
  offerUnit : grant.offer.2.unit = grant.order.intent.quantity.unit
  offerTouched : limitTouched grant.order.intent grant.offer.1 = true
  slipped : applySlippage grant.offer.1 grant.order.intent.side model pricePolicy =
      .ok grant.fill.price
  touched : limitTouched grant.order.intent grant.fill.price = true
  fill : grant.fill = FillRecord.fromMarketEvent grant.order.id grant.occurrence.runEventOrdinal
      grant.event.matchTime
    grant.order.intent.side grant.fill.price grant.fill.quantity
  unit : grant.fill.quantity.unit = grant.order.intent.quantity.unit
  unlimited : model.quantity = .unlimited → grant.fill.quantity.value = grant.order.remaining
  displayed : model.quantity = .displayed →
      grant.fill.quantity.value = min grant.order.remaining grant.offer.2.value

theorem Grant.Justified.le_remaining {model : FillModel} {pricePolicy : PricePolicy} {grant : Grant}
    (h : grant.Justified model pricePolicy) : grant.value ≤ grant.order.remaining.val := by
  unfold Grant.value
  cases hmodel : model.quantity with
  | unlimited => rw [h.unlimited hmodel]
  | displayed =>
    rw [h.displayed hmodel]
    exact min_le_left grant.order.remaining grant.offer.2.value

theorem Grant.Justified.le_offer {model : FillModel} {pricePolicy : PricePolicy} {grant : Grant}
    (h : grant.Justified model pricePolicy) (hmodel : model.quantity = .displayed) :
    grant.value ≤ grant.offer.2.value.val := by
  unfold Grant.value
  rw [h.displayed hmodel]
  exact min_le_right grant.order.remaining grant.offer.2.value

/-- The slippage moves the price of a buy up and the price of a sell down. -/
def FillModel.adverseMove (self : FillModel) : OrderSide → ℤ
  | .buy => self.adversePriceDelta.atoms.val
  | .sell => -self.adversePriceDelta.atoms.val

theorem applySlippage_ok {price slipped : Price} {side : OrderSide} {model : FillModel}
    {pricePolicy : PricePolicy} (h : applySlippage price side model pricePolicy = .ok slipped) :
    0 ≤ model.adversePriceDelta.atoms.val ∧ pricePolicy.accepts slipped = true ∧
      slipped.value.atoms.val = price.value.atoms.val + model.adverseMove side := by
  simp only [applySlippage, bind_eq_ok, ensure_eq_ok, mapError_eq_ok, pure_eq_ok] at h
  obtain ⟨_, hdelta, decimal, hdecimal, _, haccepts, rfl⟩ := h
  refine ⟨hdelta, haccepts, ?_⟩
  cases side with
  | buy => exact (Decimal.checkedAdd_eq_ok _ _ _).1 hdecimal
  | sell => exact (Decimal.checkedSub_eq_ok _ _ _).1 hdecimal

namespace Simulator
variable {self : Simulator} {event : DomainEvent} {occurrence : EventOccurrence}

/-- What is left to a side is part of the evidence of the event. -/
def Offers (self : Simulator) (event : DomainEvent) (available : Available) : Prop :=
  ∀ side price (left : Quantity), available.side side = some (price, left) → ∃ displayed : Quantity,
    evidence event self.model.evidence side = some (price, displayed) ∧ left.value ≤ displayed.value

theorem offers_available (self : Simulator) (event : DomainEvent) :
    self.Offers event (self.available event) := by
  intro side price left h
  refine ⟨left, ?_, le_rfl⟩
  cases side with
  | buy => exact (Option.filter_eq_some_iff.1 h).1
  | sell => exact (Option.filter_eq_some_iff.1 h).1

theorem Available.side_setSide (available : Available) (side other : OrderSide)
    (left : Option (Price × Quantity)) :
    (available.setSide side left).side other = if other = side then left else
      available.side other := by
  cases side <;> cases other <;> rfl

/-- A fill leaves the other side alone, and its own side the difference when quantities are
displayed. -/
theorem side_afterFill {available : Available} {side : OrderSide} {offer : Price × Quantity}
    {quantity : Quantity} (hside : available.side side = some offer) (other : OrderSide) :
    (self.afterFill available side quantity).side other = if other = side ∧
    self.model.quantity = .displayed then
      (Quantity.new (Unsigned.wrap 64 (offer.2.value.val - quantity.value.val))
        offer.2.unit).toOption.map
        fun left => (offer.1, left)
    else available.side other := by
  unfold afterFill
  cases self.model.quantity with
  | unlimited => simp
  | displayed =>
    simp only [hside, Available.side_setSide, and_true]

theorem left_afterFill {offered quantity : Quantity} {price : Price} {rest : Price × Quantity}
    (h :
      (Quantity.new (Unsigned.wrap 64 (offered.value.val - quantity.value.val))
        offered.unit).toOption.map
      (fun left => (price, left)) = some rest) :
    rest.1 = price ∧ rest.2.value.val = offered.value.val - quantity.value.val ∧
    rest.2.unit = offered.unit := by
  obtain ⟨left, hleft, rfl⟩ := Option.map_eq_some_iff.1 h
  have hnew : Quantity.new (Unsigned.wrap 64 (offered.value.val - quantity.value.val))
      offered.unit = .ok left := by
    cases hq :
      Quantity.new (Unsigned.wrap 64 (offered.value.val - quantity.value.val)) offered.unit with
    | error e => rw [hq] at hleft; cases hleft
    | ok q => rw [hq] at hleft; exact congrArg _ (Option.some.inj hleft)
  obtain ⟨hvalue, hunit⟩ := (Quantity.new_eq_ok _ _ _).1 hnew
  refine ⟨rfl, ?_, hunit.symm⟩
  rw [← hvalue]
  exact Nat.mod_eq_of_lt (lt_of_le_of_lt (Nat.sub_le _ _) offered.value.lt)

theorem Offers.afterFill {available : Available} (h : self.Offers event available)
    {side : OrderSide} {price : Price}
    {offered : Quantity} (hside : available.side side = some (price, offered))
    (quantity : Quantity) :
    self.Offers event (self.afterFill available side quantity) := by
  intro other price' left hleft
  rw [side_afterFill hside] at hleft
  split_ifs at hleft with hsame
  · obtain ⟨rfl, -⟩ := hsame
    obtain ⟨hprice, hvalue, -⟩ := left_afterFill hleft
    obtain ⟨displayed, hdisplayed, hle⟩ := h other price offered hside
    simp only [] at hprice hvalue
    refine ⟨displayed, by rw [hprice]; exact hdisplayed, le_trans ?_ hle⟩
    rw [Unsigned.le_iff, hvalue]
    exact Nat.sub_le _ _
  · exact h other price' left hleft

/-- A grant is justified by the checks that lead to it. -/
theorem grant_ok {available : Available} (h : self.Offers event available) {order : SimOrder}
    {price : Price} {quantity : Quantity}
    (hgrant : self.grant event occurrence available order = .ok (some (price, quantity))) :
    ∃ offer, available.side order.intent.side = some offer ∧
    Grant.Justified self.model self.pricePolicy
      ⟨event, occurrence, order, offer,
        FillRecord.fromMarketEvent order.id occurrence.runEventOrdinal event.matchTime
        order.intent.side price quantity⟩ := by
  unfold grant at hgrant
  by_cases hmay : mayFill event occurrence order = false
  · rw [if_pos hmay] at hgrant
    cases hgrant
  rw [if_neg hmay] at hgrant
  simp only [mayFill, orderIsEligible, Bool.not_eq_false, Bool.and_eq_true, decide_eq_true_eq]
    at hmay
  obtain ⟨⟨hopen, hlater, heligible⟩, hinstrument⟩ := hmay
  cases hoffer : available.side order.intent.side with
  | none => simp [hoffer] at hgrant
  | some offer =>
    simp only [hoffer, grantOffer] at hgrant
    by_cases hfirst : offer.2.unit ≠ order.intent.quantity.unit ∨
      limitTouched order.intent offer.1 = false
    · rw [if_pos hfirst] at hgrant
      cases hgrant
    rw [if_neg hfirst] at hgrant
    simp only [ne_eq, not_or, not_not, Bool.not_eq_false] at hfirst
    obtain ⟨slipped, hslipped, hrest⟩ := (bind_eq_ok _ _ _).1 hgrant
    by_cases hsecond : limitTouched order.intent slipped = false ∨
      (self.fillValue order offer.2).val = 0
    · rw [if_pos hsecond] at hrest
      cases hrest
    rw [if_neg hsecond] at hrest
    simp only [not_or, Bool.not_eq_false] at hsecond
    obtain ⟨granted, hgranted, hpair⟩ := (bind_eq_ok _ _ _).1 hrest
    obtain ⟨rfl, rfl⟩ : slipped = price ∧ granted = quantity := by simpa using hpair
    obtain ⟨hvalue, hunit⟩ := (Quantity.new_eq_ok _ _ _).1 ((mapError_eq_ok _ _ _).1 hgranted)
    unfold fillValue at hvalue
    exact ⟨offer, rfl, {
      isOpen := hopen
      later := hlater
      eligible := heligible
      instrument := hinstrument
      evidence := h _ _ _ hoffer
      offerUnit := hfirst.1
      offerTouched := hfirst.2
      slipped := hslipped
      touched := hsecond.1
      fill := rfl
      unit := hunit.symm.trans hfirst.1
      unlimited := fun hmodel => by rw [hmodel] at hvalue; exact hvalue.symm
      displayed := fun hmodel => by rw [hmodel] at hvalue; exact hvalue.symm }⟩

section Pass

inductive Outcome
  | stopped (error : SimulationError)
  | passed
  | granted (grant : Grant)

/-- What one order gets out of a pass. -/
def outcome (self : Simulator) (event : DomainEvent) (occurrence : EventOccurrence)
    (available : Available) (order : SimOrder) : Outcome :=
  match self.grant event occurrence available order, available.side order.intent.side with
  | .error e, _ => .stopped e
  | .ok (some (price, quantity)), some offer => .granted ⟨event, occurrence, order, offer,
      FillRecord.fromMarketEvent order.id occurrence.runEventOrdinal event.matchTime
        order.intent.side price quantity⟩
  | .ok _, _ => .passed

/-- The orders after a pass, each with what it was granted. Where the pass stops, the orders left
stay as they are. -/
def passResult (self : Simulator) (event : DomainEvent) (occurrence : EventOccurrence) :
    List SimOrder → Available → List (SimOrder × Option Grant)
  | [], _ => []
  | order :: rest, available =>
    match self.outcome event occurrence available order with
    | .stopped _ => (order :: rest).map fun order => (order, none)
    | .passed => (order, none) :: self.passResult event occurrence rest available
    | .granted grant => (order.afterGrant grant.fill.quantity, some grant) ::
        self.passResult event occurrence rest
          (self.afterFill available order.intent.side grant.fill.quantity)

def passGrants (self : Simulator) (event : DomainEvent) (occurrence : EventOccurrence)
    (orders : List SimOrder) (available : Available) : List Grant :=
  (self.passResult event occurrence orders available).filterMap Prod.snd

theorem outcome_granted {available : Available} (h : self.Offers event available) {order : SimOrder}
    {grant : Grant} (hgrant : self.outcome event occurrence available order = .granted grant) :
    self.grant event occurrence available order =
      .ok (some (grant.fill.price, grant.fill.quantity)) ∧
      available.side order.intent.side = some grant.offer ∧ grant.order = order ∧
      grant.event = event ∧
      grant.occurrence = occurrence ∧ grant.Justified self.model self.pricePolicy := by
  unfold outcome at hgrant
  cases hgranted : self.grant event occurrence available order with
  | error e => simp [hgranted] at hgrant
  | ok pair =>
    cases pair with
    | none => simp [hgranted] at hgrant
    | some pair =>
      obtain ⟨price, quantity⟩ := pair
      obtain ⟨offer, hoffer, hjustified⟩ := grant_ok h hgranted
      simp only [hgranted, hoffer, Outcome.granted.injEq] at hgrant
      subst hgrant
      exact ⟨rfl, hoffer, rfl, rfl, rfl, hjustified⟩

theorem outcome_passed {available : Available} (h : self.Offers event available) {order : SimOrder}
    (hpassed : self.outcome event occurrence available order = .passed) :
    self.grant event occurrence available order = .ok none := by
  unfold outcome at hpassed
  cases hgranted : self.grant event occurrence available order with
  | error e => simp [hgranted] at hpassed
  | ok pair =>
    cases pair with
    | none => rfl
    | some pair =>
      obtain ⟨offer, hoffer, -⟩ := grant_ok h hgranted
      simp [hgranted, hoffer] at hpassed

theorem outcome_stopped {available : Available} {order : SimOrder} {e : SimulationError}
    (hstopped : self.outcome event occurrence available order = .stopped e) :
    self.grant event occurrence available order = .error e := by
  unfold outcome at hstopped
  cases hgranted : self.grant event occurrence available order with
  | error e' => simpa [hgranted] using hstopped
  | ok pair =>
    rw [hgranted] at hstopped
    cases pair <;> cases hside : available.side order.intent.side <;> simp [hside] at hstopped

theorem exists_fillFeedback {order : SimOrder} (h : order.Sound) (quantity : Quantity) :
    ∃ feedback, fillFeedback order quantity = .ok feedback := by
  unfold fillFeedback
  by_cases hstatus : order.status = .filled
  · exact ⟨_, if_pos hstatus⟩
  · have hne : ¬ order.filled.val = order.intent.quantity.value.val :=
      fun heq => hstatus (h.complete.2 heq)
    have hwithin := h.within
    have hpositive : order.remaining.val ≠ 0 := by
      rw [SimOrder.val_remaining hwithin]
      omega
    rw [if_neg hstatus, Quantity.new, dif_neg hpositive]
    exact ⟨_, rfl⟩

theorem passOrder_granted {pass : Pass} (h : self.Offers event pass.available) {order : SimOrder}
    (hsound : order.Sound)
    {grant : Grant} (hgrant : self.outcome event occurrence pass.available order = .granted grant) :
    ∃ feedback, self.passOrder event occurrence order pass = .ok () {
      orders := pass.orders ++ [order.afterGrant grant.fill.quantity]
      available := self.afterFill pass.available order.intent.side grant.fill.quantity
      fills := pass.fills ++ [grant.fill]
      feedback := pass.feedback ++ [feedback] } := by
  obtain ⟨hgranted, -, rfl, rfl, rfl, hjustified⟩ := outcome_granted h hgrant
  have hle := hjustified.le_remaining
  obtain ⟨filled, hfilled⟩ : ∃ filled,
      filled = Unsigned.wrap 64 (grant.order.filled.val + grant.fill.quantity.value.val) :=
    ⟨_, rfl⟩
  have hafter : grant.order.afterGrant grant.fill.quantity = grant.order.withFilled filled := by
    rw [SimOrder.afterGrant, hfilled]
  have hadd : grant.order.filled.checkedAdd grant.fill.quantity.value = some filled := by
    refine (Unsigned.checkedAdd_eq_some _ _ _).2 ?_
    rw [hfilled]
    exact hsound.val_afterGrant hle
  obtain ⟨feedback, hfeedback⟩ := exists_fillFeedback (hsound.afterGrant hle) grant.fill.quantity
  rw [hafter] at hfeedback ⊢
  have hfill := hjustified.fill
  generalize grant.fill.price = price at hgranted hfill
  generalize grant.fill.quantity = quantity at hgranted hfill hadd hfeedback ⊢
  rw [hfill]
  refine ⟨feedback, ?_⟩
  unfold passOrder
  rw [get_bind, lift_bind hgranted]
  simp only []
  rw [lift_bind (a := filled) (by rw [hadd]; rfl), bind_of_ok ((set_ok _ _ _ ()).2 rfl),
    lift_bind hfeedback]
  rfl

theorem passOrder_stopped {pass : Pass} {order : SimOrder} {e : SimulationError}
    (h : self.outcome event occurrence pass.available order = .stopped e) :
    self.passOrder event occurrence order pass = .error e pass := by
  unfold passOrder
  rw [get_bind, lift_bind_error (outcome_stopped h)]

theorem passOrder_passed {pass : Pass} (hoffers : self.Offers event pass.available)
    {order : SimOrder} (h : self.outcome event occurrence pass.available order = .passed) :
    self.passOrder event occurrence order pass =
      .ok () { pass with orders := pass.orders ++ [order] } := by
  unfold passOrder
  rw [get_bind, lift_bind (outcome_passed hoffers h)]
  rfl

/-- A pass records its grants and leaves the orders as it found or filled them, also where it stops.
-/
theorem each_passOrder (occurrence : EventOccurrence) (orders : List SimOrder)
    (hsound : ∀ order ∈ orders, order.Sound) (pass : Pass) (h : self.Offers event pass.available) :
    ∃ done, (stateAfter (each (self.passOrder event occurrence) orders pass)).orders =
      pass.orders ++ done ∧
      done ++ orders.drop done.length =
        (self.passResult event occurrence orders pass.available).map Prod.fst ∧
      (stateAfter (each (self.passOrder event occurrence) orders pass)).fills =
        pass.fills ++ (self.passGrants event occurrence orders pass.available).map Grant.fill ∧
      ∀ final, each (self.passOrder event occurrence) orders pass = .ok () final →
      done.length = orders.length := by
  induction orders generalizing pass with
  | nil => exact ⟨[], by simp [each, passResult, passGrants, stateAfter, pure, EStateM.pure]⟩
  | cons order rest ih =>
    have hrest := fun other hother => hsound other (List.mem_cons_of_mem order hother)
    unfold passGrants at ih ⊢
    rw [passResult, each]
    cases houtcome : self.outcome event occurrence pass.available order with
    | stopped e =>
      have hnone : ((order :: rest).map fun order => (order, (none : Option Grant))).filterMap
          Prod.snd = [] := by
        rw [List.filterMap_map]
        exact List.filterMap_eq_nil_iff.2 fun _ _ => rfl
      rw [bind_of_error (passOrder_stopped houtcome)]
      exact ⟨[], by simp only [hnone]; simp [stateAfter, Function.comp_def]⟩
    | passed =>
      rw [bind_of_ok (passOrder_passed h houtcome)]
      obtain ⟨done, horders, hresult, hfills, hlength⟩ :=
        ih hrest { pass with orders := pass.orders ++ [order] } h
      refine ⟨order :: done, ?_, ?_, hfills, fun final hfinal => ?_⟩
      · rw [horders, List.append_assoc]
        rfl
      · rw [List.map_cons, ← hresult]
        rfl
      · rw [List.length_cons, List.length_cons, hlength final hfinal]
    | granted grant =>
      obtain ⟨feedback, hstep⟩ := passOrder_granted h (hsound order List.mem_cons_self) houtcome
      obtain ⟨-, hoffer, -, -, -, -⟩ := outcome_granted h houtcome
      rw [bind_of_ok hstep]
      obtain ⟨done, horders, hresult, hfills, hlength⟩ :=
        ih hrest ⟨pass.orders ++ [order.afterGrant grant.fill.quantity],
        self.afterFill pass.available order.intent.side grant.fill.quantity,
        pass.fills ++ [grant.fill],
        pass.feedback ++ [feedback]⟩ (h.afterFill hoffer grant.fill.quantity)
      refine ⟨order.afterGrant grant.fill.quantity :: done, ?_, ?_, ?_, fun final hfinal => ?_⟩
      · rw [horders, List.append_assoc]
        rfl
      · rw [List.map_cons, ← hresult]
        rfl
      · rw [hfills, List.append_assoc]
        rfl
      · rw [List.length_cons, List.length_cons, hlength final hfinal]

/-- Orders in acceptance order are not moved by the sort. -/
theorem insertionSort_orders
    (h : self.orders.Pairwise fun a b => a.acceptanceSequence < b.acceptanceSequence) :
    self.orders.insertionSort acceptedBefore = self.orders :=
  (h.imp fun hlt => .inl hlt).insertionSort_eq

/-- The grants of a whole evaluation of matching. -/
def matchResult (self : Simulator) (event : DomainEvent) (occurrence : EventOccurrence) :
    List (SimOrder × Option Grant) :=
  self.passResult event occurrence self.orders (self.available event)

def matchGrants (self : Simulator) (event : DomainEvent) (occurrence : EventOccurrence) :
    List Grant :=
  self.passGrants event occurrence self.orders (self.available event)

theorem stateAfter_matchOrders
    (hsorted : self.orders.Pairwise fun a b => a.acceptanceSequence < b.acceptanceSequence)
    (hsound : ∀ order ∈ self.orders, order.Sound) :
    stateAfter (matchOrders event occurrence self) = { self with
      orders := (self.matchResult event occurrence).map Prod.fst
      fills := self.fills ++ (self.matchGrants event occurrence).map Grant.fill } := by
  unfold matchOrders
  rw [get_bind, insertionSort_orders hsorted]
  obtain ⟨done, horders, hresult, hfills, hlength⟩ := each_passOrder occurrence self.orders hsound
    ⟨[], self.available event, self.fills, []⟩ (self.offers_available event)
  cases hpass : each (self.passOrder event occurrence) self.orders
    ⟨[], self.available event, self.fills, []⟩ with
  | ok u final =>
    rw [hpass] at horders hfills
    simp only [stateAfter, List.nil_append] at horders hfills
    rw [hlength final hpass, List.drop_length, List.append_nil] at hresult
    simp only [matchResult, matchGrants, ← hresult, ← horders, ← hfills]
    rfl
  | error e final =>
    rw [hpass] at horders hfills
    simp only [stateAfter, List.nil_append] at horders hfills
    simp only [matchResult, matchGrants, ← hresult, ← horders, ← hfills]
    rfl

end Pass

section Result
variable {available : Available} {orders : List SimOrder}

/-- One order of a pass: left alone, or filled by a justified grant. -/
def Passes (self : Simulator) (event : DomainEvent) (occurrence : EventOccurrence)
    (order : SimOrder) (entry : SimOrder × Option Grant) : Prop :=
  entry = (order, none) ∨ ∃ grant :
  Grant, entry = (order.afterGrant grant.fill.quantity, some grant) ∧
    grant.order = order ∧ grant.event = event ∧ grant.occurrence = occurrence ∧
    grant.Justified self.model self.pricePolicy

theorem passResult_passes (h : self.Offers event available) :
    List.Forall₂ (self.Passes event occurrence) orders
      (self.passResult event occurrence orders available) := by
  induction orders generalizing available with
  | nil => exact .nil
  | cons order rest ih =>
    rw [passResult]
    cases houtcome : self.outcome event occurrence available order with
    | stopped e => exact List.forall₂_map_right_iff.2 (List.forall₂_same.2 fun other _ => .inl rfl)
    | passed => exact .cons (.inl rfl) (ih h)
    | granted grant =>
      obtain ⟨-, hoffer, horder, hevent, hoccurrence, hjustified⟩ := outcome_granted h houtcome
      exact .cons (.inr ⟨grant, rfl, horder, hevent, hoccurrence, hjustified⟩)
        (ih (h.afterFill hoffer grant.fill.quantity))

theorem grant_of_passes {result : List (SimOrder × Option Grant)}
    (h : List.Forall₂ (self.Passes event occurrence) orders result) {grant : Grant}
    (hgrant : grant ∈ result.filterMap Prod.snd) : grant.order ∈ orders ∧ grant.event = event ∧
      grant.occurrence = occurrence ∧ grant.Justified self.model self.pricePolicy := by
  induction h with
  | nil => cases hgrant
  | cons hpass _ ih =>
    rcases hpass with rfl | ⟨own, rfl, horder, hfacts⟩
    · obtain ⟨hmem, hfacts⟩ := ih hgrant
      exact ⟨List.mem_cons_of_mem _ hmem, hfacts⟩
    · rcases List.mem_cons.1 hgrant with rfl | hgrant
      · exact ⟨List.mem_cons.2 (.inl horder), hfacts⟩
      · obtain ⟨hmem, hfacts⟩ := ih hgrant
        exact ⟨List.mem_cons_of_mem _ hmem, hfacts⟩

/-- Grants are made in the order of the pass. -/
theorem sublist_of_passes {result : List (SimOrder × Option Grant)}
    (h : List.Forall₂ (self.Passes event occurrence) orders result) :
    ((result.filterMap Prod.snd).map Grant.order).Sublist orders := by
  induction h with
  | nil => exact .slnil
  | cons hpass _ ih =>
    rcases hpass with rfl | ⟨own, rfl, rfl, -⟩
    · exact ih.cons _
    · exact ih.cons_cons _

/-- The sum of what was granted to the order with an acceptance sequence. -/
def grantedTo (grants : List Grant) (sequence : U64) : ℕ :=
  ((grants.filter fun grant => grant.order.acceptanceSequence = sequence).map Grant.value).sum

theorem grantedTo_append (grants more : List Grant) (sequence : U64) :
    grantedTo (grants ++ more) sequence = grantedTo grants sequence + grantedTo more sequence := by
  simp [grantedTo]

theorem grantedTo_cons (grant : Grant) (grants : List Grant) (sequence : U64) :
    grantedTo (grant :: grants) sequence =
      (if grant.order.acceptanceSequence = sequence then grant.value else 0) +
        grantedTo grants sequence := by
  unfold grantedTo
  rw [List.filter_cons]
  split_ifs with h <;> simp_all

theorem grantedTo_eq_zero {grants : List Grant} {sequence : U64}
    (h : ∀ grant ∈ grants, grant.order.acceptanceSequence ≠ sequence) :
    grantedTo grants sequence = 0 := by
  unfold grantedTo
  rw [List.filter_eq_nil_iff.2 fun grant hgrant => by simpa using h grant hgrant]
  rfl

/-- After a pass every order has exactly its grant more. -/
theorem filled_of_passes {result : List (SimOrder × Option Grant)}
    (h : List.Forall₂ (self.Passes event occurrence) orders result)
    (hsorted : orders.Pairwise fun a b => a.acceptanceSequence < b.acceptanceSequence)
    (hsound : ∀ order ∈ orders, order.Sound) : ∀ entry ∈ result, ∃ order ∈ orders,
      entry.1.submitted = order.submitted ∧ entry.1.Sound ∧
      entry.1.filled.val = order.filled.val +
        grantedTo (result.filterMap Prod.snd) order.acceptanceSequence := by
  induction h with
  | nil => simp
  | @cons order entry rest results hpass hrest ih =>
    obtain ⟨hlt, hsorted⟩ := List.pairwise_cons.1 hsorted
    have ih := ih hsorted fun other hother => hsound other (List.mem_cons_of_mem _ hother)
    have hsound := hsound order List.mem_cons_self
    have hothers : grantedTo (results.filterMap Prod.snd) order.acceptanceSequence = 0 :=
      grantedTo_eq_zero fun grant hgrant => (hlt grant.order (grant_of_passes hrest hgrant).1).ne'
    rcases hpass with rfl | ⟨own, rfl, rfl, -, -, hjustified⟩
    · intro entry hentry
      rcases List.mem_cons.1 hentry with rfl | hentry
      · refine ⟨order, List.mem_cons_self, rfl, hsound, ?_⟩
        rw [show ((order, (none : Option Grant)) :: results).filterMap Prod.snd =
          results.filterMap Prod.snd from rfl, hothers]
        rfl
      · obtain ⟨other, hother, hfacts⟩ := ih entry hentry
        exact ⟨other, List.mem_cons_of_mem _ hother, hfacts⟩
    · have hle := hjustified.le_remaining
      intro entry hentry
      rw [show ((own.order.afterGrant own.fill.quantity, some own) :: results).filterMap Prod.snd =
        own :: results.filterMap Prod.snd from rfl]
      rcases List.mem_cons.1 hentry with rfl | hentry
      · refine ⟨own.order, List.mem_cons_self, rfl, hsound.afterGrant hle, ?_⟩
        rw [hsound.val_afterGrant hle, grantedTo_cons, if_pos rfl, hothers]
        rfl
      · obtain ⟨other, hother, hsubmitted, hafter, hfilled⟩ := ih entry hentry
        refine ⟨other, List.mem_cons_of_mem _ hother, hsubmitted, hafter, ?_⟩
        rw [hfilled, grantedTo_cons, if_neg (hlt other hother).ne, Nat.zero_add]

/-- A pass changes only how much of the orders is filled. -/
theorem submitted_of_passes {result : List (SimOrder × Option Grant)}
    (h : List.Forall₂ (self.Passes event occurrence) orders result) :
    (result.map Prod.fst).map SimOrder.submitted = orders.map SimOrder.submitted := by
  induction h with
  | nil => rfl
  | @cons order entry rest results hpass _ ih =>
    rw [List.map_cons, List.map_cons, List.map_cons, ih]
    rcases hpass with rfl | ⟨own, rfl, -⟩
    · rfl
    · rfl

/-- A pass leaves orders that are not open as they are. -/
theorem passes_closed {result : List (SimOrder × Option Grant)}
    (h : List.Forall₂ (self.Passes event occurrence) orders result) {index : ℕ} {order : SimOrder}
    (horder : orders[index]? = some order) (hclosed : order.status.isOpen = false) :
    (result.map Prod.fst)[index]? = some order := by
  induction h generalizing index with
  | nil => cases horder
  | cons hpass _ ih =>
    cases index with
    | zero =>
      obtain rfl := Option.some.inj horder
      rcases hpass with rfl | ⟨own, rfl, rfl, -, -, hjustified⟩
      · rfl
      · rw [hjustified.isOpen] at hclosed
        cases hclosed
    | succ index => exact ih horder

end Result

section Budget
variable {available : Available} {orders : List SimOrder}

/-- The quantity still offered to a side. -/
def Available.offered (available : Available) (side : OrderSide) : ℕ :=
  match available.side side with
  | none => 0
  | some offer => offer.2.value.val

def sideTotal (grants : List Grant) (side : OrderSide) : ℕ :=
  ((grants.filter fun grant => grant.order.intent.side = side).map Grant.value).sum

theorem sideTotal_cons (grant : Grant) (grants : List Grant) (side : OrderSide) :
    sideTotal (grant :: grants) side =
      (if grant.order.intent.side = side then grant.value else 0) + sideTotal grants side := by
  unfold sideTotal
  rw [List.filter_cons]
  split_ifs with h <;> simp_all

theorem offered_afterFill (hmodel : self.model.quantity = .displayed) {side : OrderSide}
    {offer : Price × Quantity}
    {quantity : Quantity} (hoffer : available.side side = some offer) (other : OrderSide) :
    (self.afterFill available side quantity).offered other =
      available.offered other - if side = other then quantity.value.val else 0 := by
  unfold Available.offered
  rw [side_afterFill hoffer]
  by_cases hsame : side = other
  · subst hsame
    rw [if_pos ⟨rfl, hmodel⟩, if_pos rfl, hoffer]
    cases hleft :
      (Quantity.new (Unsigned.wrap 64 (offer.2.value.val - quantity.value.val))
        offer.2.unit).toOption.map
        fun left => (offer.1, left) with
    | none =>
      simp only []
      rw [Option.map_eq_none_iff] at hleft
      by_contra hne
      have hpositive : (Unsigned.wrap 64 (offer.2.value.val - quantity.value.val)).val ≠ 0 := by
        rw [Unsigned.val_wrap (lt_of_le_of_lt (Nat.sub_le _ _) offer.2.value.lt)]
        exact fun hzero => hne hzero.symm
      rw [Quantity.new, dif_neg hpositive] at hleft
      cases hleft
    | some left => exact (left_afterFill hleft).2.1
  · rw [if_neg fun h => hsame h.1.symm, if_neg hsame, Nat.sub_zero]

theorem passGrants_cons_of_granted {order : SimOrder} {grant : Grant}
    (h : self.outcome event occurrence available order = .granted grant) :
    self.passGrants event occurrence (order :: orders) available = grant ::
      self.passGrants event occurrence orders
        (self.afterFill available order.intent.side grant.fill.quantity) := by
  rw [passGrants, passResult, h]
  rfl

theorem passGrants_cons_of_passed {order : SimOrder}
    (h : self.outcome event occurrence available order = .passed) :
    self.passGrants event occurrence (order :: orders) available =
      self.passGrants event occurrence orders available := by
  rw [passGrants, passResult, h]
  rfl

theorem passGrants_cons_of_stopped {order : SimOrder} {e : SimulationError}
    (h : self.outcome event occurrence available order = .stopped e) :
    self.passGrants event occurrence (order :: orders) available = [] := by
  rw [passGrants, passResult, h]
  simp only [List.filterMap_map]
  exact List.filterMap_eq_nil_iff.2 fun _ _ => rfl

/-- Under displayed quantities every grant is offered exactly what the grants before it left of its
side. -/
theorem offer_of_passGrants (hmodel : self.model.quantity = .displayed)
    (h : self.Offers event available) {before after : List Grant} {grant : Grant}
    (hgrants : self.passGrants event occurrence orders available = before ++ grant :: after) :
    sideTotal before grant.order.intent.side + grant.offer.2.value.val =
      available.offered grant.order.intent.side := by
  induction orders generalizing available before with
  | nil => cases before <;> cases hgrants
  | cons order rest ih =>
    cases houtcome : self.outcome event occurrence available order with
    | stopped e =>
      rw [passGrants_cons_of_stopped houtcome] at hgrants
      cases before <;> cases hgrants
    | passed =>
      rw [passGrants_cons_of_passed houtcome] at hgrants
      exact ih h hgrants
    | granted own =>
      obtain ⟨-, hoffer, rfl, -, -, hjustified⟩ := outcome_granted h houtcome
      rw [passGrants_cons_of_granted houtcome] at hgrants
      have hfirst : available.offered own.order.intent.side = own.offer.2.value.val := by
        rw [Available.offered, hoffer]
      cases before with
      | nil =>
        obtain rfl : own = grant := (List.cons.inj hgrants).1
        rw [hfirst]
        exact Nat.zero_add _
      | cons first before =>
        obtain rfl : own = first := (List.cons.inj hgrants).1
        have hrest := ih (h.afterFill hoffer own.fill.quantity) (List.cons.inj hgrants).2
        rw [offered_afterFill hmodel hoffer] at hrest
        have hle := hjustified.le_offer hmodel
        rw [sideTotal_cons]
        unfold Grant.value at hle ⊢
        split_ifs at hrest ⊢ with hside
        · rw [← hside] at hrest ⊢
          omega
        · omega

/-- The grants of a side never exceed what was offered to it. -/
theorem sideTotal_le_offered (hmodel : self.model.quantity = .displayed)
    (h : self.Offers event available) (side : OrderSide) :
    sideTotal (self.passGrants event occurrence orders available) side ≤
      available.offered side := by
  induction orders generalizing available with
  | nil => exact Nat.zero_le _
  | cons order rest ih =>
    cases houtcome : self.outcome event occurrence available order with
    | stopped e =>
      rw [passGrants_cons_of_stopped houtcome]
      exact Nat.zero_le _
    | passed =>
      rw [passGrants_cons_of_passed houtcome]
      exact ih h
    | granted own =>
      obtain ⟨-, hoffer, rfl, -, -, hjustified⟩ := outcome_granted h houtcome
      rw [passGrants_cons_of_granted houtcome, sideTotal_cons]
      have hrest := ih (h.afterFill hoffer own.fill.quantity)
      rw [offered_afterFill hmodel hoffer] at hrest
      have hle := hjustified.le_offer hmodel
      unfold Grant.value at hle ⊢
      split_ifs at hrest ⊢ with hside
      · have hfirst : available.offered side = own.offer.2.value.val := by
          rw [← hside, Available.offered, hoffer]
        omega
      · omega

/-- All grants of a side are at the price and in the unit offered to it. -/
theorem offer_eq_of_mem (h : self.Offers event available) {grant : Grant}
    (hgrant : grant ∈ self.passGrants event occurrence orders available) : ∃ offer,
      available.side grant.order.intent.side = some offer ∧ grant.offer.1 = offer.1 ∧
      grant.offer.2.unit = offer.2.unit := by
  induction orders generalizing available with
  | nil => cases hgrant
  | cons order rest ih =>
    cases houtcome : self.outcome event occurrence available order with
    | stopped e =>
      rw [passGrants_cons_of_stopped houtcome] at hgrant
      cases hgrant
    | passed =>
      rw [passGrants_cons_of_passed houtcome] at hgrant
      exact ih h hgrant
    | granted own =>
      obtain ⟨-, hoffer, rfl, -⟩ := outcome_granted h houtcome
      rw [passGrants_cons_of_granted houtcome] at hgrant
      rcases List.mem_cons.1 hgrant with rfl | hgrant
      · exact ⟨grant.offer, hoffer, rfl, rfl⟩
      · obtain ⟨offer, hside, hprice, hunit⟩ := ih (h.afterFill hoffer own.fill.quantity) hgrant
        rw [side_afterFill hoffer] at hside
        split_ifs at hside with hsame
        · obtain ⟨hprice', -, hunit'⟩ := left_afterFill hside
          exact ⟨own.offer, by rw [hsame.1, hoffer], hprice.trans hprice', hunit.trans hunit'⟩
        · exact ⟨offer, hside, hprice, hunit⟩

/-- An order that could be filled at the same evidence is filled completely before a later one gets
anything. -/
theorem filled_before (h : self.Offers event available) {earlier : List SimOrder} {order : SimOrder}
    {rest : List SimOrder} (hsorted : (earlier ++ order :: rest).Pairwise fun a b =>
      a.acceptanceSequence < b.acceptanceSequence)
    (hsound : order.Sound) {grant : Grant}
    (hgrant : grant ∈ self.passGrants event occurrence (earlier ++ order :: rest) available)
    (hlater : grant.order ∈ rest) (hside : order.intent.side = grant.order.intent.side)
    (hmay : mayFill event occurrence order = true)
    (hunit : grant.offer.2.unit = order.intent.quantity.unit)
    (htouched : limitTouched order.intent grant.offer.1 = true)
    (hslipped : limitTouched order.intent grant.fill.price = true) :
    ∃ own ∈ self.passGrants event occurrence (earlier ++ order :: rest) available,
      own.order = order ∧ own.value = order.remaining.val := by
  induction earlier generalizing available with
  | nil =>
    rw [List.nil_append] at hgrant ⊢
    obtain ⟨-, -, -, hjustified⟩ := grant_of_passes (passResult_passes h) hgrant
    obtain ⟨offer, hoffer, hprice, hofferUnit⟩ := offer_eq_of_mem h hgrant
    rw [← hside] at hoffer
    have hremaining : order.remaining.val ≠ 0 := by
      have hopen : order.status.isOpen = true := by
        simp only [mayFill, Bool.and_eq_true] at hmay
        exact hmay.1.1
      rw [SimOrder.val_remaining hsound.within]
      have hlt := hsound.filled_lt hopen
      omega
    -- the offer, the touched limit and the slipped price are those of the later grant
    have hvalue : (self.fillValue order offer.2).val ≠ 0 := by
      unfold fillValue
      cases self.model.quantity with
      | unlimited => exact hremaining
      | displayed =>
        rcases min_choice order.remaining offer.2.value with hmin | hmin
        · simp only [hmin]
          exact hremaining
        · simp only [hmin]
          exact offer.2.pos.ne'
    have hgranted : self.grant event occurrence available order =
        .ok
          (some (grant.fill.price,
            ⟨self.fillValue order offer.2, offer.2.unit, Nat.pos_of_ne_zero hvalue⟩)) := by
      have hslip := hjustified.slipped
      rw [← hside, hprice] at hslip
      rw [hprice] at htouched
      unfold Simulator.grant
      rw [if_neg (by simp [hmay]), hoffer]
      simp only [grantOffer]
      rw [if_neg (by simp [htouched, ← hofferUnit, hunit]), hslip]
      simp only [bind, Except.bind]
      rw [if_neg (by simp [hslipped, hvalue]), Quantity.new, dif_neg hvalue]
      rfl
    have houtcome : self.outcome event occurrence available order =
        .granted ⟨event, occurrence, order, offer,
        FillRecord.fromMarketEvent order.id occurrence.runEventOrdinal event.matchTime
          order.intent.side grant.fill.price
          ⟨self.fillValue order offer.2, offer.2.unit, Nat.pos_of_ne_zero hvalue⟩⟩ := by
      unfold outcome
      rw [hgranted, hoffer]
    rw [passGrants_cons_of_granted houtcome] at hgrant ⊢
    refine ⟨_, List.mem_cons_self, rfl, ?_⟩
    change (self.fillValue order offer.2).val = order.remaining.val
    rcases List.mem_cons.1 hgrant with hsame | hgrant
    · have hlt := (List.pairwise_cons.1 hsorted).1 _ hlater
      rw [hsame] at hlt
      exact absurd hlt (lt_irrefl _)
    · -- something was left for the later order, so that this one took all it wanted
      obtain ⟨left, hleft, -⟩ := offer_eq_of_mem (h.afterFill hoffer _) hgrant
      rw [← hside, side_afterFill hoffer] at hleft
      cases hmodel : self.model.quantity with
      | unlimited =>
        unfold fillValue
        rw [hmodel]
      | displayed =>
        have hmin : self.fillValue order offer.2 = min order.remaining offer.2.value := by
          unfold fillValue
          rw [hmodel]
        rw [if_pos ⟨rfl, hmodel⟩] at hleft
        obtain ⟨-, hdifference, -⟩ := left_afterFill hleft
        have hpos := left.2.pos
        rw [hdifference] at hpos
        change 0 < offer.2.value.val - (self.fillValue order offer.2).val at hpos
        rw [hmin] at hpos ⊢
        rcases min_choice order.remaining offer.2.value with hchoice | hchoice
        · rw [hchoice]
        · rw [hchoice] at hpos
          omega
  | cons first earlier ih =>
    rw [List.cons_append] at hgrant hsorted ⊢
    obtain ⟨hlt, hrest⟩ := List.pairwise_cons.1 hsorted
    cases houtcome : self.outcome event occurrence available first with
    | stopped e =>
      rw [passGrants_cons_of_stopped houtcome] at hgrant
      cases hgrant
    | passed =>
      rw [passGrants_cons_of_passed houtcome] at hgrant ⊢
      exact ih h hrest hgrant
    | granted own =>
      obtain ⟨-, hoffer, rfl, -⟩ := outcome_granted h houtcome
      rw [passGrants_cons_of_granted houtcome] at hgrant ⊢
      rcases List.mem_cons.1 hgrant with rfl | hgrant
      · refine absurd (hlt grant.order ?_) (lt_irrefl _)
        exact List.mem_append_right _ (List.mem_cons_of_mem _ hlater)
      · obtain ⟨other, hother, hfacts⟩ := ih (h.afterFill hoffer own.fill.quantity) hrest hgrant
        exact ⟨other, List.mem_cons_of_mem _ hother, hfacts⟩

end Budget

end Simulator

end Osmium
