import Osmium.Sanity.SimulatorCalls

/-! An evaluation beside what its event would give to each order alone. The evidence keeps its price
and unit while it is used up, so that orders before an order decide only how much of it is left. -/

namespace Osmium
open Machine Result Stateful

namespace Simulator
variable {self : Simulator} {event : DomainEvent} {occurrence : EventOccurrence}
  {available : Available}
  {order : SimOrder} {orders : List SimOrder}

/-- What an order would be granted if it had the evidence of the event to itself. -/
def alone (self : Simulator) (event : DomainEvent) (occurrence : EventOccurrence)
    (order : SimOrder) :
    Except SimulationError (Option (Price × Quantity)) :=
  self.grant event occurrence (self.available event) order

/-- The event alone would fill the order. -/
def wants (self : Simulator) (event : DomainEvent) (occurrence : EventOccurrence)
    (order : SimOrder) : Bool :=
  match self.alone event occurrence order with
  | .ok (some _) => true
  | _ => false

/-- The event alone would fail on the order. -/
def Fails (self : Simulator) (event : DomainEvent) (occurrence : EventOccurrence)
    (order : SimOrder) : Prop :=
  ∃ e, self.alone event occurrence order = .error e

/-- What the orders of a side that the event alone would fill still ask for. -/
def wanted (self : Simulator) (event : DomainEvent) (occurrence : EventOccurrence)
    (orders : List SimOrder) (side : OrderSide) : ℕ :=
  ((orders.filter fun order => order.intent.side = side ∧
    self.wants event occurrence order = true).map
    fun order => order.remaining.val).sum

theorem wanted_cons (order : SimOrder) (orders : List SimOrder) (side : OrderSide) :
    self.wanted event occurrence (order :: orders) side =
      (if order.intent.side = side ∧
        self.wants event occurrence order = true then order.remaining.val else 0) +
        self.wanted event occurrence orders side := by
  unfold wanted
  rw [List.filter_cons]
  simp only [decide_eq_true_eq]
  split_ifs with h
  · rw [List.map_cons, List.sum_cons]
  · rw [Nat.zero_add]

section Offer

/-- The price an order is filled at out of evidence at a price and in a unit, whatever is left of
it. -/
def fillPrice (self : Simulator) (order : SimOrder) (price : Price) (unit : QuantityUnit) :
    Except SimulationError (Option Price) :=
  if unit ≠ order.intent.quantity.unit ∨ limitTouched order.intent price = false then .ok none
  else do
    let slipped ← applySlippage price order.intent.side self.model self.pricePolicy
    if limitTouched order.intent slipped = false then return none else return some slipped

theorem fillValue_pos (self : Simulator) (hremaining : 0 < order.remaining.val)
    (offered : Quantity) :
    0 < (self.fillValue order offered).val := by
  unfold fillValue
  cases self.model.quantity with
  | unlimited => exact hremaining
  | displayed =>
    have hmin : (min order.remaining offered.value).val =
        min order.remaining.val offered.value.val :=
      Monotone.map_min fun a b hle => hle
    have hoffered := offered.pos
    simp only [hmin]
    omega

/-- What is left of the evidence decides the quantity of a grant and nothing else. -/
theorem grantOffer_eq (hremaining : 0 < order.remaining.val) (offer : Price × Quantity) :
    self.grantOffer order offer = (self.fillPrice order offer.1 offer.2.unit).map
      (Option.map fun slipped =>
      (slipped,
        ⟨self.fillValue order offer.2, offer.2.unit, self.fillValue_pos hremaining offer.2⟩)) := by
  have hvalue := self.fillValue_pos hremaining offer.2
  unfold grantOffer fillPrice
  split_ifs with hfirst
  · rfl
  · cases applySlippage offer.1 order.intent.side self.model self.pricePolicy with
    | error e => rfl
    | ok slipped =>
      simp only [bind, Except.bind]
      by_cases htouched : limitTouched order.intent slipped = false
      · rw [if_pos (.inl htouched), if_pos htouched]
        rfl
      · rw [if_neg (not_or.2 ⟨htouched, hvalue.ne'⟩), if_neg htouched, Quantity.new,
          dif_neg hvalue.ne']
        rfl

theorem SimOrder.Sound.remaining_pos (h : order.Sound)
    (hmay : mayFill event occurrence order = true) :
    0 < order.remaining.val := by
  simp only [mayFill, Bool.and_eq_true] at hmay
  have hlt := h.filled_lt hmay.1.1
  rw [SimOrder.val_remaining h.within]
  omega

/-- What is left to a side is the evidence of the event at its price and in its unit. -/
def Leaves (self : Simulator) (event : DomainEvent) (available : Available) : Prop :=
  ∀ side left, available.side side = some left →
    ∃ offer, (self.available event).side side = some offer ∧ left.1 = offer.1 ∧
    left.2.unit = offer.2.unit

theorem leaves_available (self : Simulator) (event : DomainEvent) :
    self.Leaves event (self.available event) :=
  fun _ left h => ⟨left, h, rfl, rfl⟩

theorem Leaves.afterFill (h : self.Leaves event available) {side : OrderSide}
    {offer : Price × Quantity} (hside : available.side side = some offer) (quantity : Quantity) :
    self.Leaves event (self.afterFill available side quantity) := by
  intro other left hleft
  rw [side_afterFill hside] at hleft
  split_ifs at hleft with hsame
  · obtain ⟨rfl, -⟩ := hsame
    obtain ⟨hprice, -, hunit⟩ := left_afterFill hleft
    obtain ⟨first, hfirst, hfirstPrice, hfirstUnit⟩ := h other offer hside
    exact ⟨first, hfirst, hprice.trans hfirstPrice, hunit.trans hfirstUnit⟩
  · exact h other left hleft

/-- Everything an order can meet in a pass: its side is used up, or it is answered as it would be
alone. -/
theorem outcome_cases (occurrence : EventOccurrence) (hsound : order.Sound)
    (hleaves : self.Leaves event available) :
    (available.side order.intent.side = none ∧
      self.outcome event occurrence available order = .passed) ∨
    ∃ left, available.side order.intent.side = some left ∧
      ((∃ e, self.alone event occurrence order = .error e ∧
          self.outcome event occurrence available order = .stopped e) ∨
          (self.alone event occurrence order = .ok none ∧
            self.outcome event occurrence available order = .passed) ∨
          ∃ grant fill, self.alone event occurrence order = .ok (some fill) ∧
            self.outcome event occurrence available order = .granted grant ∧ grant.order = order ∧
            grant.value = (self.fillValue order left.2).val) := by
  unfold outcome alone grant
  by_cases hmay : mayFill event occurrence order = false
  · rw [if_pos hmay, if_pos hmay]
    cases hside : available.side order.intent.side with
    | none => exact .inl ⟨rfl, rfl⟩
    | some left => exact .inr ⟨left, rfl, .inr (.inl ⟨rfl, rfl⟩)⟩
  · rw [if_neg hmay, if_neg hmay]
    have hremaining := SimOrder.Sound.remaining_pos hsound (Bool.eq_true_of_not_eq_false hmay)
    cases hside : available.side order.intent.side with
    | none => exact .inl ⟨rfl, rfl⟩
    | some left =>
      obtain ⟨offer, hoffer, hprice, hunit⟩ := hleaves _ _ hside
      refine .inr ⟨left, rfl, ?_⟩
      simp only [hoffer, grantOffer_eq hremaining, hprice, hunit]
      cases self.fillPrice order offer.1 offer.2.unit with
      | error e => exact .inl ⟨e, rfl, rfl⟩
      | ok slipped =>
        cases slipped with
        | none => exact .inr (.inl ⟨rfl, rfl⟩)
        | some slipped => exact .inr (.inr ⟨_, _, rfl, rfl, rfl, rfl⟩)

end Offer

section Sides

/-- The slippage of a side is refused to all of its orders or to none. -/
theorem Fails.not_wants {other : SimOrder} (hsound : order.Sound)
    (h : self.Fails event occurrence order) (hside : other.intent.side = order.intent.side) :
    self.wants event occurrence other = false := by
  obtain ⟨e, he⟩ := h
  cases hother : self.alone event occurrence other with
  | error e => simp [wants, hother]
  | ok fill =>
    cases fill with
    | none => simp [wants, hother]
    | some fill =>
      obtain ⟨offer, hoffer, hjustified⟩ := grant_ok (self.offers_available event) hother
      have hslipped := hjustified.slipped
      rw [hside] at hoffer
      simp only [hside] at hslipped
      unfold alone grant at he
      by_cases hmay : mayFill event occurrence order = false
      · rw [if_pos hmay] at he
        cases he
      rw [if_neg hmay, hoffer] at he
      have hremaining := SimOrder.Sound.remaining_pos hsound (Bool.eq_true_of_not_eq_false hmay)
      simp only [grantOffer_eq hremaining, fillPrice, hslipped] at he
      split_ifs at he
      · cases he
      · simp only [bind, Except.bind] at he
        split_ifs at he <;> cases he

theorem wanted_eq_zero_of_fails {side : OrderSide} (hsound : order.Sound)
    (h : self.Fails event occurrence order)
    (hside : order.intent.side = side) : self.wanted event occurrence orders side = 0 := by
  unfold wanted
  rw [List.filter_eq_nil_iff.2 fun other _ => ?_]
  · rfl
  · rw [decide_eq_true_eq]
    rintro ⟨hother, hwants⟩
    rw [h.not_wants hsound (hother.trans hside.symm)] at hwants
    cases hwants

end Sides

section Pass

/-- A side is granted no more than its orders want. -/
theorem sideTotal_le_wanted (hsound : ∀ order ∈ orders, order.Sound)
    (hoffers : self.Offers event available)
    (hleaves : self.Leaves event available) (side : OrderSide) :
    sideTotal (self.passGrants event occurrence orders available) side ≤
      self.wanted event occurrence orders side := by
  induction orders generalizing available with
  | nil => exact Nat.zero_le _
  | cons order rest ih =>
    obtain ⟨hsound, hrest⟩ := List.forall_mem_cons.1 hsound
    rw [wanted_cons]
    have hpassed (h : self.outcome event occurrence available order = .passed) :
        sideTotal (self.passGrants event occurrence (order :: rest) available) side ≤
          self.wanted event occurrence rest side := by
      rw [passGrants_cons_of_passed h]
      exact ih hrest hoffers hleaves
    rcases outcome_cases occurrence hsound hleaves with
      ⟨-, houtcome⟩ | ⟨left, hleft, ⟨e, -, houtcome⟩ |
      ⟨-, houtcome⟩ | ⟨grant, fill, halone, houtcome, rfl, hvalue⟩⟩
    · have := hpassed houtcome
      omega
    · rw [passGrants_cons_of_stopped houtcome]
      exact Nat.zero_le _
    · have := hpassed houtcome
      omega
    · obtain ⟨-, -, -, -, -, hjustified⟩ := outcome_granted hoffers houtcome
      have hwants : self.wants event occurrence grant.order = true := by simp [wants, halone]
      have hremaining := hjustified.le_remaining
      have hnext := ih hrest (hoffers.afterFill hleft grant.fill.quantity)
        (hleaves.afterFill hleft grant.fill.quantity)
      rw [passGrants_cons_of_granted houtcome, sideTotal_cons, hwants]
      by_cases hside : grant.order.intent.side = side
      · rw [if_pos hside, if_pos ⟨hside, rfl⟩]
        omega
      · rw [if_neg hside, if_neg fun h => hside h.1]
        omega

/-- Where no order fails, a side is granted all that its orders want, as far as the display goes. -/
theorem sideTotal_eq_min (hmodel : self.model.quantity = .displayed)
    (hsound : ∀ order ∈ orders, order.Sound)
    (hoffers : self.Offers event available) (hleaves : self.Leaves event available)
    (hfails : ∀ order ∈ orders, ¬ self.Fails event occurrence order) (side : OrderSide) :
    sideTotal (self.passGrants event occurrence orders available) side =
      min (available.offered side) (self.wanted event occurrence orders side) := by
  induction orders generalizing available with
  | nil => exact (Nat.min_zero _).symm
  | cons order rest ih =>
    obtain ⟨hsound, hrest⟩ := List.forall_mem_cons.1 hsound
    obtain ⟨hfail, hnone⟩ := List.forall_mem_cons.1 hfails
    rw [wanted_cons]
    rcases outcome_cases occurrence hsound hleaves with ⟨hused, houtcome⟩ | ⟨left, hleft,
      ⟨e, halone, houtcome⟩ | ⟨halone, houtcome⟩ | ⟨grant, fill, halone, houtcome, rfl, hvalue⟩⟩
    · rw [passGrants_cons_of_passed houtcome, ih hrest hoffers hleaves hnone]
      by_cases hside : order.intent.side = side
      · have hzero : available.offered side = 0 := by rw [Available.offered, ← hside, hused]
        omega
      · rw [if_neg fun h => hside h.1, Nat.zero_add]
    · exact absurd ⟨e, halone⟩ hfail
    · have hwants : self.wants event occurrence order = false := by simp [wants, halone]
      rw [passGrants_cons_of_passed houtcome, ih hrest hoffers hleaves hnone, hwants,
        if_neg (by simp), Nat.zero_add]
    · have hwants : self.wants event occurrence grant.order = true := by simp [wants, halone]
      have hnext := ih hrest (hoffers.afterFill hleft grant.fill.quantity)
        (hleaves.afterFill hleft grant.fill.quantity)
        hnone
      rw [offered_afterFill hmodel hleft] at hnext
      rw [passGrants_cons_of_granted houtcome, sideTotal_cons, hnext, hwants]
      by_cases hside : grant.order.intent.side = side
      · have hoffered : available.offered side = left.2.value.val := by
          rw [Available.offered, ← hside, hleft]
        have hmin : (self.fillValue grant.order left.2).val =
            min grant.order.remaining.val left.2.value.val := by
          unfold fillValue
          rw [hmodel]
          exact Monotone.map_min fun a b hle => hle
        rw [if_pos hside, if_pos hside, if_pos ⟨hside, rfl⟩]
        unfold Grant.value at hvalue ⊢
        omega
      · rw [if_neg hside, if_neg hside, if_neg fun h => hside h.1, Nat.sub_zero]
        omega

/-- A pass fails exactly when some order fails alone: orders before it leave the evidence of its
side as it is. -/
theorem each_passOrder_fails (hsound : ∀ order ∈ orders, order.Sound) (pass : Pass)
    (hoffers : self.Offers event pass.available) (hleaves : self.Leaves event pass.available)
    (huntouched : ∀ order ∈ orders, self.Fails event occurrence order →
      pass.available.side order.intent.side ≠ none) :
    (∃ e final, each (self.passOrder event occurrence) orders pass = .error e final) ↔
      ∃ order ∈ orders, self.Fails event occurrence order := by
  induction orders generalizing pass with
  | nil => simp [each, pure, EStateM.pure]
  | cons order rest ih =>
    obtain ⟨hsound, hrest⟩ := List.forall_mem_cons.1 hsound
    obtain ⟨hhere, hlater⟩ := List.forall_mem_cons.1 huntouched
    rw [each]
    simp only [List.mem_cons, exists_eq_or_imp]
    have hpassed (hfail : ¬ self.Fails event occurrence order)
        (h : self.outcome event occurrence pass.available order = .passed) :
        (∃ e final, (self.passOrder event occurrence order >>= fun _ =>
          each (self.passOrder event occurrence) rest) pass = .error e final) ↔
          self.Fails event occurrence order ∨
          ∃ order ∈ rest, self.Fails event occurrence order := by
      rw [bind_of_ok (passOrder_passed hoffers h), or_iff_right hfail]
      exact ih hrest { pass with orders := pass.orders ++ [order] } hoffers hleaves hlater
    rcases outcome_cases occurrence hsound hleaves with ⟨hused, houtcome⟩ | ⟨left, hleft,
      ⟨e, halone, houtcome⟩ | ⟨halone, houtcome⟩ | ⟨grant, fill, halone, houtcome, rfl, -⟩⟩
    · exact hpassed (fun hfail => hhere hfail hused) houtcome
    · rw [bind_of_error (passOrder_stopped houtcome)]
      exact iff_of_true ⟨e, pass, rfl⟩ (.inl ⟨e, halone⟩)
    · refine hpassed (fun hfails => ?_) houtcome
      obtain ⟨e, hfail⟩ := hfails
      rw [halone] at hfail
      cases hfail
    · have hfail : ¬ self.Fails event occurrence grant.order := fun hfails => by
        obtain ⟨e, hfail⟩ := hfails
        rw [halone] at hfail
        cases hfail
      obtain ⟨feedback, hstep⟩ := passOrder_granted hoffers hsound houtcome
      rw [bind_of_ok hstep, or_iff_right hfail]
      refine ih hrest ⟨_, _, _, _⟩ (hoffers.afterFill hleft _) (hleaves.afterFill hleft _)
        fun other hother hothers => ?_
      simp only [side_afterFill hleft]
      rw [if_neg]
      · exact hlater other hother hothers
      · rintro ⟨hside, -⟩
        have hwants := hothers.not_wants (hrest other hother) hside.symm
        simp [wants, halone] at hwants

/-- A pass grants nothing exactly when every order that wants something comes after one that fails.
-/
theorem passGrants_eq_nil_iff (hsound : ∀ order ∈ orders, order.Sound) :
    self.passGrants event occurrence orders (self.available event) = [] ↔
      ∀ before order after, orders = before ++ order :: after →
      self.wants event occurrence order = true →
        ∃ other ∈ before, self.Fails event occurrence other := by
  induction orders with
  | nil =>
    refine iff_of_true rfl fun before order after hsplit => ?_
    cases before <;> cases hsplit
  | cons order rest ih =>
    obtain ⟨hsound, hrest⟩ := List.forall_mem_cons.1 hsound
    -- an order that is passed over neither wants nor fails
    have hpassed (hwants : self.wants event occurrence order = false)
        (hfail : ¬ self.Fails event occurrence order)
        (h : self.outcome event occurrence (self.available event) order = .passed) :
        self.passGrants event occurrence (order :: rest) (self.available event) = [] ↔
          ∀ before o after, order :: rest = before ++ o :: after →
          self.wants event occurrence o = true →
            ∃ other ∈ before, self.Fails event occurrence other := by
      rw [passGrants_cons_of_passed h, ih hrest]
      refine ⟨fun hall before o after hsplit hwant =>
        ?_, fun hall before o after hsplit hwant => ?_⟩
      · cases before with
        | nil =>
          obtain rfl := (List.cons.inj hsplit).1
          rw [hwants] at hwant
          cases hwant
        | cons first before =>
          obtain ⟨other, hother, hfails⟩ := hall before o after (List.cons.inj hsplit).2 hwant
          exact ⟨other, List.mem_cons_of_mem _ hother, hfails⟩
      · obtain ⟨other, hother, hfails⟩ :=
          hall (order :: before) o after (by rw [hsplit, List.cons_append]) hwant
        rcases List.mem_cons.1 hother with rfl | hother
        · exact absurd hfails hfail
        · exact ⟨other, hother, hfails⟩
    rcases outcome_cases occurrence hsound (self.leaves_available event) with ⟨hused, houtcome⟩ |
      ⟨left, -, ⟨e, halone, houtcome⟩ | ⟨halone, houtcome⟩ |
        ⟨grant, fill, halone, houtcome, rfl, -⟩⟩
    · have halone : self.alone event occurrence order = .ok none :=
        outcome_passed (self.offers_available event) houtcome
      exact hpassed (by simp [wants, halone]) (by simp [Fails, halone]) houtcome
    · rw [passGrants_cons_of_stopped houtcome]
      refine iff_of_true rfl fun before o after hsplit hwant => ?_
      cases before with
      | nil =>
        obtain rfl := (List.cons.inj hsplit).1
        simp [wants, halone] at hwant
      | cons first before =>
        obtain rfl := (List.cons.inj hsplit).1
        exact ⟨order, List.mem_cons_self, e, halone⟩
    · exact hpassed (by simp [wants, halone]) (by simp [Fails, halone]) houtcome
    · rw [passGrants_cons_of_granted houtcome]
      refine iff_of_false (List.cons_ne_nil _ _) fun hall => ?_
      obtain ⟨other, hother, -⟩ := hall [] grant.order rest rfl (by simp [wants, halone])
      cases hother

end Pass

end Simulator

end Osmium
