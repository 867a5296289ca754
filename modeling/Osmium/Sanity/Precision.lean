import Osmium.Sanity.DayTrade

/-! How the arithmetic of a ledger can fail. Everything overflows; only the product with the
contract multiplier can lose precision, and does when what is multiplied is not a whole number of
atoms afterwards. -/

namespace Osmium
open Machine Bytes Result Stateful Rounding

/-- Atoms whose product with the multiplier is again a whole number of atoms. -/
def InstrumentEconomics.Represents (economics : InstrumentEconomics) (atoms : ℤ) : Prop :=
  (Decimal.scaleFactor : ℤ) ∣ atoms * economics.multiplier.atoms.val

instance (economics : InstrumentEconomics) (atoms : ℤ) : Decidable (economics.Represents atoms) :=
  inferInstanceAs (Decidable (_ ∣ _))

/-- The failures that are no fault of the precision: a result out of range, and a time out of the
calendar. -/
def AccountingError.OutOfRange (e : AccountingError) : Prop :=
  e = .overflow ∨ e = .invalidTradingDate

section Represents
variable {economics : InstrumentEconomics} {a b : ℤ}

theorem InstrumentEconomics.Represents.add (ha : economics.Represents a)
    (hb : economics.Represents b) :
    economics.Represents (a + b) := by
  unfold InstrumentEconomics.Represents
  rw [add_mul]
  exact dvd_add ha hb

theorem InstrumentEconomics.Represents.sub (ha : economics.Represents a)
    (hb : economics.Represents b) :
    economics.Represents (a - b) := by
  unfold InstrumentEconomics.Represents
  rw [sub_mul]
  exact dvd_sub ha hb

theorem InstrumentEconomics.Represents.mul (ha : economics.Represents a) (n : ℤ) :
    economics.Represents (a * n) := by
  unfold InstrumentEconomics.Represents
  rw [mul_right_comm]
  exact ha.mul_right n

theorem InstrumentEconomics.represents_zero (economics : InstrumentEconomics) :
    economics.Represents 0 := by
  unfold InstrumentEconomics.Represents
  rw [zero_mul]
  exact dvd_zero _

end Represents

section Failures

theorem checked_fails (o : Option I128) : FailsIn AccountingError.OutOfRange (checked o) :=
  FailsIn.okOr (.inl rfl)

theorem checkedAdd_fails (a b : Decimal) : FailsIn AccountingError.OutOfRange (checkedAdd a b) :=
  FailsIn.mapError fun _ => .inl rfl

theorem checkedSub_fails (a b : Decimal) : FailsIn AccountingError.OutOfRange (checkedSub a b) :=
  FailsIn.mapError fun _ => .inl rfl

theorem divideRound_fails (n d : I128) (policy : RoundingPolicy) :
    FailsIn AccountingError.OutOfRange (divideRound n d policy) := by
  unfold divideRound
  by_cases hzero : (n.rem d).val = 0
  · simp only [hzero, if_true]
    exact FailsIn.pure _
  · simp only [hzero, if_false]
    cases policy with
    | down => exact FailsIn.pure _
    | up => exact checked_fails _
    | halfUp =>
      by_cases hup : d.abs.val ≤ ((n.rem d).abs.wrappingMul (Signed.wrap 128 2)).val
      · simp only [hup, if_true]
        exact checked_fails _
      · simp only [hup, if_false]
        exact FailsIn.pure _

theorem charge_fails (notional : Decimal) (quantity : ℕ) (side : OrderSide) (model : ChargeModel) :
    FailsIn AccountingError.OutOfRange (charge notional quantity side model) := by
  by_cases happlies : chargeApplies model.sides side = true
  · rw [charge_eq happlies]
    refine FailsIn.bind ?_ fun left => ?_
    · unfold ChargeModel.base
      cases model.basis <;> exact checked_fails _
    refine FailsIn.bind (checked_fails _) fun product => ?_
    refine FailsIn.bind (divideRound_fails _ _ _) fun raw => ?_
    refine FailsIn.bind (checked_fails _) fun quantum => ?_
    refine FailsIn.bind (divideRound_fails _ _ _) fun quotient => ?_
    exact FailsIn.bind (checked_fails _) fun rounded => FailsIn.pure _
  · unfold charge
    rw [if_pos (by simpa using happlies)]
    exact FailsIn.pure _

/-- A product that is a whole number of atoms loses nothing. -/
theorem multiplyDecimalAtoms_fails {left right : I128}
    (h : (Decimal.scaleFactor : ℤ) ∣ left.val * right.val) :
    FailsIn AccountingError.OutOfRange (multiplyDecimalAtoms left right) := by
  have hspec := cancelled_spec left right
  rw [multiplyDecimalAtoms_eq]
  refine FailsIn.bind_of_ok (checked_fails _) fun product hproduct => ?_
  rw [checked_eq_ok, Signed.checkedMul_eq_some] at hproduct
  have hrem : (product.rem (cancelled left right).2.2).val = 0 := by
    obtain ⟨k, hk⟩ := h
    have hscale : (Decimal.scaleFactor : ℤ) ≠ 0 := by norm_num [Decimal.scaleFactor]
    have hmultiple : product.val = (cancelled left right).2.2.val * k := by
      apply mul_right_cancel₀ hscale
      rw [hproduct, hspec.exact, hk]
      ring
    rw [Signed.val_rem _ _ (by decide), hmultiple, Int.mul_tmod_right]
  refine FailsIn.bind_of_ok ?_ fun _ _ => FailsIn.pure _
  rw [(ensure_eq_ok _ _ ()).2 hrem]
  exact FailsIn.pure _

theorem scaleByQuantity_fails {value : Decimal} {economics : InstrumentEconomics}
    (h : economics.Represents value.atoms.val) (quantity : ℕ) :
    FailsIn AccountingError.OutOfRange (scaleByQuantity value quantity economics) := by
  refine FailsIn.bind (checked_fails _) fun q => ?_
  refine FailsIn.bind (multiplyDecimalAtoms_fails h) fun scaled => ?_
  exact FailsIn.bind (checked_fails _) fun product => FailsIn.pure _

theorem represents_of_scaleByQuantity {value p : Decimal} {quantity : ℕ}
    {economics : InstrumentEconomics} (h : scaleByQuantity value quantity economics = .ok p) :
    economics.Represents value.atoms.val := by
  unfold scaleByQuantity at h
  simp only [bind_eq_ok] at h
  obtain ⟨q, -, scaled, hscaled, -⟩ := h
  exact ⟨scaled.val, by rw [← multiplyDecimalAtoms_exact hscaled, mul_comm]⟩

theorem splitSellTax_fails {price : Decimal} {economics : InstrumentEconomics}
    (h : economics.Represents price.atoms.val)
    (quantity dayTradeQuantity : ℕ) (model : DayTradeTaxModel) :
    FailsIn AccountingError.OutOfRange
      (splitSellTax price quantity dayTradeQuantity economics model) := by
  have hpart (quantity : ℕ) (charge : ChargeModel) :
      FailsIn AccountingError.OutOfRange (partTax price quantity economics charge) := by
    unfold partTax
    by_cases hzero : quantity = 0
    · rw [if_pos hzero]
      exact FailsIn.pure _
    · rw [if_neg hzero]
      exact FailsIn.bind (scaleByQuantity_fails h quantity) fun notional => charge_fails _ _ _ _
  refine FailsIn.bind (FailsIn.ensure (.inl rfl)) fun _ => ?_
  refine FailsIn.bind (hpart _ _) fun dayTrade => ?_
  exact FailsIn.bind (hpart _ _) fun ordinary => checkedAdd_fails _ _

theorem tradingDate_fails (matchTime : MatchTime) (timezoneOffsetMinutes : I32) :
    FailsIn AccountingError.OutOfRange (tradingDate matchTime timezoneOffsetMinutes) := by
  refine FailsIn.bind (FailsIn.okOr (.inr rfl)) fun offset => ?_
  refine FailsIn.bind (FailsIn.okOr (.inr rfl)) fun shifted => ?_
  refine FailsIn.bind (FailsIn.okOr (.inr rfl)) fun epochDays => ?_
  exact FailsIn.mapError fun _ => .inr rfl

theorem averageCostOf_fails (basis position : I128) :
    FailsIn AccountingError.OutOfRange (averageCostOf basis position) := by
  unfold averageCostOf
  by_cases hzero : position.val = 0
  · rw [if_pos hzero]
    exact FailsIn.pure _
  · rw [if_neg hzero]
    refine FailsIn.bind (checked_fails _) fun divisor => ?_
    exact FailsIn.bind (divideRound_fails _ _ _) fun z => FailsIn.pure _

theorem cashDelta_fails (model : AccountingModel) (side : OrderSide)
    (notional fee tax realized : Decimal) :
    FailsIn AccountingError.OutOfRange (cashDelta model side notional fee tax realized) := by
  unfold cashDelta
  cases model with
  | futuresV1 => exact FailsIn.bind (checkedSub_fails _ _) fun _ => checkedSub_fails _ _
  | equityV1 | optionsV1 =>
    cases side with
    | buy =>
      refine FailsIn.bind (checkedAdd_fails _ _) fun _ => ?_
      exact FailsIn.bind (checkedAdd_fails _ _) fun _ => FailsIn.mapError fun _ => .inl rfl
    | sell => exact FailsIn.bind (checkedSub_fails _ _) fun _ => checkedSub_fails _ _

theorem allocatedBasis_fails (basis closed size : I128) :
    FailsIn AccountingError.OutOfRange (allocatedBasis basis closed size) := by
  unfold allocatedBasis
  by_cases hall : closed = size
  · rw [if_pos hall]
    exact FailsIn.pure _
  · rw [if_neg hall]
    exact FailsIn.bind (checked_fails _) fun numerator => divideRound_fails _ _ _

theorem remainingBasis_fails (position basis allocated next : I128) (price : Decimal) :
    FailsIn AccountingError.OutOfRange (remainingBasis position basis allocated next price) := by
  unfold remainingBasis
  by_cases hzero : next.val = 0
  · rw [if_pos hzero]
    exact FailsIn.pure _
  · rw [if_neg hzero]
    by_cases hflip : next.val.sign ≠ position.val.sign
    · rw [if_pos hflip]
      exact checked_fails _
    · rw [if_neg hflip]
      exact checked_fails _

/-- What a fill against the position comes to before the result is scaled: the closed quantity, the
basis allocated to it, its value at the price of the fill, and the difference of the two. -/
structure Differs (position basis delta : I128) (price : Decimal)
    (closed size allocated value difference : I128) :
    Prop where
  against : ¬ (position.val = 0 ∨ position.val.sign = delta.val.sign)
  sized : size.val = |position.val|
  closes : closed.val = min |position.val| |delta.val|
  allocates : allocatedBasis basis closed size = .ok allocated
  valued : value.val = price.atoms.val * closed.val
  differs : difference.val = if 0 < position.val then value.val - allocated.val else
      allocated.val - value.val

section Transition
variable {position basis delta closed size allocated value difference : I128} {price : Decimal}
  {economics : InstrumentEconomics}

theorem difference_eq_some :
    (if 0 < position.val then value.checkedSub allocated else allocated.checkedSub value) =
      some difference ↔
    difference.val = if 0 < position.val then value.val - allocated.val else
      allocated.val - value.val := by
  by_cases hlong : 0 < position.val
  · rw [if_pos hlong, if_pos hlong, Signed.checkedSub_eq_some]
  · rw [if_neg hlong, if_neg hlong, Signed.checkedSub_eq_some]

/-- A difference is representable with its share, since the price is. -/
theorem Differs.represents_iff
    (h : Differs position basis delta price closed size allocated value difference)
    (hprice : economics.Represents price.atoms.val) :
    economics.Represents difference.val ↔ economics.Represents allocated.val := by
  have hvalue : economics.Represents value.val := h.valued ▸ hprice.mul closed.val
  rw [h.differs]
  by_cases hlong : 0 < position.val
  · rw [if_pos hlong]
    refine ⟨fun hrep => ?_, hvalue.sub⟩
    have := hvalue.sub hrep
    rwa [sub_sub_cancel] at this
  · rw [if_neg hlong]
    refine ⟨fun hrep => ?_, fun hrep => hrep.sub hvalue⟩
    have := hrep.add hvalue
    rwa [sub_add_cancel] at this

/-- A transition fails as the scaling of a difference does, or out of range. -/
theorem transitionPosition_fails {P : AccountingError → Prop}
    (hrange : ∀ e, AccountingError.OutOfRange e → P e)
    (hscale : ∀ closed size allocated value difference,
      Differs position basis delta price closed size allocated value difference →
        FailsIn P (scaleByQuantity ⟨difference⟩ 1 economics)) :
    FailsIn P (transitionPosition position basis delta price economics) := by
  have hchecked (o : Option I128) : FailsIn P (checked o) := (checked_fails o).imp hrange
  have haverage (basis position : I128) : FailsIn P (averageCostOf basis position) :=
    (averageCostOf_fails basis position).imp hrange
  refine FailsIn.bind (hchecked _) fun next => ?_
  by_cases hadd : position.val = 0 ∨ position.val.sign = delta.val.sign
  · rw [if_pos hadd]
    refine FailsIn.bind (hchecked _) fun added => ?_
    refine FailsIn.bind (hchecked _) fun nextBasis => ?_
    exact FailsIn.bind (haverage _ _) fun average => FailsIn.pure _
  · rw [if_neg hadd]
    refine FailsIn.bind_of_ok (hchecked _) fun size hsize => ?_
    refine FailsIn.bind_of_ok (hchecked _) fun closed hclosed => ?_
    refine FailsIn.bind_of_ok ((allocatedBasis_fails _ _ _).imp hrange)
      fun allocated hallocated => ?_
    refine FailsIn.bind_of_ok (hchecked _) fun value hvalue => ?_
    refine FailsIn.bind_of_ok (hchecked _) fun difference hdifference => ?_
    rw [checked_eq_ok, Signed.ofInt?_eq_some] at hsize hclosed
    rw [checked_eq_ok, Signed.checkedMul_eq_some] at hvalue
    rw [checked_eq_ok, difference_eq_some] at hdifference
    refine FailsIn.bind (hscale _ _ _ _ _ ⟨hadd, hsize, hclosed, hallocated, hvalue, hdifference⟩)
      fun realized => ?_
    refine FailsIn.bind ((remainingBasis_fails _ _ _ _ _).imp hrange) fun nextBasis => ?_
    exact FailsIn.bind (haverage _ _) fun average => FailsIn.pure _

/-- Where the difference comes to be scaled, the transition fails as the scaling does. -/
theorem Differs.transition_error
    (h : Differs position basis delta price closed size allocated value difference)
    {next : I128} (hnext : next.val = position.val + delta.val) {e : AccountingError}
    (hscale : scaleByQuantity ⟨difference⟩ 1 economics = .error e) :
    transitionPosition position basis delta price economics = .error e := by
  have hchecked {o : Option I128} {a : I128} (ho : o = some a) : checked o = .ok a :=
    (checked_eq_ok _ _).2 ho
  refine (bind_eq_error _ _ _).2
    (.inr ⟨next, hchecked ((Signed.checkedAdd_eq_some _ _ _).2 hnext), ?_⟩)
  rw [if_neg h.against]
  refine (bind_eq_error _ _ _).2 (.inr ⟨size, hchecked ((Signed.ofInt?_eq_some _ _).2 h.sized), ?_⟩)
  refine (bind_eq_error _ _ _).2
    (.inr ⟨closed, hchecked ((Signed.ofInt?_eq_some _ _).2 h.closes), ?_⟩)
  refine (bind_eq_error _ _ _).2 (.inr ⟨allocated, h.allocates, ?_⟩)
  refine (bind_eq_error _ _ _).2
    (.inr ⟨value, hchecked ((Signed.checkedMul_eq_some _ _ _).2 h.valued), ?_⟩)
  refine (bind_eq_error _ _ _).2 (.inr ⟨difference, hchecked (difference_eq_some.2 h.differs), ?_⟩)
  exact (bind_eq_error _ _ _).2 (.inl hscale)

/-- What cannot be represented is lost, where the product that shows it is in range. -/
theorem scaleByQuantity_loses (hnot : ¬ economics.Represents difference.val) {product : I128}
    (hproduct : product.val = (cancelled difference economics.multiplier.atoms).1.val *
      (cancelled difference economics.multiplier.atoms).2.1.val) :
    scaleByQuantity ⟨difference⟩ 1 economics = .error .precisionLoss := by
  have hchecked : checked ((cancelled difference economics.multiplier.atoms).1.checkedMul
      (cancelled difference economics.multiplier.atoms).2.1) = .ok product :=
    (checked_eq_ok _ _).2 ((Signed.checkedMul_eq_some _ _ _).2 hproduct)
  have hmultiply : multiplyDecimalAtoms difference economics.multiplier.atoms =
      .error .precisionLoss := by
    rw [multiplyDecimalAtoms_eq]
    refine (bind_eq_error _ _ _).2 (.inr ⟨product, hchecked, (bind_eq_error _ _ _).2 (.inl ?_)⟩)
    rw [ensure_eq_error]
    refine ⟨fun hrem => hnot ?_, rfl⟩
    have hok : multiplyDecimalAtoms difference economics.multiplier.atoms =
        .ok (product.quot (cancelled difference economics.multiplier.atoms).2.2) := by
      rw [multiplyDecimalAtoms_eq, bind_eq_ok]
      exact ⟨product, hchecked, (bind_eq_ok _ _ _).2 ⟨(), (ensure_eq_ok _ _ _).2 hrem, rfl⟩⟩
    exact ⟨_, by rw [← multiplyDecimalAtoms_exact hok, mul_comm]⟩
  refine (bind_eq_error _ _ _).2
    (.inr ⟨Signed.wrap 128 1, rfl, (bind_eq_error _ _ _).2 (.inl hmultiply)⟩)

end Transition

end Failures

section Queues
variable {date : TradingDate} {economics : InstrumentEconomics} {model : DayTradeTaxModel}

theorem matchSells_fails (sells : List DayTradeSell) (remaining : ℕ) (adjustment : Decimal)
    (h : ∀ sell ∈ sells, economics.Represents sell.price.atoms.val) :
    FailsIn AccountingError.OutOfRange
      (matchSells date economics model sells remaining adjustment) := by
  induction sells generalizing remaining adjustment with
  | nil => exact FailsIn.pure _
  | cons sell rest ih =>
    have hrest (remaining : ℕ) (adjustment : Decimal) :=
      ih remaining adjustment fun s hs => h s (List.mem_cons_of_mem _ hs)
    unfold matchSells
    by_cases hopen : sell.date = date ∧ sell.matched < sell.quantity
    · rw [if_pos hopen]
      by_cases hzero : remaining = 0
      · rw [if_pos hzero]
        exact FailsIn.pure _
      · rw [if_neg hzero]
        refine FailsIn.bind (splitSellTax_fails (h sell List.mem_cons_self) _ _ _)
          fun assessed => ?_
        refine FailsIn.bind (checkedSub_fails _ _) fun change => ?_
        refine FailsIn.bind (checkedAdd_fails _ _) fun total => ?_
        exact FailsIn.bind (hrest _ _) fun _ => FailsIn.pure _
    · rw [if_neg hopen]
      exact FailsIn.bind (hrest _ _) fun _ => FailsIn.pure _

variable {l : Ledger} {fill : FillRecord} {notional : Decimal}

theorem taxForFill_fails (hprice : l.economics.Represents fill.price.value.atoms.val)
    (hsells : ∀ sell ∈ l.dayTradeSells, l.economics.Represents sell.price.atoms.val) :
    FailsIn AccountingError.OutOfRange (l.taxForFill fill notional) := by
  unfold Ledger.taxForFill
  cases l.dayTradeTax with
  | none => exact FailsIn.bind (charge_fails _ _ _ _) fun _ => FailsIn.pure _
  | some model =>
    refine FailsIn.bind (tradingDate_fails _ _) fun date => ?_
    by_cases hplain : model.isEligible date = false ∨ model.validThrough.epochDays < date.epochDays
    · rw [if_pos hplain]
      exact FailsIn.bind (charge_fails _ _ _ _) fun _ => FailsIn.pure _
    · rw [if_neg hplain]
      cases fill.side with
      | buy => exact FailsIn.bind (matchSells_fails _ _ _ hsells) fun _ => FailsIn.pure _
      | sell => exact FailsIn.bind (splitSellTax_fails hprice _ _ _) fun _ => FailsIn.pure _

end Queues

end Osmium
