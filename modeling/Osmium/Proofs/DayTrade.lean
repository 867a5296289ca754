import Osmium.Proofs.Accounting
import Osmium.Sanity.DayTrade

/-! The day-trade tax over runs of fills. On one date the buys and the sells are matched as totals,
whatever their order; whether relief is relief depends on the rounding of the two parts of a sell.
-/

namespace Osmium
open Machine Bytes Result Stateful Rounding Allotment

section Totals
variable {date : TradingDate} {model : DayTradeTaxModel} {fills : List FillRecord}
  {fill : FillRecord} {start l l' : Ledger}

def sellsOf (fills : List FillRecord) : List FillRecord :=
  fills.filter fun fill => fill.side = .sell

/-- The price and the quantity of each sell, in the order they were sold. -/
def soldOf (fills : List FillRecord) : List (Decimal × ℕ) :=
  (sellsOf fills).map fun fill => (fill.price.value, fill.quantity.value.val)

def boughtOf (fills : List FillRecord) : ℕ :=
  ((fills.filter fun fill => fill.side = .buy).map fun fill => fill.quantity.value.val).sum

/-- No buy and no sell of the date waits to be matched. -/
def Ledger.NoneOpen (l : Ledger) (date : TradingDate) : Prop :=
  (∀ buy ∈ l.dayTradeBuys, buy.date = date → buy.remaining = 0) ∧
    ∀ sell ∈ l.dayTradeSells, sell.date = date → sell.quantity ≤ sell.matched

/-- A buy and a sell of the date both wait to be matched. -/
def Ledger.BothOpen (l : Ledger) (date : TradingDate) : Prop :=
  (∃ buy ∈ l.dayTradeBuys, buy.date = date ∧ 0 < buy.remaining) ∧
    ∃ sell ∈ l.dayTradeSells, sell.date = date ∧ sell.matched < sell.quantity

/-- The queues after fills of one date: the sells are served from all that was bought, and the buys
keep the surplus. -/
structure DayTraded (date : TradingDate) (model : DayTradeTaxModel) (fills : List FillRecord)
    (start l : Ledger) (sold : List DayTradeSell) : Prop where
  terms : SameTerms start l
  still : Sold date start.economics model sold
  sales : sold.map (fun sell => (sell.price, sell.quantity)) = soldOf fills
  matched : sold.map DayTradeSell.matched = allot (boughtOf fills) (sold.map DayTradeSell.quantity)
  queue : l.dayTradeSells.filter (·.isOpen date) = sold.filter (·.isOpen date)
  tax : l.totalTax.atoms.val = start.totalTax.atoms.val + taxSum sold
  buys : openBuys date l.dayTradeBuys = boughtOf fills - (sold.map DayTradeSell.quantity).sum

theorem DayTraded.none (h : start.NoneOpen date) : DayTraded date model [] start start [] := by
  refine ⟨.refl _, ⟨by simp, by simp⟩, rfl, rfl, ?_, (add_zero _).symm, ?_⟩
  · refine List.filter_eq_nil_iff.2 fun sell hsell => ?_
    rw [DayTradeSell.isOpen, decide_eq_true_eq, not_and, not_lt]
    exact h.2 sell hsell
  · refine List.sum_eq_zero fun remaining hremaining => ?_
    obtain ⟨buy, hbuy, rfl⟩ := List.mem_map.1 hremaining
    obtain ⟨hmem, hdate⟩ := List.mem_filter.1 hbuy
    exact h.1 buy hmem (by simpa using hdate)

/-- What a sell leaves open is what it asked for and did not get. -/
theorem DayTraded.unmatched {sold : List DayTradeSell}
    (h : DayTraded date model fills start l sold) :
    sold.map DayTradeSell.unmatched = left (boughtOf fills) (sold.map DayTradeSell.quantity) := by
  rw [left, ← h.matched, List.zipWith_map, List.zipWith_self]
  rfl

theorem soldOf_snoc_buy (h : fill.side = .buy) : soldOf (fills ++ [fill]) = soldOf fills := by
  simp [soldOf, sellsOf, h]

theorem soldOf_snoc_sell (h : fill.side = .sell) :
    soldOf (fills ++ [fill]) = soldOf fills ++ [(fill.price.value, fill.quantity.value.val)] := by
  simp [soldOf, sellsOf, h]

theorem boughtOf_snoc_buy (h : fill.side = .buy) :
    boughtOf (fills ++ [fill]) = boughtOf fills + fill.quantity.value.val := by
  simp [boughtOf, h]

theorem boughtOf_snoc_sell (h : fill.side = .sell) :
    boughtOf (fills ++ [fill]) = boughtOf fills := by
  simp [boughtOf, h]

variable {sold : List DayTradeSell} {parts : FillParts}

theorem DayTraded.step_buy {sells : List DayTradeSell} {remaining : ℕ}
    (h : DayTraded date model fills start l sold)
    (hb : parts.Booked fill l l') (hside : fill.side = .buy)
    (hreprices :
      Reprices date l.economics model l.dayTradeSells fill.quantity.value.val sells remaining
      parts.tax.atoms.val) (hsells : parts.sells = sells)
    (hbuys : parts.buys = if 0 < remaining then l.dayTradeBuys ++ [⟨date, remaining⟩] else
      l.dayTradeBuys) :
    ∃ sold', DayTraded date model (fills ++ [fill]) start l' sold' := by
  rw [h.terms.economics] at hreprices
  obtain ⟨sold', hserves, hqueue⟩ := hreprices.serves h.still h.queue
  have hquantity := hserves.quantity
  have hsum : (sold.map DayTradeSell.unmatched).sum =
      (sold.map DayTradeSell.quantity).sum - boughtOf fills := by
    rw [h.unmatched, sum_left]
  refine ⟨sold', h.terms.trans hb.terms, hserves.still, ?_, ?_, ?_, ?_, ?_⟩
  · rw [soldOf_snoc_buy hside, ← h.sales, ← List.zip_map', ← List.zip_map',
      hserves.price, hquantity]
  · rw [hserves.matched, h.matched, h.unmatched, ← allot_add, boughtOf_snoc_buy hside, hquantity]
  · rw [hb.dayTradeSells, hsells, hqueue]
  · rw [checkedAdd_atoms hb.totalTax, h.tax, hserves.change, add_assoc]
  · have hleft := hserves.remaining
    have hopen : openBuys date l'.dayTradeBuys = openBuys date l.dayTradeBuys + remaining := by
      rw [hb.dayTradeBuys, hbuys]
      by_cases hpos : 0 < remaining
      · rw [if_pos hpos, openBuys_append]
        simp [openBuys]
      · rw [if_neg hpos]
        omega
    rw [hopen, h.buys, boughtOf_snoc_buy hside, hquantity]
    omega

theorem DayTraded.step_sell {remaining : ℕ} (h : DayTraded date model fills start l sold)
    (hb : parts.Booked fill l l') (hside : fill.side = .sell)
    (hremaining : remaining = unmatchedBy date l.dayTradeBuys fill.quantity.value.val)
    (htax : splitSellTax fill.price.value fill.quantity.value.val
      (fill.quantity.value.val - remaining) l.economics model =
      .ok parts.tax)
    (hbuys : parts.buys = (matchBuys date l.dayTradeBuys fill.quantity.value.val).1)
    (hsells : parts.sells = if 0 < remaining then
      l.dayTradeSells ++ [⟨date, fill.price.value, fill.quantity.value.val,
      fill.quantity.value.val - remaining, parts.tax⟩] else l.dayTradeSells) :
    ∃ sold', DayTraded date model (fills ++ [fill]) start l' sold' := by
  obtain ⟨hleft, hopen⟩ := matchBuys_spec date l.dayTradeBuys fill.quantity.value.val
  rw [unmatchedBy, hleft, h.buys] at hremaining
  rw [h.terms.economics] at htax
  set new : DayTradeSell :=
    ⟨date, fill.price.value, fill.quantity.value.val, fill.quantity.value.val - remaining,
    parts.tax⟩ with hnew
  refine ⟨sold ++ [new], h.terms.trans hb.terms, ⟨?_, ?_⟩, ?_, ?_, ?_, ?_, ?_⟩
  · intro sell hsell
    rcases List.mem_append.1 hsell with hsell | hsell
    · exact h.still.date sell hsell
    · rw [List.mem_singleton.1 hsell]
  · intro sell hsell
    rcases List.mem_append.1 hsell with hsell | hsell
    · exact h.still.assessed sell hsell
    · rw [List.mem_singleton.1 hsell]
      exact htax
  · rw [List.map_append, h.sales, soldOf_snoc_sell hside]
    rfl
  · rw [List.map_append, List.map_append, allot_append, h.matched, boughtOf_snoc_sell hside]
    congr 1
    simp only [List.map_cons, List.map_nil, allot_cons, allot_nil, hnew, List.cons.injEq, and_true]
    omega
  · rw [hb.dayTradeSells, hsells, List.filter_append, ← h.queue]
    by_cases hpos : 0 < remaining
    · rw [if_pos hpos, List.filter_append]
    · have hclosed : new.isOpen date = false := by
        simp only [DayTradeSell.isOpen, hnew]
        exact decide_eq_false (by omega)
      rw [if_neg hpos, List.filter_cons_of_neg (by simp [hclosed]), List.filter_nil,
        List.append_nil]
  · rw [checkedAdd_atoms hb.totalTax, h.tax, taxSum, taxSum, List.map_append, List.sum_append]
    simp only [List.map_cons, List.map_nil, List.sum_singleton, hnew, add_assoc]
  · rw [hb.dayTradeBuys, hbuys, hopen, h.buys, boughtOf_snoc_sell hside, List.map_append,
      List.sum_append]
    simp only [List.map_cons, List.map_nil, List.sum_singleton, hnew]
    omega

theorem DayTraded.step (h : DayTraded date model fills start l sold)
    (hmodel : start.dayTradeTax = some model) (hcovers : model.Covers date)
    (hdate : tradingDate fill.matchTime model.timezoneOffsetMinutes = .ok date)
    (hfill : Ledger.applyFill fill l = .ok () l') :
    ∃ sold', DayTraded date model (fills ++ [fill]) start l' sold' := by
  obtain ⟨parts, hb⟩ := applyFill_parts hfill
  rw [← h.terms.dayTradeTax] at hmodel
  have htaxes := taxForFill_ok hb.tax_ok
  generalize htax : parts.tax = tax at htaxes
  generalize hbuys : parts.buys = buys at htaxes
  generalize hsells : parts.sells = sells at htaxes
  cases htaxes with
  | plain hnone => simp [hmodel] at hnone
  | ordinary hmodel' hdate' huncovered =>
    obtain rfl : model = _ := Option.some.inj (hmodel.symm.trans hmodel')
    obtain rfl : date = _ := Except.ok.inj (hdate.symm.trans hdate')
    exact absurd hcovers huncovered
  | buy hmodel' hdate' _ hside hreprices =>
    obtain rfl : model = _ := Option.some.inj (hmodel.symm.trans hmodel')
    obtain rfl : date = _ := Except.ok.inj (hdate.symm.trans hdate')
    exact h.step_buy hb hside (htax ▸ hreprices) hsells hbuys
  | sell hmodel' hdate' _ hside hremaining hsplit =>
    obtain rfl : model = _ := Option.some.inj (hmodel.symm.trans hmodel')
    obtain rfl : date = _ := Except.ok.inj (hdate.symm.trans hdate')
    exact h.step_sell hb hside hremaining (htax ▸ hsplit) hbuys (htax ▸ hsells)

theorem DayTraded.run {rest : List FillRecord} (h : DayTraded date model fills start l sold)
    (hmodel : start.dayTradeTax = some model) (hcovers : model.Covers date)
    (hdates : ∀ fill ∈ rest, tradingDate fill.matchTime model.timezoneOffsetMinutes = .ok date)
    (run : applyFills rest l = .ok () l') :
    ∃ sold', DayTraded date model (fills ++ rest) start l' sold' := by
  induction rest generalizing fills l sold with
  | nil =>
    obtain ⟨-, rfl⟩ := (pure_ok _ _ _ _).1 run
    exact ⟨sold, by rwa [List.append_nil]⟩
  | cons fill rest ih =>
    rw [List.forall_mem_cons] at hdates
    obtain ⟨m, hfill, run⟩ := (applyFills_cons _ _ _ _).1 run
    obtain ⟨sold', hstep⟩ := h.step hmodel hcovers hdates.1 hfill
    obtain ⟨sold'', hrun⟩ := ih hstep hdates.2 run
    rw [List.append_assoc, List.singleton_append] at hrun
    exact ⟨sold'', hrun⟩

/-- Both kinds open would need more bought than sold and more sold than bought. -/
theorem DayTraded.not_bothOpen (h : DayTraded date model fills start l sold) :
    ¬ l.BothOpen date := by
  rintro ⟨⟨buy, hbuy, hbuyDate, hbuyOpen⟩, sell, hsell, hsellOpen⟩
  have hbuys : 0 < openBuys date l.dayTradeBuys := by
    refine lt_of_lt_of_le hbuyOpen (List.single_le_sum (fun _ _ => Nat.zero_le _) _ ?_)
    exact List.mem_map_of_mem (List.mem_filter.2 ⟨hbuy, by simpa using hbuyDate⟩)
  have hmem : sell ∈ sold := by
    have : sell ∈ l.dayTradeSells.filter (·.isOpen date) :=
      List.mem_filter.2 ⟨hsell, decide_eq_true hsellOpen⟩
    rw [h.queue] at this
    exact (List.mem_filter.1 this).1
  have hsells : 0 < (sold.map DayTradeSell.unmatched).sum := by
    refine lt_of_lt_of_le (Nat.sub_pos_of_lt hsellOpen.2)
      (List.single_le_sum (fun _ _ => Nat.zero_le _) _ ?_)
    exact List.mem_map_of_mem hmem
  rw [h.unmatched, sum_left] at hsells
  rw [h.buys] at hbuys
  omega

/-- The tax on each sell with the part of it that lies among the first units sold. -/
def splitTaxes (sold : List (Decimal × ℕ)) (matchedUnits : ℕ) (economics : InstrumentEconomics)
    (model : DayTradeTaxModel) :
    List (Except AccountingError Decimal) :=
  List.zipWith (fun sale part => splitSellTax sale.1 sale.2 part economics model) sold
    (allot matchedUnits (sold.map Prod.snd))

theorem DayTraded.splitTaxes_eq (h : DayTraded date model fills start l sold) :
    splitTaxes (soldOf fills) (min (boughtOf fills) ((soldOf fills).map Prod.snd).sum)
      start.economics model =
      (sold.map DayTradeSell.assessedTax).map .ok := by
  have hquantities : (soldOf fills).map Prod.snd = sold.map DayTradeSell.quantity := by
    rw [← h.sales, List.map_map]
    rfl
  rw [splitTaxes, allot_min_sum, hquantities, ← h.matched, ← h.sales, List.zipWith_map,
    List.zipWith_self, List.map_map]
  exact List.map_congr_left h.still.assessed

/-- On one date that the model covers the tax depends on the sells and on how much was bought in
all: it is the sum of the taxes on the sells, each split at the part of it among the first units
sold, as many as were both bought and sold. -/
theorem day_trade_tax_of_totals (model : DayTradeTaxModel) (date : TradingDate) (start l : Ledger)
    (fills : List FillRecord)
    (hmodel : start.dayTradeTax = some model) (hcovers : model.Covers date)
    (hnone : start.NoneOpen date)
    (hdates : ∀ fill ∈ fills, tradingDate fill.matchTime model.timezoneOffsetMinutes = .ok date)
    (run : applyFills fills start = .ok () l) :
    (∃ taxes : List Decimal,
      splitTaxes (soldOf fills) (min (boughtOf fills) ((soldOf fills).map Prod.snd).sum)
        start.economics model =
        taxes.map .ok ∧
      l.totalTax.atoms.val = start.totalTax.atoms.val + (taxes.map fun tax => tax.atoms.val).sum) ∧
    (∀ before after m, fills = before ++ after → applyFills before start = .ok () m →
      ¬ m.BothOpen date) ∧
    ∀ fills' l',
      (∀ fill ∈ fills', tradingDate fill.matchTime model.timezoneOffsetMinutes = .ok date) →
      soldOf fills' = soldOf fills → boughtOf fills' = boughtOf fills →
      applyFills fills' start = .ok () l' →
      l'.totalTax = l.totalTax := by
  obtain ⟨sold, htraded⟩ := (DayTraded.none hnone).run hmodel hcovers hdates run
  rw [List.nil_append] at htraded
  have htaxSum (sold : List DayTradeSell) :
      ((sold.map DayTradeSell.assessedTax).map fun tax => tax.atoms.val).sum = taxSum sold := by
    rw [List.map_map]
    rfl
  refine ⟨⟨sold.map DayTradeSell.assessedTax, htraded.splitTaxes_eq, ?_⟩, ?_, ?_⟩
  · rw [htaxSum, htraded.tax]
  · intro before after m hfills hbefore
    obtain ⟨_, hm⟩ := (DayTraded.none hnone).run hmodel hcovers
      (fun fill hfill => hdates fill (hfills ▸ List.mem_append_left _ hfill)) hbefore
    exact hm.not_bothOpen
  · intro fills' l' hdates' hsold hbought run'
    obtain ⟨sold', htraded'⟩ := (DayTraded.none hnone).run hmodel hcovers hdates' run'
    rw [List.nil_append] at htraded'
    have htaxes := htraded'.splitTaxes_eq
    rw [hsold, hbought, htraded.splitTaxes_eq] at htaxes
    have hsame : sold.map DayTradeSell.assessedTax = sold'.map DayTradeSell.assessedTax :=
      List.map_injective_iff.2 (fun _ _ => Except.ok.inj) htaxes
    apply Decimal.ext
    apply Signed.ext
    rw [htraded'.tax, htraded.tax, ← htaxSum, ← htaxSum, hsame]

/-- Three parts in a thousand on sells, and half of that on the part that is matched within the day.
-/
def exampleDayTrade : DayTradeTaxModel where
  ordinary := ⟨.notionalRate, ⟨Signed.wrap 128 (3 * 10 ^ 15)⟩, .sell, Decimal.zero, 0, .down⟩
  dayTrade := ⟨.notionalRate, ⟨Signed.wrap 128 (15 * 10 ^ 14)⟩, .sell, Decimal.zero, 0, .down⟩
  timezoneOffsetMinutes := 0
  validThrough := ⟨Signed.wrap 32 20000, by decide⟩
  eligible := true
  eligibleDates := none
  provenance := ⟨[120], Eq.refl true⟩
  valid := by
    unfold dayTradeTaxValid
    decide

def exampleDate : TradingDate := ⟨0, by decide⟩

def dayTradeLedger : Ledger :=
  (Ledger.newWithModel Decimal.zero exampleEconomics exampleCharge exampleDayTrade.ordinary
    .equityV1).withDayTradeTax
    exampleDayTrade

/-- Two are sold before three are bought, and two after: three of the four are matched. -/
theorem day_trade_tax_of_two_sells :
    ∃ l, applyFills [exampleFill .sell 100 2 (by decide), exampleFill .buy 90 3 (by decide),
      exampleFill .sell 110 2 (by decide)] dayTradeLedger = .ok () l ∧
      ¬ l.BothOpen exampleDate := by
  have hrun : returnsAnd
      (applyFills [exampleFill .sell 100 2 (by decide), exampleFill .buy 90 3 (by decide),
      exampleFill .sell 110 2 (by decide)] dayTradeLedger) (fun _ _ => true) =
        true := by decide +kernel
  obtain ⟨_, l, hl, -⟩ := exists_of_returnsAnd hrun
  have h := day_trade_tax_of_totals exampleDayTrade exampleDate dayTradeLedger l _ rfl
    (by unfold DayTradeTaxModel.Covers; decide)
    ⟨fun _ h => absurd h List.not_mem_nil, fun _ h => absurd h List.not_mem_nil⟩
      (by decide +kernel) hl
  exact ⟨l, hl, h.2.1 _ [] l (List.append_nil _).symm hl⟩

end Totals

section Relief
variable {economics : InstrumentEconomics} {model : DayTradeTaxModel} {price tax : Decimal}
  {quantity matched : ℕ}

/-- The exact tax of a quantity at a price, under one of the two models. -/
def exactTax (economics : InstrumentEconomics) (price : Decimal) (quantity : ℕ)
    (charge : ChargeModel) : ℚ :=
  quantity * |price.exact * economics.scale| * charge.rate.exact

theorem DayTradeTaxModel.ordinary_validated (model : DayTradeTaxModel) :
    model.ordinary.Validated := by
  obtain ⟨-, -, -, -, -, -, hrate, -, hminimum, -, hprecision, -⟩ := model.valid
  exact ⟨hrate, hminimum, hprecision⟩

theorem DayTradeTaxModel.dayTrade_validated (model : DayTradeTaxModel) :
    model.dayTrade.Validated := by
  obtain ⟨-, -, -, -, -, -, -, hrate, -, hminimum, -, hprecision, -⟩ := model.valid
  exact ⟨hrate, hminimum, hprecision⟩

theorem exactTax_nonneg {charge : ChargeModel} (hmodel : charge.Validated) :
    0 ≤ exactTax economics price quantity charge := by
  have hrate : 0 ≤ charge.rate.exact := by
    have := hmodel.rate
    rw [Decimal.exact]
    positivity
  rw [exactTax]
  positivity

theorem exactTax_zero (economics : InstrumentEconomics) (price : Decimal) (charge : ChargeModel) :
    exactTax economics price 0 charge = 0 := by
  rw [exactTax, Nat.cast_zero, zero_mul, zero_mul]

/-- The tax on a part is its exact tax rounded and raised to the minimum; there is none on an empty
part. -/
theorem partTax_atoms {charge : ChargeModel} (hmodel : charge.Validated)
    (hbasis : charge.basis = .notionalRate)
    (hsides : charge.sides = .sell) (h : partTax price quantity economics charge = .ok tax) :
    tax.atoms.val = if quantity = 0 then 0
      else max (charge.rounded (exactTax economics price quantity charge))
        charge.minimum.atoms.val := by
  unfold partTax at h
  by_cases hzero : quantity = 0
  · rw [if_pos hzero, Except.ok.injEq] at h
    rw [if_pos hzero, ← h]
    rfl
  · rw [if_neg hzero] at h ⊢
    simp only [bind_eq_ok] at h
    obtain ⟨notional, hnotional, h⟩ := h
    have hproduct (q : ℕ) : charge.product notional q =
        exactTax economics price quantity charge := by
      have hq : (0 : ℚ) ≤ quantity := Nat.cast_nonneg _
      rw [ChargeModel.product, hbasis, scaleByQuantity_exact hnotional, exactTax, mul_right_comm,
        abs_mul, abs_of_nonneg hq]
      ring
    -- a charge at a rate does not look at the quantity
    have h' : Osmium.charge notional (0 : U64).val .sell charge = .ok tax := by
      rw [← h, charge_eq (by rw [hsides]; rfl), charge_eq (by rw [hsides]; rfl), ChargeModel.base,
        ChargeModel.base, hbasis]
    have hsplits := charge_rounds_twice hmodel (by rw [hsides]; rfl) h'
    rwa [hproduct] at hsplits

/-- Nothing is rounded higher by the first model than by the second. -/
def ChargeModel.RoundsBelow (lower upper : ChargeModel) : Prop :=
  ∀ x, 0 ≤ x → lower.rounded x ≤ upper.rounded x

theorem roundsBelow_of_alike {lower upper : ChargeModel}
    (hprecision : lower.precision = upper.precision)
    (hrounding : lower.rounding = upper.rounding) : lower.RoundsBelow upper := by
  intro x _
  rw [ChargeModel.rounded, ChargeModel.rounded, ChargeModel.quantumAtoms, ChargeModel.quantumAtoms,
    hprecision, hrounding]

/-- Two amounts that are rounded on their own are rounded to no more than their sum: one of them is
whole, or the rounding is down. -/
def AddsNothing (first second : ChargeModel) (d o : ℚ) : Prop :=
  first.Whole d ∧ second.Whole d ∨ first.RoundsBelow second ∧
  (second.Whole o ∨ second.rounding = .down)

/-- They are rounded to no less: one of them is whole, or the rounding is up. -/
def LosesNothing (first second : ChargeModel) (d o : ℚ) : Prop :=
  first.Whole d ∧ second.Whole d ∨ second.RoundsBelow first ∧
  (second.Whole o ∨ second.rounding = .up)

section Pair
variable {first second : ChargeModel} {d o : ℚ}

theorem rounded_add_of_whole (hfirst : first.precision ≤ 18) (hsecond : second.precision ≤ 18)
    (hd : first.Whole d ∧ second.Whole d) :
    second.rounded (d + o) = first.rounded d + second.rounded o := by
  have h := second.rounded_add_whole hsecond (x := o) hd.2
  rw [← first.rounded_whole hfirst hd.1, add_comm o] at h
  rw [add_comm (first.rounded d)]
  exact_mod_cast h

theorem rounded_add_of_whole_right (hsecond : second.precision ≤ 18) (ho : second.Whole o) :
    second.rounded (d + o) = second.rounded d + second.rounded o := by
  have h := second.rounded_add_whole hsecond (x := d) ho
  rw [← second.rounded_whole hsecond ho] at h
  exact_mod_cast h

theorem AddsNothing.le (h : AddsNothing first second d o) (hfirst : first.precision ≤ 18)
    (hsecond : second.precision ≤ 18)
    (hd : 0 ≤ d) : first.rounded d + second.rounded o ≤ second.rounded (d + o) := by
  rcases h with hwhole | ⟨hbelow, hrest⟩
  · exact (rounded_add_of_whole hfirst hsecond hwhole).ge
  · have hle : second.rounded d + second.rounded o ≤ second.rounded (d + o) := by
      rcases hrest with ho | hdown
      · exact (rounded_add_of_whole_right hsecond ho).ge
      · exact second.rounded_add_le hdown d o
    have := hbelow d hd
    omega

theorem LosesNothing.le (h : LosesNothing first second d o) (hfirst : first.precision ≤ 18)
    (hsecond : second.precision ≤ 18) (hd : 0 ≤ d) :
    second.rounded (d + o) ≤ first.rounded d + second.rounded o := by
  rcases h with hwhole | ⟨hbelow, hrest⟩
  · exact (rounded_add_of_whole hfirst hsecond hwhole).le
  · have hle : second.rounded (d + o) ≤ second.rounded d + second.rounded o := by
      rcases hrest with ho | hup
      · exact (rounded_add_of_whole_right hsecond ho).le
      · exact second.rounded_add_ge hup d o
    have := hbelow d hd
    omega

end Pair

/-- The tax of a part is not raised to the minimum. -/
def Unraised (economics : InstrumentEconomics) (price : Decimal) (quantity : ℕ)
    (charge : ChargeModel) : Prop :=
  0 < quantity → charge.minimum.atoms.val ≤
    charge.rounded (exactTax economics price quantity charge)

/-- No minimum adds to the tax on the two parts of a sell: neither part is raised to it, or there is
only a day-trade part, with a minimum that is no higher than the ordinary one. -/
def MinimumsAddNothing (economics : InstrumentEconomics) (model : DayTradeTaxModel)
    (price : Decimal) (quantity matched : ℕ) : Prop :=
  Unraised economics price matched model.dayTrade ∧
      Unraised economics price (quantity - matched) model.ordinary ∨
    matched = quantity ∧ model.dayTrade.minimum.atoms.val ≤ model.ordinary.minimum.atoms.val

/-- The exact taxes of the two parts of a sell, each rounded by its own model. -/
def roundedApart (economics : InstrumentEconomics) (model : DayTradeTaxModel) (price : Decimal)
    (quantity matched : ℕ) : ℤ :=
  model.dayTrade.rounded (exactTax economics price matched model.dayTrade) +
    model.ordinary.rounded (exactTax economics price (quantity - matched) model.ordinary)

/-- Each is also raised to its minimum, and an empty part is not taxed. -/
def taxApart (economics : InstrumentEconomics) (model : DayTradeTaxModel) (price : Decimal)
    (quantity matched : ℕ) : ℤ :=
  (if matched = 0 then 0 else
    max (model.dayTrade.rounded (exactTax economics price matched model.dayTrade))
      model.dayTrade.minimum.atoms.val) +
  if quantity - matched = 0 then 0 else
    max (model.ordinary.rounded (exactTax economics price (quantity - matched) model.ordinary))
      model.ordinary.minimum.atoms.val

theorem splitSellTax_parts (h : splitSellTax price quantity matched economics model = .ok tax) :
    matched ≤ quantity ∧ tax.atoms.val = taxApart economics model price quantity matched := by
  obtain ⟨-, hordinary, hdayTrade, hordinarySides, hdayTradeSides, -⟩ := model.valid
  unfold splitSellTax at h
  simp only [bind_eq_ok, ensure_eq_ok] at h
  obtain ⟨-, hle, dayTradeTax, hd, ordinaryTax, ho, h⟩ := h
  rw [checkedAdd_atoms h, partTax_atoms model.dayTrade_validated hdayTrade hdayTradeSides hd,
    partTax_atoms model.ordinary_validated hordinary hordinarySides ho]
  exact ⟨hle, rfl⟩

theorem dayTrade_rounded_nonneg (economics : InstrumentEconomics) (model : DayTradeTaxModel)
    (price : Decimal) (matched : ℕ) :
    0 ≤ model.dayTrade.rounded (exactTax economics price matched model.dayTrade) :=
  model.dayTrade.rounded_nonneg (exactTax_nonneg model.dayTrade_validated)

theorem MinimumsAddNothing.le (h : MinimumsAddNothing economics model price quantity matched) :
    taxApart economics model price quantity matched ≤
      max (roundedApart economics model price quantity matched)
        model.ordinary.minimum.atoms.val := by
  have hd := dayTrade_rounded_nonneg economics model price matched
  have ho : 0 ≤ model.ordinary.rounded
      (exactTax economics price (quantity - matched) model.ordinary) :=
    model.ordinary.rounded_nonneg (exactTax_nonneg model.ordinary_validated)
  have hminimum := model.ordinary_validated.minimum
  rw [taxApart, roundedApart]
  rcases h with ⟨hunraised, hunraised'⟩ | ⟨rfl, hbelow⟩
  · have hfirst : 0 < matched → _ := hunraised
    have hsecond : 0 < quantity - matched → _ := hunraised'
    split_ifs <;> omega
  · rw [Nat.sub_self] at ho ⊢
    split_ifs <;> omega

/-- As long as a sell is open, the ordinary minimum is below its tax. -/
theorem le_taxApart (hopen : matched < quantity) :
    max (roundedApart economics model price quantity matched) model.ordinary.minimum.atoms.val ≤
      taxApart economics model price quantity matched := by
  have hd := dayTrade_rounded_nonneg economics model price matched
  rw [taxApart, roundedApart, if_neg (Nat.sub_pos_of_lt hopen).ne']
  by_cases hzero : matched = 0
  · rw [if_pos hzero, hzero, exactTax_zero, model.dayTrade.rounded_zero, zero_add, zero_add]
  · rw [if_neg hzero]
    omega

/-- The day-trade rate is at most the ordinary one. -/
theorem exactTax_dayTrade_le (economics : InstrumentEconomics) (price : Decimal) (quantity : ℕ)
    (model : DayTradeTaxModel) :
    exactTax economics price quantity model.dayTrade ≤
      exactTax economics price quantity model.ordinary := by
  obtain ⟨-, -, -, -, -, hrate, -⟩ := model.valid
  have hscale : (0 : ℚ) < Decimal.scaleFactor := by norm_num [Decimal.scaleFactor]
  have hle : model.dayTrade.rate.exact ≤ model.ordinary.rate.exact := by
    rw [Decimal.exact, Decimal.exact, div_le_div_iff_of_pos_right hscale]
    exact_mod_cast hrate
  unfold exactTax
  gcongr

theorem exactTax_add (economics : InstrumentEconomics) (price : Decimal) (a b : ℕ)
    (charge : ChargeModel) :
    exactTax economics price (a + b) charge =
      exactTax economics price a charge + exactTax economics price b charge := by
  unfold exactTax
  push_cast
  ring

section Matching
variable {more : ℕ}

/-- More of a sell matched, and before anything is rounded the two parts together are taxed less. -/
theorem exactTax_parts_anti (hle : matched + more ≤ quantity) :
    exactTax economics price (matched + more) model.dayTrade +
        exactTax economics price (quantity - (matched + more)) model.ordinary ≤
      exactTax economics price matched model.dayTrade +
        exactTax economics price (quantity - matched) model.ordinary := by
  have hrest : quantity - matched = more + (quantity - (matched + more)) := by omega
  have hrelief := exactTax_dayTrade_le economics price more model
  rw [hrest, exactTax_add, exactTax_add]
  linarith

/-- The two parts before a match lose nothing by being rounded on their own, and those after it gain
nothing. -/
def RoundsAlike (economics : InstrumentEconomics) (model : DayTradeTaxModel) (price : Decimal)
    (quantity matched more : ℕ) : Prop :=
  LosesNothing model.dayTrade model.ordinary (exactTax economics price matched model.dayTrade)
      (exactTax economics price (quantity - matched) model.ordinary) ∧
    AddsNothing model.dayTrade model.ordinary
      (exactTax economics price (matched + more) model.dayTrade)
      (exactTax economics price (quantity - (matched + more)) model.ordinary)

/-- The parts after a match come to no more than those before it, even where the former are rounded
up as far as they may be and the latter down. -/
def OutweighsRounding (economics : InstrumentEconomics) (model : DayTradeTaxModel)
    (price : Decimal) (quantity matched more : ℕ) : Prop :=
  model.dayTrade.atMost (exactTax economics price (matched + more) model.dayTrade) +
      model.ordinary.atMost
        (exactTax economics price (quantity - (matched + more)) model.ordinary) ≤
    model.dayTrade.atLeast (exactTax economics price matched model.dayTrade) +
      model.ordinary.atLeast (exactTax economics price (quantity - matched) model.ordinary)

instance (economics : InstrumentEconomics) (model : DayTradeTaxModel) (price : Decimal)
    (quantity matched more : ℕ) :
    Decidable (OutweighsRounding economics model price quantity matched more) :=
  inferInstanceAs (Decidable (_ ≤ _))

/-- A match whose relief neither the rounding of the parts nor a minimum can outweigh. -/
structure SplitsCleanly (economics : InstrumentEconomics) (model : DayTradeTaxModel)
    (price : Decimal) (quantity matched more : ℕ) : Prop where
  rounding : RoundsAlike economics model price quantity matched more ∨
    OutweighsRounding economics model price quantity matched more
  minimums : MinimumsAddNothing economics model price quantity (matched + more)

theorem RoundsAlike.le (h : RoundsAlike economics model price quantity matched more)
    (hle : matched + more ≤ quantity) :
    roundedApart economics model price quantity (matched + more) ≤
      roundedApart economics model price quantity matched := by
  obtain ⟨hloses, hadds⟩ := h
  have hdayTrade := model.dayTrade_validated
  have hordinary := model.ordinary_validated
  calc _ ≤ model.ordinary.rounded (exactTax economics price (matched + more) model.dayTrade +
          exactTax economics price (quantity - (matched + more)) model.ordinary) :=
        hadds.le hdayTrade.precision hordinary.precision (exactTax_nonneg hdayTrade)
    _ ≤ model.ordinary.rounded (exactTax economics price matched model.dayTrade +
          exactTax economics price (quantity - matched) model.ordinary) :=
        model.ordinary.rounded_mono (exactTax_parts_anti hle)
    _ ≤ roundedApart economics model price quantity matched :=
        hloses.le hdayTrade.precision hordinary.precision (exactTax_nonneg hdayTrade)

theorem OutweighsRounding.le (h : OutweighsRounding economics model price quantity matched more) :
    roundedApart economics model price quantity (matched + more) ≤
      roundedApart economics model price quantity matched := by
  have hdayTrade := model.dayTrade_validated.precision
  have hordinary := model.ordinary_validated.precision
  have hscale : (0 : ℚ) ≤ Decimal.scaleFactor := by norm_num [Decimal.scaleFactor]
  have hatoms := mul_le_mul_of_nonneg_right h hscale
  rw [add_mul, add_mul] at hatoms
  have hcast : (roundedApart economics model price quantity (matched + more) : ℚ) ≤
      roundedApart economics model price quantity matched := by
    rw [roundedApart, roundedApart]
    push_cast
    exact (add_le_add (model.dayTrade.rounded_le_atMost hdayTrade _)
      (model.ordinary.rounded_le_atMost hordinary _)).trans (hatoms.trans
        (add_le_add (model.dayTrade.atLeast_le_rounded hdayTrade _)
          (model.ordinary.atLeast_le_rounded hordinary _)))
  exact_mod_cast hcast

/-- Then matching more of an open sell relieves it. -/
theorem SplitsCleanly.le (h : SplitsCleanly economics model price quantity matched more)
    (hopen : matched < quantity) (hle : matched + more ≤ quantity) :
    taxApart economics model price quantity (matched + more) ≤
      taxApart economics model price quantity matched := by
  have hrounded : roundedApart economics model price quantity (matched + more) ≤
      roundedApart economics model price quantity matched :=
    h.rounding.elim (fun halike => halike.le hle) fun houtweighs => houtweighs.le
  exact h.minimums.le.trans ((max_le_max_right _ hrounded).trans (le_taxApart hopen))

end Matching

/-- A sell is never assessed above what the ordinary model alone charges for it. -/
def AtMostOrdinary (economics : InstrumentEconomics) (model : DayTradeTaxModel)
    (sell : DayTradeSell) : Prop :=
  ∀ whole, partTax sell.price sell.quantity economics model.ordinary = .ok whole →
    sell.assessedTax.atoms.val ≤ whole.atoms.val

/-- The whole of a sell under the ordinary model is what it is taxed while nothing is matched. -/
theorem partTax_unmatched {whole : Decimal} (hpos : 0 < quantity)
    (hwhole : partTax price quantity economics model.ordinary = .ok whole) :
    whole.atoms.val = taxApart economics model price quantity 0 := by
  obtain ⟨-, hordinary, -, hordinarySides, -⟩ := model.valid
  rw [partTax_atoms model.ordinary_validated hordinary hordinarySides hwhole, taxApart, if_pos rfl,
    zero_add, Nat.sub_zero, if_neg hpos.ne']

theorem splitSellTax_le_ordinary {whole : Decimal} (hpos : 0 < quantity)
    (h : splitSellTax price quantity matched economics model = .ok tax)
    (hwhole : partTax price quantity economics model.ordinary = .ok whole)
    (hsplits : 0 < matched → SplitsCleanly economics model price quantity 0 matched) :
    tax.atoms.val ≤ whole.atoms.val := by
  obtain ⟨hle, htax⟩ := splitSellTax_parts h
  rw [htax, partTax_unmatched hpos hwhole]
  rcases Nat.eq_zero_or_pos matched with rfl | hmatched
  · exact le_rfl
  · have hmono := (hsplits hmatched).le hpos (by omega)
    rwa [zero_add] at hmono

/-- The sells that a buy reprices, with what it matches of each. -/
def repricings (date : TradingDate) (sells : List DayTradeSell) (quantity : ℕ) :
    List (DayTradeSell × ℕ) :=
  let waiting := sells.filter (·.isOpen date)
  waiting.zip (allot quantity (waiting.map DayTradeSell.unmatched))

/-- What the queue knows of a sell. -/
structure Fair (economics : InstrumentEconomics) (model : DayTradeTaxModel)
    (sell : DayTradeSell) : Prop where
  assessed : splitSellTax sell.price sell.quantity sell.matched economics model =
      .ok sell.assessedTax
  atMost : AtMostOrdinary economics model sell

theorem Reprices.relieves {date : TradingDate} {sells sells' : List DayTradeSell}
    {remaining remaining' : ℕ} {change : ℤ}
    (h : Reprices date economics model sells remaining sells' remaining' change)
    (hfair : ∀ sell ∈ sells, Fair economics model sell)
    (hsplits : ∀ r ∈ repricings date sells remaining, 0 < r.2 →
      SplitsCleanly economics model r.1.price r.1.quantity r.1.matched r.2) :
    change ≤ 0 ∧ ∀ sell ∈ sells', Fair economics model sell := by
  induction h with
  | nil | done => exact ⟨le_rfl, hfair⟩
  | @skip sell rest remaining rest' remaining' change hclosed _ ih =>
    have hnot : sell.isOpen date = false := decide_eq_false hclosed
    rw [List.forall_mem_cons] at hfair ⊢
    rw [repricings, List.filter_cons_of_neg (by simp [hnot])] at hsplits
    obtain ⟨hchange, hrest⟩ := ih hfair.2 hsplits
    exact ⟨hchange, hfair.1, hrest⟩
  | @take sell rest remaining rest' remaining' change assessed hopen hpos hassessed _ ih =>
    have hyes : sell.isOpen date = true := decide_eq_true hopen
    have hleft : remaining - min remaining (sell.quantity - sell.matched) =
        remaining - sell.unmatched := by
      rw [DayTradeSell.unmatched]
      omega
    rw [List.forall_mem_cons] at hfair ⊢
    simp only [repricings, List.filter_cons_of_pos hyes, List.map_cons, allot_cons,
      List.zip_cons_cons, List.forall_mem_cons, ← hleft] at hsplits
    have hsplit := hsplits.1 (lt_min hpos (Nat.sub_pos_of_lt hopen.2))
    obtain ⟨hchange, hrest⟩ := ih hfair.2 hsplits.2
    obtain ⟨-, hbefore⟩ := splitSellTax_parts hfair.1.assessed
    obtain ⟨hle, hafter⟩ := splitSellTax_parts hassessed
    have hmono : assessed.atoms.val ≤ sell.assessedTax.atoms.val := by
      rw [hbefore, hafter]
      exact hsplit.le hopen.2 hle
    exact ⟨by omega, ⟨hassessed, fun whole hwhole => hmono.trans (hfair.1.atMost whole hwhole)⟩,
      hrest⟩

/-- Neither the sells that a buy matches nor a sell that waiting buys match are split so that the
rounding of their parts or a minimum could outweigh the relief. -/
def Ledger.SplitsCleanly (l : Ledger) (model : DayTradeTaxModel) (fill : FillRecord) : Prop :=
  ∀ date, tradingDate fill.matchTime model.timezoneOffsetMinutes = .ok date → model.Covers date →
    (fill.side = .buy → ∀ r ∈ repricings date l.dayTradeSells fill.quantity.value.val, 0 < r.2 →
      Osmium.SplitsCleanly l.economics model r.1.price r.1.quantity r.1.matched r.2) ∧
    (fill.side = .sell → 0 < min fill.quantity.value.val (openBuys date l.dayTradeBuys) →
      Osmium.SplitsCleanly l.economics model fill.price.value fill.quantity.value.val 0
        (min fill.quantity.value.val (openBuys date l.dayTradeBuys)))

/-- Relief after a fill: a buy is booked no tax, a sell no more than the ordinary one, and no sell
before it is assessed more than that either. -/
structure Relieved (model : DayTradeTaxModel) (fill : FillRecord) (l l' : Ledger) : Prop where
  buy : fill.side = .buy → ∀ cost, l'.fillCosts.getLast? = some cost → cost.tax.atoms.val ≤ 0
  sell : fill.side = .sell → ∀ cost value whole, l'.fillCosts.getLast? = some cost →
      notional fill l.economics = .ok value →
    charge value fill.quantity.value.val .sell model.ordinary = .ok whole →
    cost.tax.atoms.val ≤ whole.atoms.val
  queue : ∀ sell ∈ l'.dayTradeSells, AtMostOrdinary l'.economics model sell

variable {fill : FillRecord} {l l' : Ledger}

/-- The whole of a sell under the ordinary model. -/
theorem partTax_of_fill {value whole : Decimal} (hvalue : notional fill l.economics = .ok value)
    (hwhole : charge value fill.quantity.value.val .sell model.ordinary = .ok whole) :
    partTax fill.price.value fill.quantity.value.val l.economics model.ordinary = .ok whole := by
  unfold partTax
  rw [if_neg fill.quantity.pos.ne', bind_eq_ok]
  exact ⟨value, hvalue, hwhole⟩

theorem relieved_step (hmodel : l.dayTradeTax = some model)
    (hfair : ∀ sell ∈ l.dayTradeSells, Fair l.economics model sell)
    (hsplits : l.SplitsCleanly model fill) (hfill : Ledger.applyFill fill l = .ok () l') :
    Relieved model fill l l' ∧ ∀ sell ∈ l'.dayTradeSells, Fair l'.economics model sell := by
  obtain ⟨parts, hb⟩ := applyFill_parts hfill
  obtain ⟨-, -, -, hsides, -⟩ := model.valid
  have hcost (cost : FillCostRecord) (hlast : l'.fillCosts.getLast? = some cost) :
      cost.tax = parts.tax := by
    rw [hb.fillCosts, List.getLast?_append, List.getLast?_singleton, Option.some_or,
      Option.some.injEq] at hlast
    rw [← hlast]
  rw [hb.dayTradeSells, hb.terms.economics]
  suffices hgoal : (fill.side = .buy → parts.tax.atoms.val ≤ 0) ∧
      (fill.side = .sell → ∀ value whole, notional fill l.economics = .ok value →
        charge value fill.quantity.value.val .sell model.ordinary = .ok whole →
        parts.tax.atoms.val ≤ whole.atoms.val) ∧
      ∀ sell ∈ parts.sells, Fair l.economics model sell by
    obtain ⟨hbuy, hsell, hqueue⟩ := hgoal
    refine ⟨⟨fun hside cost hlast => ?_, fun hside cost value whole hlast hvalue hwhole => ?_, ?_⟩,
      hqueue⟩
    · rw [hcost cost hlast]
      exact hbuy hside
    · rw [hcost cost hlast]
      exact hsell hside value whole hvalue hwhole
    · rw [hb.dayTradeSells, hb.terms.economics]
      exact fun sell hmem => (hqueue sell hmem).atMost
  have htaxes := taxForFill_ok hb.tax_ok
  generalize parts.tax = tax at htaxes ⊢
  generalize parts.buys = buys at htaxes
  generalize parts.sells = sells at htaxes ⊢
  cases htaxes with
  | plain hnone => simp [hmodel] at hnone
  | ordinary hmodel' hdate huncovered htax =>
    obtain rfl : model = _ := Option.some.inj (hmodel.symm.trans hmodel')
    refine ⟨fun hside => ?_, fun hside value whole hvalue hwhole => ?_, hfair⟩
    · rw [charge, hside, hsides, if_pos (by rfl), pure_eq_ok] at htax
      rw [← htax]
      exact le_rfl
    · rw [hb.notional_ok, Except.ok.injEq] at hvalue
      rw [hvalue, hside, hwhole, Except.ok.injEq] at htax
      rw [htax]
  | buy hmodel' hdate hcovers hside hreprices =>
    obtain rfl : model = _ := Option.some.inj (hmodel.symm.trans hmodel')
    obtain ⟨hchange, hqueue⟩ := hreprices.relieves hfair ((hsplits _ hdate hcovers).1 hside)
    exact ⟨fun _ => hchange, fun hsell => by simp [hside] at hsell, hqueue⟩
  | sell hmodel' hdate hcovers hside hremaining htax =>
    obtain rfl : model = _ := Option.some.inj (hmodel.symm.trans hmodel')
    rename_i date remaining
    rw [unmatchedBy, (matchBuys_spec _ _ _).1] at hremaining
    have hmatched : fill.quantity.value.val - remaining =
        min fill.quantity.value.val (openBuys date l.dayTradeBuys) := by
      omega
    rw [hmatched] at htax ⊢
    have hle (whole : Decimal)
        (hwhole : partTax fill.price.value fill.quantity.value.val l.economics model.ordinary =
          .ok whole) :
        tax.atoms.val ≤ whole.atoms.val :=
      splitSellTax_le_ordinary fill.quantity.pos htax hwhole ((hsplits date hdate hcovers).2 hside)
    refine ⟨fun hbuy => by simp [hside] at hbuy,
      fun _ value whole hvalue hwhole => hle whole (partTax_of_fill hvalue hwhole), ?_⟩
    by_cases hpos : 0 < remaining
    · rw [if_pos hpos]
      intro sell hsell
      rcases List.mem_append.1 hsell with hsell | hsell
      · exact hfair sell hsell
      · rw [List.mem_singleton.1 hsell]
        exact ⟨htax, hle⟩
    · rw [if_neg hpos]
      exact hfair

/-- The sells that wait stay fair as long as every call meets the condition. -/
theorem fair_after {start : Ledger} (hmodel : start.dayTradeTax = some model)
    (hnone : start.dayTradeSells = []) (fills : List FillRecord)
    (hsplits : ∀ before fill after, fills = before ++ fill :: after →
      (start.after before).SplitsCleanly model fill) :
    (start.after fills).dayTradeTax = some model ∧
      ∀ sell ∈ (start.after fills).dayTradeSells,
        Fair (start.after fills).economics model sell := by
  induction fills using List.reverseRecOn with
  | nil =>
    refine ⟨hmodel, ?_⟩
    rw [Ledger.after, List.foldl_nil, hnone]
    exact fun _ h => absurd h List.not_mem_nil
  | append_singleton fills fill ih =>
    obtain ⟨hmodel', hfair⟩ :=
      ih fun before f after hfills => hsplits before f (after ++ [fill]) (by simp [hfills])
    rw [Ledger.after_snoc]
    cases hcall : Ledger.applyFill fill (start.after fills) with
    | error e l' =>
      rw [stateAfter, applyFill_atomic fill _ e l' hcall]
      exact ⟨hmodel', hfair⟩
    | ok _ l' =>
      obtain ⟨parts, hb⟩ := applyFill_parts hcall
      exact ⟨hb.terms.dayTradeTax.trans hmodel',
        (relieved_step hmodel' hfair (hsplits fills fill [] rfl) hcall).2⟩

/-- Over any calls that split sells cleanly, relief never increases a tax. -/
theorem relief_never_increases_tax (initialCash : Decimal) (economics : InstrumentEconomics)
    (fee tax : ChargeModel)
    (accounting : AccountingModel) (model : DayTradeTaxModel) (start : Ledger)
    (fills : List FillRecord)
    (hstart :
      start = (Ledger.newWithModel initialCash economics fee tax accounting).withDayTradeTax model)
    (hsplits : ∀ before fill after, fills = before ++ fill :: after →
      (start.after before).SplitsCleanly model fill) :
    ∀ before fill after l', fills = before ++ fill :: after →
      Ledger.applyFill fill (start.after before) = .ok () l' →
      Relieved model fill (start.after before) l' := by
  intro before fill after l' hfills hfill
  have hnew : start.dayTradeTax = some model := by rw [hstart]; rfl
  have hnone : start.dayTradeSells = [] := by rw [hstart]; rfl
  obtain ⟨hmodel, hfair⟩ := fair_after hnew hnone before
    fun before' f after' h => hsplits before' f (after' ++ fill :: after) (by simp [hfills, h])
  exact (relieved_step hmodel hfair (hsplits before fill after hfills) hfill).1

/-- Single units, with the example's day-trade tax. -/
def unitDayTradeLedger : Ledger :=
  (Ledger.newWithModel Decimal.zero
    ⟨Unsigned.wrap 64 1, ⟨scaleFactorAtoms⟩, ⟨[120], Eq.refl true⟩⟩ exampleCharge exampleCharge
    .equityV1).withDayTradeTax exampleDayTrade

/-- Three sold at 330 and bought back in two fills. The last unit completes a matched part whose
tax, 1.485, rounds to one, where the two parts before it, 0.99 each, rounded to nothing: the buy is
charged one. -/
theorem relief_charges_a_buy : ∃ l,
    Ledger.applyFill (exampleFill .buy 330 1 (by decide))
      (unitDayTradeLedger.after
        [exampleFill .sell 330 3 (by decide), exampleFill .buy 330 2 (by decide)]) = .ok () l ∧
    ¬ Relieved exampleDayTrade (exampleFill .buy 330 1 (by decide))
      (unitDayTradeLedger.after
        [exampleFill .sell 330 3 (by decide), exampleFill .buy 330 2 (by decide)]) l := by
  have hcall : returnsAnd (Ledger.applyFill (exampleFill .buy 330 1 (by decide))
      (unitDayTradeLedger.after
        [exampleFill .sell 330 3 (by decide), exampleFill .buy 330 2 (by decide)]))
      (fun _ l => l.fillCosts.getLast?.any fun cost => decide (0 < cost.tax.atoms.val)) = true := by
    decide +kernel
  obtain ⟨_, l, hl, hcost⟩ := exists_of_returnsAnd hcall
  obtain ⟨cost, hlast, hpos⟩ := (Option.any_eq_true _ _).1 hcost
  refine ⟨l, hl, fun h => ?_⟩
  have := h.buy rfl cost hlast
  have := of_decide_eq_true hpos
  omega

/-- Both models of the example round down to whole numbers and have no minimum. -/
theorem splitsCleanly_example {economics : InstrumentEconomics} {price : Decimal}
    {quantity matched more : ℕ}
    (h : matched = 0 ∨ OutweighsRounding economics exampleDayTrade price quantity matched more) :
    SplitsCleanly economics exampleDayTrade price quantity matched more := by
  have hunraised (n : ℕ) (charge : ChargeModel) (hmodel : charge.Validated)
      (hminimum : charge.minimum = Decimal.zero) :
      Unraised economics price n charge := fun _ => by
    rw [hminimum]
    exact charge.rounded_nonneg (exactTax_nonneg hmodel)
  constructor
  · rcases h with rfl | houtweighs
    · left
      constructor
      · rw [exactTax_zero]
        exact .inl ⟨⟨0, by simp⟩, ⟨0, by simp⟩⟩
      · exact .inr ⟨roundsBelow_of_alike rfl rfl, .inr rfl⟩
    · exact .inr houtweighs
  · left
    constructor
    · exact hunraised _ _ exampleDayTrade.dayTrade_validated rfl
    · exact hunraised _ _ exampleDayTrade.ordinary_validated rfl

/-- Whether a buy matches no sell twice, or its relief outweighs the rounding where it does. -/
def relievesExample (l : Ledger) (fill : FillRecord) : Bool :=
  match tradingDate fill.matchTime exampleDayTrade.timezoneOffsetMinutes with
  | .error _ => true
  | .ok date => (repricings date l.dayTradeSells fill.quantity.value.val).all fun r =>
    decide (r.1.matched = 0 ∨
      OutweighsRounding l.economics exampleDayTrade r.1.price r.1.quantity r.1.matched r.2)

theorem splitsCleanly_of_check (h : relievesExample l fill = true) :
    l.SplitsCleanly exampleDayTrade fill := by
  intro date hdate _
  refine ⟨fun _ r hr _ => ?_, fun _ _ => splitsCleanly_example (.inl rfl)⟩
  rw [relievesExample, hdate, List.all_eq_true] at h
  exact splitsCleanly_example (of_decide_eq_true (h r hr))

/-- Seven are sold at 330 and bought back in two fills, and the tax on each part is rounded at each
of them: six are charged for the sell, two returned for the first buy, where parts of 1.485 and 3.96
are charged four, and one for the second, where 3.465 is charged three. -/
theorem relief_of_two_buys : ∃ l,
    Ledger.applyFill (exampleFill .buy 330 4 (by decide))
      (unitDayTradeLedger.after
        [exampleFill .sell 330 7 (by decide), exampleFill .buy 330 3 (by decide)]) = .ok () l ∧
    l.fillCosts.map (fun cost => cost.tax.atoms.val) =
      [6, -2, -1].map (fun units : ℤ => units * Decimal.scaleFactor) ∧
    Relieved exampleDayTrade (exampleFill .buy 330 4 (by decide))
      (unitDayTradeLedger.after
        [exampleFill .sell 330 7 (by decide), exampleFill .buy 330 3 (by decide)]) l := by
  have hcall : returnsAnd (Ledger.applyFill (exampleFill .buy 330 4 (by decide))
      (unitDayTradeLedger.after
        [exampleFill .sell 330 7 (by decide), exampleFill .buy 330 3 (by decide)]))
      (fun _ l => decide (l.fillCosts.map (fun cost => cost.tax.atoms.val) =
        [6, -2, -1].map (fun units : ℤ => units * Decimal.scaleFactor))) = true := by
    decide +kernel
  obtain ⟨_, l, hl, htaxes⟩ := exists_of_returnsAnd hcall
  have hrun : ∀ before ∈ [exampleFill .sell 330 7 (by decide), exampleFill .buy 330 3 (by decide),
      exampleFill .buy 330 4 (by decide)].inits,
      ∀ fill ∈ [exampleFill .sell 330 7 (by decide), exampleFill .buy 330 3 (by decide),
        exampleFill .buy 330 4 (by decide)],
      relievesExample (unitDayTradeLedger.after before) fill = true := by
    decide +kernel
  refine ⟨l, hl, of_decide_eq_true htaxes,
    relief_never_increases_tax Decimal.zero unitDayTradeLedger.economics exampleCharge
      exampleCharge .equityV1 exampleDayTrade unitDayTradeLedger
      [exampleFill .sell 330 7 (by decide), exampleFill .buy 330 3 (by decide),
        exampleFill .buy 330 4 (by decide)] rfl ?_
      [exampleFill .sell 330 7 (by decide), exampleFill .buy 330 3 (by decide)] _ [] l rfl hl⟩
  intro before fill after hfills
  apply splitsCleanly_of_check
  refine hrun before ((List.mem_inits _ _).2 ⟨fill :: after, hfills.symm⟩) fill ?_
  rw [hfills]
  exact List.mem_append_right _ List.mem_cons_self

end Relief

end Osmium
