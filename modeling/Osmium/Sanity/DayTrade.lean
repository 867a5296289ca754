import Osmium.Lib.Allotment
import Osmium.Sanity.Charges

/-! The two queues of the day-trade tax. A buy reprices the open sells of its date from the oldest
on; a sell uses up the open buys of its date. Everything a queue can do is said once here, as a
relation between the queue before and after. -/

namespace Osmium
open Machine Bytes Result Stateful Rounding Allotment

section Sells
variable {date : TradingDate} {economics : InstrumentEconomics} {model : DayTradeTaxModel}

/-- A sell with more of it matched, and its tax assessed again. -/
def DayTradeSell.repriced (sell : DayTradeSell) (matched : ℕ) (assessedTax : Decimal) :
    DayTradeSell :=
  { sell with matched := sell.matched + matched, assessedTax := assessedTax }

/-- What a buy does to the sells: from the first queue, with a quantity to match, to the second,
with what is left of the quantity and the change of the tax in atoms. -/
inductive Reprices (date : TradingDate) (economics : InstrumentEconomics)
    (model : DayTradeTaxModel) :
    List DayTradeSell → ℕ → List DayTradeSell → ℕ → ℤ → Prop
  | nil (remaining) : Reprices date economics model [] remaining [] remaining 0
  | done (sell rest) : Reprices date economics model (sell :: rest) 0 (sell :: rest) 0 0
  | skip {sell rest remaining rest' remaining' change}
      (hclosed : ¬ (sell.date = date ∧ sell.matched < sell.quantity))
      (h : Reprices date economics model rest remaining rest' remaining' change) :
      Reprices date economics model (sell :: rest) remaining (sell :: rest') remaining' change
  | take {sell rest remaining rest' remaining' change assessed}
      (hopen : sell.date = date ∧ sell.matched < sell.quantity)
      (hpos : 0 < remaining)
      (hassessed : splitSellTax sell.price sell.quantity
        (sell.matched + min remaining (sell.quantity - sell.matched))
        economics model = .ok assessed)
      (h : Reprices date economics model rest
        (remaining - min remaining (sell.quantity - sell.matched)) rest' remaining'
        change) :
      Reprices date economics model (sell :: rest) remaining
        (sell.repriced (min remaining (sell.quantity - sell.matched)) assessed :: rest') remaining'
        (assessed.atoms.val - sell.assessedTax.atoms.val + change)

theorem matchSells_ok {sells sells' : List DayTradeSell} {remaining remaining' : ℕ}
    {adjustment adjustment' : Decimal}
    (h : matchSells date economics model sells remaining adjustment =
      .ok (sells', remaining', adjustment')) :
    Reprices date economics model sells remaining sells' remaining'
      (adjustment'.atoms.val - adjustment.atoms.val) := by
  induction sells generalizing remaining adjustment sells' with
  | nil =>
    simp only [matchSells, Except.ok.injEq, Prod.mk.injEq] at h
    obtain ⟨rfl, rfl, rfl⟩ := h
    rw [sub_self]
    exact .nil _
  | cons sell rest ih =>
    unfold matchSells at h
    by_cases hopen : sell.date = date ∧ sell.matched < sell.quantity
    · rw [if_pos hopen] at h
      by_cases hzero : remaining = 0
      · rw [if_pos hzero, Except.ok.injEq, Prod.mk.injEq, Prod.mk.injEq] at h
        obtain ⟨rfl, rfl, rfl⟩ := h
        rw [sub_self, hzero]
        exact .done _ _
      · rw [if_neg hzero] at h
        simp only [bind_eq_ok, pure_eq_ok, Prod.mk.injEq] at h
        obtain ⟨assessed, hassessed, change, hchange, total, htotal,
            ⟨rest', remaining₁, adjustment₁⟩, hrest, rfl, rfl, rfl⟩ := h
        have hsum : adjustment₁.atoms.val - adjustment.atoms.val =
            assessed.atoms.val - sell.assessedTax.atoms.val +
              (adjustment₁.atoms.val - total.atoms.val) := by
          rw [checkedAdd_atoms htotal, checkedSub_atoms hchange]
          ring
        rw [hsum]
        exact .take hopen (Nat.pos_of_ne_zero hzero) hassessed (ih hrest)
    · rw [if_neg hopen] at h
      simp only [bind_eq_ok, pure_eq_ok, Prod.mk.injEq] at h
      obtain ⟨⟨rest', remaining₁, adjustment₁⟩, hrest, rfl, rfl, rfl⟩ := h
      exact .skip hopen (ih hrest)

theorem Reprices.price {sells sells' : List DayTradeSell} {remaining remaining' : ℕ} {change : ℤ}
    (h : Reprices date economics model sells remaining sells' remaining' change) :
    sells'.map DayTradeSell.price = sells.map DayTradeSell.price := by
  induction h with
  | nil | done => rfl
  | skip _ _ ih => rw [List.map_cons, List.map_cons, ih]
  | take _ _ _ _ ih =>
    rw [List.map_cons, List.map_cons, ih]
    rfl

/-- A sell of the date that is not fully matched. -/
def DayTradeSell.isOpen (date : TradingDate) (sell : DayTradeSell) : Bool :=
  decide (sell.date = date ∧ sell.matched < sell.quantity)

def DayTradeSell.unmatched (sell : DayTradeSell) : ℕ := sell.quantity - sell.matched

/-- Sells of one date in the order they were sold, each with the tax that its matched part leaves.
The queue drops those that are matched on arrival and never looks at the others again once they are.
-/
structure Sold (date : TradingDate) (economics : InstrumentEconomics) (model : DayTradeTaxModel)
    (sold : List DayTradeSell) : Prop where
  date : ∀ sell ∈ sold, sell.date = date
  assessed : ∀ sell ∈ sold, splitSellTax sell.price sell.quantity sell.matched economics model =
      .ok sell.assessedTax

def taxSum (sold : List DayTradeSell) : ℤ := (sold.map fun sell => sell.assessedTax.atoms.val).sum

/-- What a buy makes of the sells: the open ones are served in order, and the tax changes by what
they change. -/
structure Serves (date : TradingDate) (economics : InstrumentEconomics) (model : DayTradeTaxModel)
    (sold : List DayTradeSell) (supply : ℕ) (sold' : List DayTradeSell) (remaining : ℕ)
    (change : ℤ) : Prop where
  still : Sold date economics model sold'
  price : sold'.map DayTradeSell.price = sold.map DayTradeSell.price
  quantity : sold'.map DayTradeSell.quantity = sold.map DayTradeSell.quantity
  matched : sold'.map DayTradeSell.matched =
    List.zipWith (· + ·) (sold.map DayTradeSell.matched)
      (allot supply (sold.map DayTradeSell.unmatched))
  remaining : remaining = supply - (sold.map DayTradeSell.unmatched).sum
  change : taxSum sold' = taxSum sold + change

variable {sells sells' sold : List DayTradeSell} {remaining remaining' : ℕ} {change : ℤ}

theorem Serves.same (h : Sold date economics model sold)
    (hnothing : remaining = 0 ∨ ∀ sell ∈ sold, sell.unmatched = 0) :
    Serves date economics model sold remaining sold remaining 0 := by
  have hzero : remaining = 0 ∨ ∀ demand ∈ sold.map DayTradeSell.unmatched, demand = 0 :=
    hnothing.imp_right fun h => by simpa using h
  refine ⟨h, rfl, rfl, (zipWith_add_of_zero (by simp) (eq_zero_of_mem_allot hzero)).symm, ?_,
    (add_zero _).symm⟩
  rcases hzero with rfl | hzero
  · exact (Nat.zero_sub _).symm
  · rw [List.sum_eq_zero hzero, Nat.sub_zero]

theorem unmatched_of_not_open (hdate : ∀ sell ∈ sold, sell.date = date)
    (h : ∀ sell ∈ sold, ¬ sell.isOpen date = true) : ∀ sell ∈ sold, sell.unmatched = 0 := by
  intro sell hsell
  have hnot := h sell hsell
  rw [DayTradeSell.isOpen, decide_eq_true_eq, not_and, not_lt] at hnot
  exact Nat.sub_eq_zero_of_le (hnot (hdate sell hsell))

/-- The next open sell is served first, and the rest from what it leaves. -/
theorem Serves.take {pre post post' : List DayTradeSell} {sell : DayTradeSell} {assessed : Decimal}
    (hsold : Sold date economics model (pre ++ sell :: post)) (hpre : ∀ s ∈ pre, s.unmatched = 0)
    (hassessed : splitSellTax sell.price sell.quantity
      (sell.matched + min remaining (sell.quantity - sell.matched))
      economics model = .ok assessed)
    (h : Serves date economics model post
      (remaining - min remaining (sell.quantity - sell.matched)) post' remaining'
      change) :
    Serves date economics model (pre ++ sell :: post) remaining
      (pre ++ sell.repriced (min remaining (sell.quantity - sell.matched)) assessed ::
        post') remaining'
      (assessed.atoms.val - sell.assessedTax.atoms.val + change) := by
  have hzero : ∀ u ∈ pre.map DayTradeSell.unmatched, u = 0 := by simpa using hpre
  have hsum : (pre.map DayTradeSell.unmatched).sum = 0 := List.sum_eq_zero hzero
  have hleft : remaining - min remaining (sell.quantity - sell.matched) =
      remaining - sell.unmatched := by
    rw [DayTradeSell.unmatched]
    omega
  constructor
  · constructor
    · intro s hs
      rcases List.mem_append.1 hs with hs | hs
      · exact hsold.date s (List.mem_append_left _ hs)
      · rcases List.mem_cons.1 hs with rfl | hs
        · exact hsold.date sell (by simp)
        · exact h.still.date s hs
    · intro s hs
      rcases List.mem_append.1 hs with hs | hs
      · exact hsold.assessed s (List.mem_append_left _ hs)
      · rcases List.mem_cons.1 hs with rfl | hs
        · exact hassessed
        · exact h.still.assessed s hs
  · simp only [List.map_append, List.map_cons, h.price]
    rfl
  · simp only [List.map_append, List.map_cons, h.quantity]
    rfl
  · simp only [List.map_append, List.map_cons, h.matched, allot_append, hsum, Nat.sub_zero,
      allot_cons, hleft]
    rw [List.zipWith_append (by simp),
      zipWith_add_of_zero (by simp) (eq_zero_of_mem_allot (.inr hzero)), List.zipWith_cons_cons]
    rfl
  · rw [h.remaining, hleft, List.map_append, List.sum_append, hsum, List.map_cons, List.sum_cons]
    omega
  · have hchange := h.change
    simp only [taxSum, List.map_append, List.sum_append, List.map_cons, List.sum_cons,
      DayTradeSell.repriced] at hchange ⊢
    rw [hchange]
    ring

/-- Repricing the queue serves the sells: those the queue still looks at are the open ones among
them. -/
theorem Reprices.serves (h : Reprices date economics model sells remaining sells' remaining' change)
    (hsold : Sold date economics model sold)
    (hopen : sells.filter (·.isOpen date) = sold.filter (·.isOpen date)) :
    ∃ sold', Serves date economics model sold remaining sold' remaining' change ∧
      sells'.filter (·.isOpen date) = sold'.filter (·.isOpen date) := by
  induction h generalizing sold with
  | nil remaining =>
    have hnone : ∀ sell ∈ sold, ¬ sell.isOpen date = true := List.filter_eq_nil_iff.1 hopen.symm
    exact ⟨sold, .same hsold (.inr (unmatched_of_not_open hsold.date hnone)), hopen⟩
  | done sell rest => exact ⟨sold, .same hsold (.inl rfl), hopen⟩
  | @skip sell rest remaining rest' remaining' change hclosed _ ih =>
    have hnot : sell.isOpen date = false := decide_eq_false hclosed
    rw [List.filter_cons_of_neg (by simp [hnot])] at hopen ⊢
    exact ih hsold hopen
  | @take sell rest remaining rest' remaining' change assessed hsellOpen hpos hassessed _ ih =>
    have hyes : sell.isOpen date = true := decide_eq_true hsellOpen
    rw [List.filter_cons_of_pos hyes] at hopen
    obtain ⟨pre, post, rfl, hpre, -, hpost⟩ := List.filter_eq_cons_iff.1 hopen.symm
    have hpreZero : ∀ s ∈ pre, s.unmatched = 0 :=
      unmatched_of_not_open (fun s hs => hsold.date s (List.mem_append_left _ hs)) hpre
    obtain ⟨post', hserves, hrest⟩ := ih
      ⟨fun s hs => hsold.date s (by simp [hs]), fun s hs =>
        hsold.assessed s (by simp [hs])⟩ hpost.symm
    refine ⟨pre ++ sell.repriced (min remaining (sell.quantity - sell.matched)) assessed ::
      post', ?_, ?_⟩
    · exact .take hsold hpreZero hassessed hserves
    · rw [List.filter_append, List.filter_eq_nil_iff.2 hpre, List.nil_append, List.filter_cons,
        List.filter_cons, hrest]

end Sells

section Buys
variable {date : TradingDate}

/-- What the buys of the date have left to match. -/
def openBuys (date : TradingDate) (buys : List DayTradeBuy) : ℕ :=
  ((buys.filter fun buy => buy.date = date).map DayTradeBuy.remaining).sum

theorem openBuys_cons (buy : DayTradeBuy) (buys : List DayTradeBuy) :
    openBuys date (buy :: buys) = (if buy.date = date then buy.remaining else 0) +
      openBuys date buys := by
  unfold openBuys
  by_cases h : buy.date = date
  · rw [List.filter_cons_of_pos (by simpa using h), List.map_cons, List.sum_cons, if_pos h]
  · rw [List.filter_cons_of_neg (by simpa using h), if_neg h, Nat.zero_add]

theorem openBuys_append (buys more : List DayTradeBuy) :
    openBuys date (buys ++ more) = openBuys date buys + openBuys date more := by
  unfold openBuys
  rw [List.filter_append, List.map_append, List.sum_append]

/-- A sell uses up the open buys as far as both go. -/
theorem matchBuys_spec (date : TradingDate) (buys : List DayTradeBuy) (quantity : ℕ) :
    (matchBuys date buys quantity).2 = quantity - openBuys date buys ∧
      openBuys date (matchBuys date buys quantity).1 = openBuys date buys - quantity := by
  induction buys generalizing quantity with
  | nil => exact ⟨rfl, (Nat.zero_sub _).symm⟩
  | cons buy rest ih =>
    rw [openBuys_cons]
    unfold matchBuys
    by_cases hopen : buy.date = date ∧ 0 < buy.remaining
    · rw [if_pos hopen]
      by_cases hzero : quantity = 0
      · rw [if_pos hzero, openBuys_cons, hzero]
        exact ⟨(Nat.zero_sub _).symm, rfl⟩
      · obtain ⟨hleft, hopenLeft⟩ := ih (quantity - min quantity buy.remaining)
        rw [if_neg hzero, openBuys_cons, if_pos hopen.1]
        simp only [hleft, hopenLeft, if_pos hopen.1]
        omega
    · obtain ⟨hleft, hopenLeft⟩ := ih quantity
      have hnone : (if buy.date = date then buy.remaining else 0) = 0 := by
        by_cases hdate : buy.date = date
        · rw [if_pos hdate]
          have : ¬ 0 < buy.remaining := fun hpos => hopen ⟨hdate, hpos⟩
          omega
        · rw [if_neg hdate]
      rw [if_neg hopen]
      simp only [openBuys_cons, hnone, hleft, hopenLeft, Nat.zero_add]
      exact ⟨trivial, trivial⟩

end Buys

section Step

/-- The dates on which the model relieves. -/
def DayTradeTaxModel.Covers (model : DayTradeTaxModel) (date : TradingDate) : Prop :=
  ¬ (model.isEligible date = false ∨ model.validThrough.epochDays < date.epochDays)

/-- What a sell leaves of the quantity after the open buys. -/
def unmatchedBy (date : TradingDate) (buys : List DayTradeBuy) (quantity : ℕ) : ℕ :=
  (matchBuys date buys quantity).2

/-- Everything the tax on a fill can be: an ordinary charge, the change that a buy brings to the
sells before it, or the tax on a sell split at what the buys before it match. -/
inductive Taxes (l : Ledger) (fill : FillRecord) (notional : Decimal) :
    Decimal → List DayTradeBuy → List DayTradeSell → Prop
  | plain {tax} (hmodel : l.dayTradeTax = none)
      (htax : charge notional fill.quantity.value.val fill.side l.tax = .ok tax) :
      Taxes l fill notional tax l.dayTradeBuys l.dayTradeSells
  | ordinary {tax model date} (hmodel : l.dayTradeTax = some model)
      (hdate : tradingDate fill.matchTime model.timezoneOffsetMinutes = .ok date)
      (hcovers : ¬ model.Covers date)
      (htax : charge notional fill.quantity.value.val fill.side model.ordinary = .ok tax) :
      Taxes l fill notional tax l.dayTradeBuys l.dayTradeSells
  | buy {tax model date sells remaining} (hmodel : l.dayTradeTax = some model)
      (hdate : tradingDate fill.matchTime model.timezoneOffsetMinutes = .ok date)
      (hcovers : model.Covers date)
      (hside : fill.side = .buy)
      (hsells : Reprices date l.economics model l.dayTradeSells fill.quantity.value.val sells
        remaining tax.atoms.val) :
      Taxes l fill notional tax
        (if 0 < remaining then l.dayTradeBuys ++ [⟨date, remaining⟩] else l.dayTradeBuys) sells
  | sell {tax model date remaining} (hmodel : l.dayTradeTax = some model)
      (hdate : tradingDate fill.matchTime model.timezoneOffsetMinutes = .ok date)
      (hcovers : model.Covers date)
      (hside : fill.side = .sell)
      (hremaining : remaining = unmatchedBy date l.dayTradeBuys fill.quantity.value.val)
      (htax : splitSellTax fill.price.value fill.quantity.value.val
        (fill.quantity.value.val - remaining) l.economics
        model = .ok tax) :
      Taxes l fill notional tax (matchBuys date l.dayTradeBuys fill.quantity.value.val).1
        (if 0 < remaining then l.dayTradeSells ++ [⟨date, fill.price.value, fill.quantity.value.val,
          fill.quantity.value.val - remaining, tax⟩] else l.dayTradeSells)

variable {l : Ledger} {fill : FillRecord} {notional tax : Decimal} {buys : List DayTradeBuy}
  {sells : List DayTradeSell}

theorem taxForFill_ok (h : l.taxForFill fill notional = .ok (tax, buys, sells)) :
    Taxes l fill notional tax buys sells := by
  unfold Ledger.taxForFill at h
  cases hmodel : l.dayTradeTax with
  | none =>
    simp only [hmodel, bind_eq_ok, pure_eq_ok, Prod.mk.injEq] at h
    obtain ⟨_, htax, rfl, rfl, rfl⟩ := h
    exact .plain hmodel htax
  | some model =>
    simp only [hmodel, bind_eq_ok] at h
    obtain ⟨date, hdate, h⟩ := h
    by_cases hcovers : model.isEligible date = false ∨ model.validThrough.epochDays < date.epochDays
    · simp only [hcovers, if_true, bind_eq_ok, pure_eq_ok, Prod.mk.injEq] at h
      obtain ⟨_, htax, rfl, rfl, rfl⟩ := h
      exact .ordinary hmodel hdate (not_not.2 hcovers) htax
    · rw [if_neg hcovers] at h
      cases hside : fill.side with
      | buy =>
        simp only [hside, bind_eq_ok, pure_eq_ok, Prod.mk.injEq] at h
        obtain ⟨⟨sells', remaining, adjustment⟩, hmatch, rfl, rfl, rfl⟩ := h
        have hreprices := matchSells_ok hmatch
        rw [show Decimal.zero.atoms.val = 0 from rfl, sub_zero] at hreprices
        exact .buy hmodel hdate hcovers hside hreprices
      | sell =>
        simp only [hside, bind_eq_ok, pure_eq_ok, Prod.mk.injEq] at h
        obtain ⟨_, htax, rfl, rfl, rfl⟩ := h
        exact .sell hmodel hdate hcovers hside rfl htax

/-- The sells in the queue after a fill were in it before, or are the fill. -/
theorem Taxes.forall_price (h : Taxes l fill notional tax buys sells) {P : Decimal → Prop}
    (hfill : P fill.price.value)
    (hsells : ∀ price ∈ l.dayTradeSells.map DayTradeSell.price, P price) :
    ∀ price ∈ sells.map DayTradeSell.price, P price := by
  cases h with
  | plain | ordinary => exact hsells
  | buy _ _ _ _ hreprices => rwa [hreprices.price]
  | sell =>
    intro price hprice
    split_ifs at hprice with hremaining
    · rw [List.map_append, List.mem_append] at hprice
      rcases hprice with hprice | hprice
      · exact hsells price hprice
      · obtain rfl : price = fill.price.value := by simpa using hprice
        exact hfill
    · exact hsells price hprice

end Step

end Osmium
