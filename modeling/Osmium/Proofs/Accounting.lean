import Osmium.Lib.OrderedMap
import Osmium.Sanity.Accounting

/-! The books balance. One ledger keeps cash, basis and results in step over any run of fills; an
account of ledgers adds up over any interleaving of fills and charges, can be rebuilt from its
records, and values its open positions the same way on both of its valuation paths. -/

namespace Osmium
open Machine Bytes Result Stateful

section Product

/-- The product over `10 ^ 18` is returned whenever it is a whole number of atoms that fits, and
nothing else is. -/
theorem decimal_product_exact (left right : I128) :
    (∀ q, multiplyDecimalAtoms left right = .ok q ↔
      (Decimal.scaleFactor : ℤ) ∣ left.val * right.val ∧
      q.val = left.val * right.val / Decimal.scaleFactor) ∧
    ((∃ q, multiplyDecimalAtoms left right = .ok q) ↔
      (Decimal.scaleFactor : ℤ) ∣ left.val * right.val ∧
      -2 ^ 127 ≤ left.val * right.val / Decimal.scaleFactor ∧
      left.val * right.val / Decimal.scaleFactor < 2 ^ 127) := by
  have hscale : (Decimal.scaleFactor : ℤ) ≠ 0 := by norm_num [Decimal.scaleFactor]
  have hvalue : ∀ q, multiplyDecimalAtoms left right = .ok q ↔
      (Decimal.scaleFactor : ℤ) ∣ left.val * right.val ∧
      q.val = left.val * right.val / Decimal.scaleFactor := by
    intro q
    refine ⟨fun h => ?_, fun h => ?_⟩
    · have hexact := multiplyDecimalAtoms_exact h
      exact ⟨Dvd.intro_left _ hexact, (Int.ediv_eq_of_eq_mul_left hscale hexact.symm).symm⟩
    · obtain ⟨hdvd, hq⟩ := h
      have hone := cancelled_denominator hdvd
      have hproduct : q.val = (cancelled left right).1.val * (cancelled left right).2.1.val := by
        apply mul_right_cancel₀ hscale
        rw [(cancelled_spec left right).exact, hone, mul_one, hq, Int.ediv_mul_cancel hdvd]
      have hrem : (q.rem (cancelled left right).2.2).val = 0 := by
        rw [Signed.val_rem _ _ (by decide), hone, Int.tmod_one]
      have hquot : q.quot (cancelled left right).2.2 = q := Signed.ext (by
        rw [Signed.val_quot _ _ (by decide) (by omega), hone, Int.tdiv_one])
      simp only [multiplyDecimalAtoms_eq, bind_eq_ok, pure_eq_ok, checked_eq_ok, ensure_eq_ok]
      exact ⟨q, (Signed.checkedMul_eq_some _ _ _).2 hproduct, (), hrem, hquot⟩
  refine ⟨hvalue, fun h => ?_, fun h => ?_⟩
  · obtain ⟨q, hq⟩ := h
    obtain ⟨hdvd, hq⟩ := (hvalue q).1 hq
    have hlower := q.lower
    have hupper := q.upper
    rw [hq] at hlower hupper
    exact ⟨hdvd, by simpa using hlower, by simpa using hupper⟩
  · obtain ⟨hdvd, hlower, hupper⟩ := h
    exact ⟨⟨_, by simpa using hlower, by simpa using hupper⟩, (hvalue _).2 ⟨hdvd, rfl⟩⟩

end Product

section OneLedger

/-- A ledger as its public constructors make it: `new_with_model`, with or without a day-trade tax.
-/
theorem withDayTradeTax_eq (initialCash : Decimal) (economics : InstrumentEconomics)
    (fee tax : ChargeModel) (model : AccountingModel) (dayTrade : DayTradeTaxModel) :
    (Ledger.newWithModel initialCash economics fee tax model).withDayTradeTax dayTrade =
      (Ledger.newWithModel initialCash economics fee dayTrade.ordinary
        model).withOptionalDayTradeTax (some dayTrade) :=
  rfl

/-- Cash, open basis and results agree after any run of fills on a new ledger. -/
theorem ledger_accounting_identity (initialCash : Decimal) (economics : InstrumentEconomics)
    (fee tax : ChargeModel)
    (model : AccountingModel) (dayTrade : Option DayTradeTaxModel) (fills : List FillRecord)
    (l : Ledger) (run : applyFills fills
      ((Ledger.newWithModel initialCash economics fee tax model).withOptionalDayTradeTax dayTrade) =
        .ok () l) :
    (model = .equityV1 ∨ model = .optionsV1 → l.cash.exact +
        l.position.val.sign * (Decimal.mk l.costBasisAtoms).exact * economics.scale =
        initialCash.exact + l.realizedPnl.exact - l.totalFee.exact - l.totalTax.exact) ∧
    (model = .futuresV1 → l.cash.exact =
      initialCash.exact + l.realizedPnl.exact - l.totalFee.exact - l.totalTax.exact) ∧
    l.position.val = (fills.map FillRecord.signed).sum ∧
    (l.position.val = 0 → l.costBasisAtoms.val = 0) := by
  set l₀ :=
    (Ledger.newWithModel initialCash economics fee tax model).withOptionalDayTradeTax dayTrade
  have hrun := applyFills_ok (rebuilt_balanced l₀) run
  have hcash := hrun.balanced.cash
  have hmodel : l.accountingModel = model := hrun.terms.accountingModel
  have heconomics : l.economics = economics := hrun.terms.economics
  have hinitial : l.initialCash = initialCash := hrun.terms.initialCash
  rw [hmodel, hinitial] at hcash
  refine ⟨fun h => ?_, fun h => ?_, ?_, hrun.balanced.flat⟩
  · rcases h with rfl | rfl <;> simpa [Ledger.openBasis, heconomics] using hcash
  · subst h
    simpa using hcash
  · rw [hrun.position]
    exact zero_add _

/-- A charge of one tenth of a percent on both sides, rounded half up to whole units. -/
def exampleCharge : ChargeModel :=
  ⟨.notionalRate, ⟨Signed.wrap 128 (10 ^ 15)⟩, .both, Decimal.zero, 0, .halfUp⟩

def exampleEconomics : InstrumentEconomics :=
  ⟨Unsigned.wrap 64 1000, ⟨scaleFactorAtoms⟩, ⟨[120], by decide⟩⟩

def exampleFill (side : OrderSide) (price : ℤ) (quantity : ℕ)
    (h : 0 < (Unsigned.wrap 64 quantity).val) : FillRecord :=
  .fromControl ⟨⟨List.replicate 32 0, rfl⟩⟩ 0 ⟨0⟩ side
    ⟨⟨Signed.wrap 128 (price * Decimal.scaleFactor)⟩⟩
    ⟨Unsigned.wrap 64 quantity, .tradingUnit, h⟩

/-- Three bought and five sold: a reduction of the whole position and a flip. -/
theorem ledger_identity_on_flip : ∃ l, applyFills
      [exampleFill .buy 100 3 (by decide), exampleFill .sell 120 5 (by decide)]
      ((Ledger.newWithModel Decimal.zero exampleEconomics exampleCharge exampleCharge
        .equityV1).withOptionalDayTradeTax
        none) = .ok () l ∧
    l.cash.exact + l.position.val.sign * (Decimal.mk l.costBasisAtoms).exact *
      exampleEconomics.scale =
      Decimal.zero.exact + l.realizedPnl.exact - l.totalFee.exact - l.totalTax.exact ∧
      l.position.val = -2 := by
  obtain ⟨⟨_, l⟩, hrun⟩ := exists_of_isOk (x := runOn (applyFills
    [exampleFill .buy 100 3 (by decide), exampleFill .sell 120 5 (by decide)])
    ((Ledger.newWithModel Decimal.zero exampleEconomics exampleCharge exampleCharge
      .equityV1).withOptionalDayTradeTax
      none)) (by decide +kernel)
  rw [runOn_eq_ok] at hrun
  have h := ledger_accounting_identity _ _ _ _ _ _ _ l hrun
  exact ⟨l, hrun, h.1 (.inl rfl), h.2.2.1.trans (by decide +kernel)⟩

end OneLedger

section Account

inductive AccountCall
  | applyFill (instrument : InstrumentId) (fill : FillRecord)
  | applyCashCharges (charges : List CashChargeRecord)

def AccountCall.apply : AccountCall → EStateM AccountingError MultiLedger Unit
  | .applyFill instrument fill => MultiLedger.applyFill instrument fill
  | .applyCashCharges charges => MultiLedger.applyCashCharges charges

/-- The accounts that some sequence of calls, failing ones included, leads to. -/
inductive MultiLedger.Reachable (initialCash : Decimal) (configs : List InstrumentLedgerConfig) :
    MultiLedger → Prop
  | new {a} (h : MultiLedger.new initialCash configs = .ok a) : Reachable initialCash configs a
  | call {a} (h : Reachable initialCash configs a) (c : AccountCall) :
    Reachable initialCash configs (stateAfter (c.apply a))

theorem accountCall_atomic (c : AccountCall) : Atomic c.apply := by
  cases c with
  | applyFill instrument fill =>
    apply Atomic.bind ReadOnly.get; intro self
    iterate 6 (apply Atomic.bind (ReadOnly.lift _); intro _)
    exact Atomic.set _
  | applyCashCharges charges =>
    apply Atomic.bind ReadOnly.get; intro self
    apply Atomic.bind (ReadOnly.lift _); intro _
    exact Atomic.set _

/-- The instrument's ledger is what its own recorded fills lead to. -/
structure InstrumentLedger.Sound (e : InstrumentLedger) : Prop where
  model : e.ledger.accountingModel = e.model
  initial : e.ledger.initialCash = Decimal.zero
  replay : applyFills e.ledger.fills e.ledger.rebuilt = .ok () e.ledger

structure MultiLedger.Sound (initialCash : Decimal) (a : MultiLedger) : Prop where
  initial : a.initialCash = initialCash
  cash : a.cash.atoms.val = initialCash.atoms.val +
    (a.ledgers.toList.map fun p => p.2.ledger.cash.atoms.val).sum -
    (a.cashCharges.map fun c => c.amount.atoms.val).sum
  distinct : (a.cashCharges.map CashChargeRecord.identity).Nodup
  identities : ∀ i, i ∈ a.cashChargeIdentities ↔ i ∈ a.cashCharges.map CashChargeRecord.identity
  entries : ∀ (i : InstrumentId) (e : InstrumentLedger), a.ledgers[i]? = some e → e.Sound

theorem entry_sound (config : InstrumentLedgerConfig) : config.entry.Sound := ⟨rfl, rfl, rfl⟩

theorem addConfigs_ok {configs : List InstrumentLedgerConfig}
    {m m' : Std.ExtTreeMap InstrumentId InstrumentLedger}
    (hm : ∀ (i : InstrumentId) (e : InstrumentLedger), m[i]? = some e → e.Sound ∧
      e.ledger.cash = Decimal.zero)
    (h : addConfigs configs m = .ok m') :
    ∀ (i : InstrumentId) (e : InstrumentLedger), m'[i]? = some e → e.Sound ∧
    e.ledger.cash = Decimal.zero := by
  induction configs generalizing m with
  | nil =>
    cases h
    exact hm
  | cons config rest ih =>
    simp only [addConfigs, bind_eq_ok, ensure_eq_ok] at h
    obtain ⟨-, -, -, -, -, -, -, -, h⟩ := h
    apply ih _ h
    intro i e hi
    rw [Std.ExtTreeMap.getElem?_insert] at hi
    split_ifs at hi with hcmp
    · cases hi
      exact ⟨entry_sound config, rfl⟩
    · exact hm i e hi

theorem new_sound {initialCash : Decimal} {configs : List InstrumentLedgerConfig} {a : MultiLedger}
    (h : MultiLedger.new initialCash configs = .ok a) : a.Sound initialCash := by
  simp only [MultiLedger.new, bind_eq_ok, ensure_eq_ok, pure_eq_ok] at h
  obtain ⟨-, -, ledgers, hledgers, -, -, rfl⟩ := h
  have hentries := addConfigs_ok (by simp) hledgers
  have hzero : ∀ x ∈ ledgers.toList.map fun p => p.2.ledger.cash.atoms.val, x = 0 := by
    intro x hx
    obtain ⟨p, hp, rfl⟩ := List.mem_map.1 hx
    rw [(hentries p.1 p.2 (Std.ExtTreeMap.mem_toList_iff_getElem?_eq_some.1 hp)).2]
    rfl
  refine ⟨rfl, ?_, List.nodup_nil, by simp, fun i e hi => (hentries i e hi).1⟩
  simp [List.sum_eq_zero hzero]

theorem takeCharges_ok {charges : List CashChargeRecord}
    {ids ids' : Std.ExtTreeSet CashChargeIdentity}
    {cash cash' : Decimal} (h : takeCharges charges ids cash = .ok (ids', cash')) :
    cash'.atoms.val = cash.atoms.val - (charges.map fun c => c.amount.atoms.val).sum ∧
    (charges.map CashChargeRecord.identity).Nodup ∧
    (∀ i ∈ charges.map CashChargeRecord.identity, i ∉ ids) ∧
    ∀ i, i ∈ ids' ↔ i ∈ ids ∨ i ∈ charges.map CashChargeRecord.identity := by
  induction charges generalizing ids cash with
  | nil =>
    cases h
    simp
  | cons charge rest ih =>
    simp only [takeCharges, bind_eq_ok, ensure_eq_ok] at h
    obtain ⟨-, -, -, hfresh, next, hnext, h⟩ := h
    obtain ⟨hcash, hnodup, hnew, hids⟩ := ih h
    simp only [Std.ExtTreeSet.mem_insert, Std.LawfulEqCmp.compare_eq_iff_eq, not_or] at hnew hids
    simp only [List.map_cons, List.sum_cons, List.nodup_cons, List.mem_cons, forall_eq_or_imp]
    refine ⟨?_, ⟨fun hmem => (hnew _ hmem).1 rfl, hnodup⟩, ⟨hfresh, fun i hi => (hnew i hi).2⟩,
      fun i => ?_⟩
    · rw [hcash, checkedSub_atoms hnext]
      ring
    · rw [hids i, eq_comm]
      tauto

theorem applyCashCharges_sound {initialCash : Decimal} {charges : List CashChargeRecord}
    {a a' : MultiLedger}
    (ha : a.Sound initialCash) (h : MultiLedger.applyCashCharges charges a = .ok () a') :
    a'.Sound initialCash := by
  obtain ⟨self, _, h₁, h⟩ := (bind_ok _ _ _ _ _).1 h
  obtain ⟨rfl, rfl⟩ := (get_ok _ _ _).1 h₁
  simp only [bind_ok, lift_ok, set_ok] at h
  obtain ⟨⟨ids, cash⟩, _, ⟨htaken, rfl⟩, rfl⟩ := h
  obtain ⟨hcash, hnodup, hnew, hids⟩ := takeCharges_ok htaken
  refine ⟨ha.initial, ?_, ?_, fun i => ?_, ha.entries⟩
  · simp only [List.map_append, List.sum_append]
    rw [hcash, ha.cash]
    ring
  · rw [List.map_append, List.nodup_append']
    exact ⟨ha.distinct, hnodup, fun i hi hmem => hnew i hmem ((ha.identities i).2 hi)⟩
  · rw [List.map_append, List.mem_append, hids i, ha.identities i]

/-- A recorded fill extends the replay by one step. -/
theorem InstrumentLedger.Sound.applyFill {e : InstrumentLedger} {fill : FillRecord} {l : Ledger}
    (he : e.Sound) (h : Ledger.applyFill fill e.ledger = .ok () l) :
    InstrumentLedger.Sound { e with ledger := l } := by
  have hstep := applyFill_ok h
  refine ⟨hstep.terms.accountingModel.trans he.model, hstep.terms.initialCash.trans he.initial, ?_⟩
  rw [hstep.fills, hstep.terms.rebuilt_eq, applyFills_snoc]
  exact ⟨e.ledger, he.replay, h⟩

theorem applyFill_sound {initialCash : Decimal} {instrument : InstrumentId} {fill : FillRecord}
    {a a' : MultiLedger}
    (ha : a.Sound initialCash) (h : MultiLedger.applyFill instrument fill a = .ok () a') :
    a'.Sound initialCash := by
  obtain ⟨self, _, h₁, h⟩ := (bind_ok _ _ _ _ _).1 h
  obtain ⟨rfl, rfl⟩ := (get_ok _ _ _).1 h₁
  simp only [bind_ok, lift_ok, set_ok, okOr_eq_ok] at h
  obtain ⟨entry, _, ⟨hentry, rfl⟩, _, _, ⟨-, rfl⟩, _, _, ⟨-, rfl⟩, ⟨_, next⟩, _, ⟨hnext, rfl⟩,
      delta, _, ⟨hdelta, rfl⟩, cash, _, ⟨hcash, rfl⟩, rfl⟩ := h
  rw [runOn_eq_ok] at hnext
  refine ⟨ha.initial, ?_, ha.distinct, ha.identities, fun i e hi => ?_⟩
  · have hsum :=
      OrderedMap.sum_insert (fun p : InstrumentId × InstrumentLedger => p.2.ledger.cash.atoms.val)
      { entry with ledger := next } hentry
    simp only [] at hsum ⊢
    rw [checkedAdd_atoms hcash, checkedSub_atoms hdelta, ha.cash]
    linarith
  · simp only [Std.ExtTreeMap.getElem?_insert] at hi
    split_ifs at hi with hcmp
    · cases hi
      exact (ha.entries _ _ hentry).applyFill hnext
    · exact ha.entries i e hi

theorem Reachable.sound {initialCash : Decimal} {configs : List InstrumentLedgerConfig}
    {a : MultiLedger} (h : MultiLedger.Reachable initialCash configs a) : a.Sound initialCash := by
  induction h with
  | new h => exact new_sound h
  | @call a _ c ih =>
    cases hc : c.apply a with
    | error e a' =>
      have hkept := accountCall_atomic c a e a' hc
      rwa [stateAfter, hkept]
    | ok u a' =>
      cases c with
      | applyFill instrument fill => exact applyFill_sound ih hc
      | applyCashCharges charges => exact applyCashCharges_sound ih hc

end Account

section Reconciliation

theorem checkedAdd_cases (a b : Decimal) :
    checkedAdd a b = .error .overflow ∨ ∃ c, checkedAdd a b = .ok c ∧
    c.atoms.val = a.atoms.val + b.atoms.val := by
  cases h : checkedAdd a b with
  | ok c => exact .inr ⟨c, rfl, checkedAdd_atoms h⟩
  | error e =>
    left
    cases e' : a.checkedAdd b <;> simp_all [checkedAdd, Except.mapError]

theorem checkedSub_cases (a b : Decimal) :
    checkedSub a b = .error .overflow ∨ ∃ c, checkedSub a b = .ok c ∧
    c.atoms.val = a.atoms.val - b.atoms.val := by
  cases h : checkedSub a b with
  | ok c => exact .inr ⟨c, rfl, checkedSub_atoms h⟩
  | error e =>
    left
    cases e' : a.checkedSub b <;> simp_all [checkedSub, Except.mapError]

/-- Replaying the recorded fills gives the ledger back. -/
theorem InstrumentLedger.Sound.reconcile {e : InstrumentLedger} (he : e.Sound) :
    e.ledger.reconcile = .ok () := by
  simp only [Ledger.reconcile, bind_eq_ok, ensure_eq_ok]
  refine ⟨((), e.ledger), ?_, rfl, rfl, rfl, rfl, rfl, rfl, rfl, rfl, rfl, rfl⟩
  rw [runOn_eq_ok]
  exact he.replay

theorem reconcileLedgers_cases {entries : List (InstrumentId × InstrumentLedger)} (cash : Decimal)
    (h : ∀ p ∈ entries, p.2.Sound) :
    reconcileLedgers entries cash = .error .overflow ∨ ∃ c, reconcileLedgers entries cash = .ok c ∧
      c.atoms.val = cash.atoms.val + (entries.map fun p => p.2.ledger.cash.atoms.val).sum := by
  induction entries generalizing cash with
  | nil => exact .inr ⟨cash, rfl, by simp⟩
  | cons p rest ih =>
    obtain ⟨hp, hrest⟩ := List.forall_mem_cons.1 h
    have hunfold : reconcileLedgers (p :: rest) cash =
        checkedAdd cash p.2.ledger.cash >>= fun next => reconcileLedgers rest next := by
      simp only [reconcileLedgers, hp.reconcile, ensure, hp.model, if_true]
      rfl
    rw [hunfold]
    rcases checkedAdd_cases cash p.2.ledger.cash with hover | ⟨next, hnext, hval⟩
    · exact .inl (by rw [hover]; rfl)
    · rw [hnext]
      rcases ih next hrest with hover | ⟨c, hc, hsum⟩
      · exact .inl hover
      · exact .inr ⟨c, hc, by rw [hsum, hval, List.map_cons, List.sum_cons]; ring⟩

theorem reconcileCharges_cases {charges : List CashChargeRecord}
    (ids : Std.ExtTreeSet CashChargeIdentity) (cash : Decimal)
    (hnodup : (charges.map CashChargeRecord.identity).Nodup)
    (hnew : ∀ i ∈ charges.map CashChargeRecord.identity, i ∉ ids) :
    reconcileCharges charges ids cash = .error .overflow ∨
    ∃ ids' c, reconcileCharges charges ids cash = .ok (ids', c) ∧
      c.atoms.val = cash.atoms.val - (charges.map fun c => c.amount.atoms.val).sum ∧
      ∀ i, i ∈ ids' ↔ i ∈ ids ∨ i ∈ charges.map CashChargeRecord.identity := by
  induction charges generalizing ids cash with
  | nil => exact .inr ⟨ids, cash, rfl, by simp, by simp⟩
  | cons charge rest ih =>
    rw [List.map_cons, List.nodup_cons] at hnodup
    rw [List.map_cons, List.forall_mem_cons] at hnew
    have hunfold : reconcileCharges (charge :: rest) ids cash =
        checkedSub cash charge.amount >>= fun next =>
          reconcileCharges rest (ids.insert charge.identity) next := by
      simp only [reconcileCharges, ensure, hnew.1, not_false_eq_true, if_true]
      rfl
    have hfresh : ∀ i ∈ rest.map CashChargeRecord.identity, i ∉ ids.insert charge.identity := by
      intro i hi
      rw [Std.ExtTreeSet.mem_insert, Std.LawfulEqCmp.compare_eq_iff_eq]
      rintro (rfl | hmem)
      · exact hnodup.1 hi
      · exact hnew.2 i hi hmem
    rw [hunfold]
    rcases checkedSub_cases cash charge.amount with hover | ⟨next, hnext, hval⟩
    · exact .inl (by rw [hover]; rfl)
    · rw [hnext]
      rcases ih (ids.insert charge.identity) next hnodup.2 hfresh with
        hover | ⟨ids', c, hc, hsum, hids⟩
      · exact .inl hover
      · refine .inr
          ⟨ids', c, hc, by rw [hsum, hval, List.map_cons, List.sum_cons]; ring, fun i => ?_⟩
        rw [hids i, Std.ExtTreeSet.mem_insert, Std.LawfulEqCmp.compare_eq_iff_eq, List.map_cons,
          List.mem_cons, eq_comm]
        tauto

/-- Only an overflow of an intermediate sum can stop the reconciliation of a sound account. -/
theorem MultiLedger.Sound.reconcile {initialCash : Decimal} {a : MultiLedger}
    (ha : a.Sound initialCash) :
    a.reconcile = .ok () ∨ a.reconcile = .error .overflow := by
  have hentries : ∀ p ∈ a.ledgers.toList, p.2.Sound := fun p hp =>
    ha.entries p.1 p.2 (Std.ExtTreeMap.mem_toList_iff_getElem?_eq_some.1 hp)
  unfold MultiLedger.reconcile
  rcases reconcileLedgers_cases a.initialCash hentries with hover | ⟨cash, hcash, hsum⟩
  · exact .inr (by rw [hover]; rfl)
  · rcases reconcileCharges_cases ∅ cash ha.distinct (by simp) with
      hover | ⟨ids, rebuilt, hrebuilt, hval, hids⟩
    · exact .inr (by rw [hcash]; simp only [bind, Except.bind, hover])
    · left
      have hidentities : ids = a.cashChargeIdentities := by
        apply Std.ExtTreeSet.ext_mem
        intro i
        rw [hids i, ha.identities i]
        simp
      have hrebuiltCash : rebuilt = a.cash := by
        apply Decimal.ext
        apply Signed.ext
        rw [hval, hsum, ha.cash, ha.initial]
      simp [hcash, hrebuilt, hidentities, hrebuiltCash]

/-- Account cash is the sum of its parts, charges are recorded once, failed calls change nothing,
and no reconciliation finds a mismatch. -/
theorem account_reconciles (initialCash : Decimal) (configs : List InstrumentLedgerConfig)
    (a : MultiLedger) (reachable : MultiLedger.Reachable initialCash configs a) :
    a.cash.atoms.val = initialCash.atoms.val +
        (a.ledgers.toList.map fun p => p.2.ledger.cash.atoms.val).sum -
        (a.cashCharges.map fun c => c.amount.atoms.val).sum ∧
      (a.cashCharges.map CashChargeRecord.identity).Nodup ∧
      (∀ (c : AccountCall) (e : AccountingError) (a' : MultiLedger),
        c.apply a = .error e a' → a' = a) ∧
      a.reconcile ≠ .error .reconciliation ∧
      ∀ (i : InstrumentId) (e : InstrumentLedger), a.ledgers[i]? = some e →
        e.ledger.reconcile ≠ .error .reconciliation := by
  have ha := Reachable.sound reachable
  refine ⟨ha.cash, ha.distinct, fun c e a' h => accountCall_atomic c a e a' h, ?_, fun i e hi => ?_⟩
  · rcases ha.reconcile with h | h <;> rw [h] <;> simp
  · rw [(ha.entries i e hi).reconcile]
    simp

def exampleInstrument : InstrumentId := ⟨.twse, ⟨⟨[50, 51, 51, 48], Eq.refl true⟩, Eq.refl false⟩⟩

def exampleConfig : InstrumentLedgerConfig where
  instrument := exampleInstrument
  quantityUnit := .tradingUnit
  model := .equityV1
  pricePolicy := .positiveOnly
  economics := exampleEconomics
  fee := exampleCharge
  tax := exampleCharge
  dayTradeTax := none

def exampleCashCharge : CashChargeRecord :=
  ⟨⟨⟨List.replicate 32 7, rfl⟩⟩, ⟨0⟩, ⟨Signed.wrap 128 (5 * Decimal.scaleFactor)⟩,
    ⟨[99], by decide⟩, ⟨[100], by decide⟩, by decide⟩

def exampleCash : Decimal := ⟨Signed.wrap 128 (1000000 * Decimal.scaleFactor)⟩

/-- A fill, a charge, and the same charge once more, which is refused. -/
def exampleCalls : List AccountCall :=
  [.applyFill exampleInstrument (exampleFill .buy 100 3 (by decide)),
    .applyCashCharges [exampleCashCharge], .applyCashCharges [exampleCashCharge]]

def exampleAccount : Except AccountingError MultiLedger :=
  (exampleCalls.foldl fun a c => stateAfter (c.apply a)) <$>
    MultiLedger.new exampleCash [exampleConfig]

theorem exampleAccount_reachable {a : MultiLedger} (h : exampleAccount = .ok a) :
    MultiLedger.Reachable exampleCash [exampleConfig] a := by
  obtain ⟨a₀, h₀, rfl⟩ := (map_eq_ok _ _ _).1 h
  exact (((MultiLedger.Reachable.new h₀).call _).call _).call _

theorem account_reconciles_after_refused_charge :
    ∃ a, exampleAccount = .ok a ∧ a.cashCharges.length = 1 ∧
    (a.cashCharges.map CashChargeRecord.identity).Nodup ∧ a.reconcile ≠ .error .reconciliation := by
  obtain ⟨a, ha⟩ := exists_of_isOk (x := exampleAccount) (by decide +kernel)
  have hlength : exampleAccount.toOption.map (fun a => a.cashCharges.length) = some 1 := by
    decide +kernel
  have h := account_reconciles _ _ a (exampleAccount_reachable ha)
  rw [ha] at hlength
  exact ⟨a, ha, Option.some.inj hlength, h.2.1, h.2.2.2.1⟩

end Reconciliation

section Valuation

/-- The mark of an instrument, when there is one. -/
def markOf (marks : Std.ExtTreeMap InstrumentId (Option Decimal)) (instrument : InstrumentId) :
    Option Decimal :=
  (marks[instrument]?).join

/-- What marking one instrument adds to cash; an instrument without a mark adds nothing. -/
def MultiLedger.adjustment (a : MultiLedger) (marks : Std.ExtTreeMap InstrumentId (Option Decimal))
    (instrument : InstrumentId) : Except AccountingError Decimal :=
  match markOf marks instrument with
  | none => .ok Decimal.zero
  | some mark => a.markToMarketAdjustment instrument mark

/-- The value of a position at a mark, at the contract's scale. -/
def Ledger.markedValue (l : Ledger) (mark : Decimal) : ℚ :=
  l.position.val * mark.exact * l.economics.scale

theorem InstrumentLedger.Sound.balanced {e : InstrumentLedger} (he : e.Sound) : e.ledger.Balanced :=
  (applyFills_ok (rebuilt_balanced e.ledger) he.replay).balanced

theorem openBasis_flat {l : Ledger} (h : l.position.val = 0) : l.openBasis = 0 := by
  simp [Ledger.openBasis, h]

/-- The unrealized result is the marked value less the open basis. -/
theorem unrealizedPnl_exact {l : Ledger} {mark u : Decimal} (hl : l.Balanced)
    (h : l.unrealizedPnl (some mark) = .ok (some u)) :
    u.exact = l.markedValue mark - l.openBasis := by
  unfold Ledger.unrealizedPnl at h
  by_cases hzero : l.position.val = 0
  · rw [if_pos hzero] at h
    cases h
    rw [exact_zero, openBasis_flat hzero]
    simp [Ledger.markedValue, hzero]
  · simp only [hzero, if_false, bind_eq_ok, pure_eq_ok, checked_eq_ok, Signed.checkedMul_eq_some,
      Option.some.injEq] at h
    obtain ⟨marked, hmarked, difference, hdifference, u', hscaled, rfl⟩ := h
    rw [abs_val_of_lt hl.bound] at hmarked
    have hsigned : (difference.val : ℚ) =
        l.position.val * mark.atoms.val - l.position.val.sign * l.costBasisAtoms.val := by
      rcases lt_or_gt_of_ne hzero with hneg | hpos
      · rw [if_neg (by omega), Signed.checkedSub_eq_some] at hdifference
        rw [hdifference, hmarked, Int.sign_eq_neg_one_of_neg hneg, abs_of_neg hneg]
        push_cast
        ring
      · rw [if_pos hpos, Signed.checkedSub_eq_some] at hdifference
        rw [hdifference, hmarked, Int.sign_eq_one_of_pos hpos, abs_of_pos hpos]
        push_cast
        ring
    rw [scaleByQuantity_exact hscaled]
    simp only [Ledger.markedValue, Ledger.openBasis, Decimal.exact, hsigned, Nat.cast_one]
    ring

theorem unrealizedPnl_marked {l : Ledger} {mark : Decimal} {u : Option Decimal}
    (h : l.unrealizedPnl (some mark) = .ok u) : ∃ u', u = some u' := by
  unfold Ledger.unrealizedPnl at h
  by_cases hzero : l.position.val = 0
  · rw [if_pos hzero, Except.ok.injEq] at h
    exact ⟨_, h.symm⟩
  · simp only [hzero, if_false, bind_eq_ok, pure_eq_ok] at h
    obtain ⟨_, -, _, -, u', -, rfl⟩ := h
    exact ⟨u', rfl⟩

theorem unrealizedPnl_unmarked {l : Ledger} {u : Option Decimal} (h : l.unrealizedPnl none = .ok u)
    (haccepted : l.position.val = 0 ∨ u.isSome = true) :
    l.position.val = 0 ∧ u = some Decimal.zero := by
  unfold Ledger.unrealizedPnl at h
  by_cases hzero : l.position.val = 0
  · rw [if_pos hzero, Except.ok.injEq] at h
    exact ⟨hzero, h.symm⟩
  · rw [if_neg hzero, Except.ok.injEq] at h
    rw [← h] at haccepted
    rcases haccepted with hflat | hsome
    · exact absurd hflat hzero
    · exact absurd hsome (by decide)

/-- Marking adds the whole marked value, or under daily settlement only the unrealized part of it.
-/
theorem markToMarketAdjustment_exact {a : MultiLedger} {instrument : InstrumentId}
    {e : InstrumentLedger}
    {mark adjustment u : Decimal} (he : e.Sound) (hentry : a.ledgers[instrument]? = some e)
    (hu : e.ledger.unrealizedPnl (some mark) = .ok (some u))
    (h : a.markToMarketAdjustment instrument mark = .ok adjustment) :
    adjustment.exact = u.exact + if e.ledger.accountingModel = .futuresV1 then 0 else
      e.ledger.openBasis := by
  have hexact := unrealizedPnl_exact he.balanced hu
  unfold MultiLedger.markToMarketAdjustment at h
  simp only [hentry, bind_eq_ok, okOr_eq_ok, Option.some.injEq, ensure_eq_ok] at h
  obtain ⟨_, rfl, -, -, h⟩ := h
  rw [he.model]
  by_cases hzero : e.ledger.position.val = 0
  · simp only [hzero, if_true, pure_eq_ok] at h
    rw [hexact, openBasis_flat hzero, ← h, exact_zero]
    simp [Ledger.markedValue, hzero]
  · by_cases hfutures : e.model = .futuresV1
    · simp only [hzero, hfutures, if_false, if_true, bind_eq_ok, okOr_eq_ok] at h
      obtain ⟨summary, hsummary, hsome⟩ := h
      simp only [Ledger.performance, hu, bind_eq_ok, pure_eq_ok, Except.ok.injEq] at hsummary
      obtain ⟨_, rfl, rfl⟩ := hsummary
      cases hsome
      rw [if_pos hfutures, add_zero]
    · simp only [hzero, hfutures, if_false, bind_eq_ok, checked_eq_ok, Signed.checkedMul_eq_some]
        at h
      obtain ⟨marked, hmarked, value, hvalue, h⟩ := h
      rw [abs_val_of_lt he.balanced.bound] at hmarked
      have hscaled := scaleByQuantity_exact hvalue
      rw [if_neg hfutures, hexact, sub_add_cancel]
      rcases lt_or_gt_of_ne hzero with hneg | hpos
      · rw [if_neg (by omega)] at h
        rw [exact_neg h, hscaled]
        simp only [Ledger.markedValue, Decimal.exact, hmarked, abs_of_neg hneg, Nat.cast_one]
        push_cast
        ring
      · rw [if_pos hpos, pure_eq_ok] at h
        rw [← h, hscaled]
        simp only [Ledger.markedValue, Decimal.exact, hmarked, abs_of_pos hpos, Nat.cast_one]
        push_cast
        ring

theorem totalCharges_exact {charges : List CashChargeRecord} {total total' : Decimal}
    (h : totalCharges charges total = .ok total') :
    total'.exact = total.exact + (charges.map fun c => c.amount.exact).sum := by
  induction charges generalizing total with
  | nil =>
    cases h
    simp
  | cons charge rest ih =>
    simp only [totalCharges, bind_eq_ok] at h
    obtain ⟨next, hnext, h⟩ := h
    rw [ih h, exact_add hnext, List.map_cons, List.sum_cons]
    ring

/-- Realized and unrealized results less costs, as a performance summary reports them. -/
def MultiPerformanceSummary.result (s : MultiPerformanceSummary) : ℚ :=
  s.realizedPnl.exact + s.unrealizedPnl.exact - s.totalFee.exact - s.totalTax.exact

variable {a : MultiLedger} {marks : Std.ExtTreeMap InstrumentId (Option Decimal)}

/-- For one instrument the two valuations agree. -/
theorem addPerformance_exact {s s' : MultiPerformanceSummary} {instrument : InstrumentId}
    {e : InstrumentLedger}
    {adjustment : Decimal} (he : e.Sound) (hentry : a.ledgers[instrument]? = some e)
    (hadjust : a.adjustment marks instrument = .ok adjustment)
    (h : addPerformance marks s instrument e = .ok s') :
    s'.result = s.result + e.ledger.cash.exact + adjustment.exact ∧
      s'.initialCash = s.initialCash ∧ s'.totalCashCharges = s.totalCashCharges := by
  simp only [addPerformance, bind_eq_ok, pure_eq_ok, ensure_eq_ok, okOr_eq_ok] at h
  obtain ⟨summary, hsummary, -, hmarked, realized, hrealized, unrealized, hunrealized, fee,
      hfee, h⟩ := h
  obtain ⟨tax, htax, count, -, rfl⟩ := h
  simp only [Ledger.performance, bind_eq_ok, pure_eq_ok] at hsummary
  obtain ⟨u, hu, rfl⟩ := hsummary
  refine ⟨?_, rfl, rfl⟩
  have hcash := he.balanced.cash
  rw [he.initial, exact_zero] at hcash
  simp only [MultiPerformanceSummary.result, exact_add hrealized, exact_add hunrealized,
    exact_add hfee, exact_add htax]
  unfold MultiLedger.adjustment markOf at hadjust
  cases hmark : (marks[instrument]?).join with
  | none =>
    -- without a mark the summary is only accepted for a flat position
    rw [hmark] at hadjust hu
    cases hadjust
    obtain ⟨hflat, rfl⟩ := unrealizedPnl_unmarked hu hmarked
    rw [openBasis_flat hflat, ite_self] at hcash
    rw [Option.getD_some, exact_zero]
    linear_combination -hcash
  | some mark =>
    rw [hmark] at hadjust hu
    obtain ⟨u', rfl⟩ := unrealizedPnl_marked hu
    rw [markToMarketAdjustment_exact he hentry hu hadjust, Option.getD_some]
    linear_combination -hcash

theorem addPerformances_exact (adjustments : InstrumentId → Decimal)
    {entries : List (InstrumentId × InstrumentLedger)} {s s' : MultiPerformanceSummary}
    (hentries : ∀ p ∈ entries, p.2.Sound ∧ a.ledgers[p.1]? = some p.2)
    (hadjust : ∀ p ∈ entries, a.adjustment marks p.1 = .ok (adjustments p.1))
    (h : addPerformances marks entries s = .ok s') :
    s'.result = s.result + (entries.map fun p => p.2.ledger.cash.exact).sum +
        (entries.map fun p => (adjustments p.1).exact).sum ∧
      s'.initialCash = s.initialCash ∧ s'.totalCashCharges = s.totalCashCharges := by
  induction entries generalizing s with
  | nil =>
    cases h
    simp
  | cons p rest ih =>
    obtain ⟨hp, hrest⟩ := List.forall_mem_cons.1 hentries
    obtain ⟨hadjustp, hadjustRest⟩ := List.forall_mem_cons.1 hadjust
    simp only [addPerformances, bind_eq_ok] at h
    obtain ⟨next, hnext, h⟩ := h
    obtain ⟨hresult, hinitial, hcharges⟩ := addPerformance_exact hp.1 hp.2 hadjustp hnext
    obtain ⟨hresult', hinitial', hcharges'⟩ := ih hrest hadjustRest h
    refine ⟨?_, hinitial'.trans hinitial, hcharges'.trans hcharges⟩
    rw [hresult', hresult]
    simp only [List.map_cons, List.sum_cons]
    ring

theorem sum_exact {α : Type} (l : List α) (f : α → Decimal) :
    (l.map fun x => (f x).exact).sum =
      ((l.map fun x => (f x).atoms.val).sum : ℤ) / Decimal.scaleFactor := by
  induction l with
  | nil => simp
  | cons x rest ih =>
    rw [List.map_cons, List.sum_cons, ih, List.map_cons, List.sum_cons, Int.cast_add, add_div]
    rfl

/-- Cash marked to market is what the performance summary adds up to. -/
theorem portfolio_equity_identity (initialCash : Decimal) (configs : List InstrumentLedgerConfig)
    (a : MultiLedger)
    (marks : Std.ExtTreeMap InstrumentId (Option Decimal)) (adjustments : InstrumentId → Decimal)
    (summary : MultiPerformanceSummary) (reachable : MultiLedger.Reachable initialCash configs a)
    (marked : ∀ instrument ∈ a.ledgers,
      a.adjustment marks instrument = .ok (adjustments instrument))
    (performed : a.performance marks = .ok summary) :
    a.cash.exact + (a.ledgers.keys.map fun instrument => (adjustments instrument).exact).sum =
      summary.initialCash.exact + summary.realizedPnl.exact + summary.unrealizedPnl.exact -
        summary.totalFee.exact - summary.totalTax.exact - summary.totalCashCharges.exact := by
  have ha := Reachable.sound reachable
  simp only [MultiLedger.performance, bind_eq_ok] at performed
  obtain ⟨charges, hcharges, h⟩ := performed
  have hentry : ∀ p ∈ a.ledgers.toList, a.ledgers[p.1]? = some p.2 := fun p hp =>
    Std.ExtTreeMap.mem_toList_iff_getElem?_eq_some.1 hp
  obtain ⟨hresult, hinitial, htotal⟩ := addPerformances_exact (a := a) adjustments
    (fun p hp => ⟨ha.entries p.1 p.2 (hentry p hp), hentry p hp⟩)
    (fun p hp => marked p.1 (Std.ExtTreeMap.mem_iff_isSome_getElem?.2 (by rw [hentry p hp]; rfl))) h
  have hcash :
      a.cash.exact = initialCash.exact + (a.ledgers.toList.map fun p => p.2.ledger.cash.exact).sum -
      (a.cashCharges.map fun c => c.amount.exact).sum := by
    rw [sum_exact, sum_exact]
    unfold Decimal.exact
    rw [ha.cash]
    push_cast
    ring
  rw [← Std.ExtTreeMap.map_fst_toList_eq_keys, List.map_map, hinitial, htotal,
    totalCharges_exact hcharges, exact_zero]
  simp only [MultiPerformanceSummary.result, exact_zero, ha.initial] at hresult ⊢
  rw [hcash, Function.comp_def]
  linear_combination -hresult

def exampleMarks : Std.ExtTreeMap InstrumentId (Option Decimal) :=
  (∅ : Std.ExtTreeMap InstrumentId (Option Decimal)).insert exampleInstrument
    (some ⟨Signed.wrap 128 (110 * Decimal.scaleFactor)⟩)

theorem equity_identity_with_open_position : ∃ a adjustment summary, exampleAccount = .ok a ∧
    a.adjustment exampleMarks exampleInstrument = .ok adjustment ∧
    a.performance exampleMarks = .ok summary ∧
    a.cash.exact + (a.ledgers.keys.map fun _ => adjustment.exact).sum =
      summary.initialCash.exact + summary.realizedPnl.exact + summary.unrealizedPnl.exact -
        summary.totalFee.exact - summary.totalTax.exact - summary.totalCashCharges.exact := by
  obtain ⟨adjustment, hadjustment⟩ := exists_of_isOk
    (x := exampleAccount >>= fun a => a.adjustment exampleMarks exampleInstrument)
      (by decide +kernel)
  obtain ⟨summary, hsummary⟩ :=
    exists_of_isOk (x := exampleAccount >>= fun a => a.performance exampleMarks)
    (by decide +kernel)
  have hkeys : exampleAccount.toOption.map (fun a => a.ledgers.keys) =
      some [exampleInstrument] := by decide +kernel
  obtain ⟨a, ha, hadjustment⟩ := (bind_eq_ok _ _ _).1 hadjustment
  rw [ha] at hsummary hkeys
  have hmarked : ∀ instrument ∈ a.ledgers,
      a.adjustment exampleMarks instrument = .ok adjustment := by
    intro instrument hmem
    have hmem' : instrument ∈ a.ledgers.keys := Std.ExtTreeMap.mem_keys.2 hmem
    have hsingle : a.ledgers.keys = [exampleInstrument] := Option.some.inj hkeys
    rw [hsingle, List.mem_singleton] at hmem'
    rw [hmem', hadjustment]
  exact ⟨a, adjustment, summary, ha, hadjustment, hsummary,
    portfolio_equity_identity _ _ a exampleMarks (fun _ => adjustment) summary
      (exampleAccount_reachable ha) hmarked
      hsummary⟩

end Valuation

end Osmium
