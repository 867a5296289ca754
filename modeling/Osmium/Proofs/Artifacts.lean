import Osmium.Proofs.MultiRunner
import Osmium.Sanity.Artifacts
import Osmium.Sanity.Completion

/-! The published files say what the run was: two runs with equal files have equal orders, fills,
accounts, charges and strategy output, though each file leaves out what its run did not use. -/

namespace Osmium
open Machine Bytes Codec Result CanonicalParser

attribute [local irreducible] Bytes.ofUnsigned Bytes.ofSigned

namespace Artifacts

section Ledger

/-- Whether a control triggered any fill of the accounts. -/
def tagged (accounts : List Account) : Bool :=
  accounts.any fun account => account.2.any fun fill => fill.controlSequence.isSome

/-- A record with its length before it. -/
def block (record : List UInt8) : List UInt8 :=
  ofUnsigned 4 (Unsigned.wrap 32 record.length) ++ record

theorem fits_tagged {accounts : List Account} {account : Account} (haccount : account ∈ accounts)
    {fill : FillRecord} (hfill : fill ∈ account.2) : Fits (tagged accounts) fill := by
  intro h
  simp only [tagged, List.any_eq_false, Bool.not_eq_true, Option.isSome_eq_false_iff,
    Option.isNone_iff_eq_none] at h
  exact h account haccount fill hfill

/-- Records that are equal in pairs are tagged on both sides or on neither. -/
theorem tagged_le {accounts accounts' : List Account}
    (h : ∀ account ∈ accounts, Readable (tagged accounts) account)
    (h' : ∀ account ∈ accounts', Readable (tagged accounts') account)
    (heq : accounts.map (record (tagged accounts)) = accounts'.map (record (tagged accounts')))
    (htagged : tagged accounts = true) : tagged accounts' = true := by
  by_contra huntagged
  have huntagged := Bool.eq_false_iff.2 huntagged
  obtain ⟨account, haccount, hany⟩ := List.any_eq_true.1 htagged
  obtain ⟨fill, hfill, -⟩ := List.any_eq_true.1 hany
  obtain ⟨account', haccount', hrecord⟩ := List.mem_map.1 (heq ▸ List.mem_map_of_mem haccount)
  have hreadable := h account haccount
  have hreadable' := h' account' haccount'
  rw [htagged] at hrecord hreadable
  rw [huntagged] at hrecord hreadable'
  rw [record_untagged hreadable hreadable' hrecord.symm] at hfill
  cases hfill

theorem account_prefixFree (versionTwo : Bool) : PrefixFree fun (account : Account) b =>
    Readable versionTwo account ∧ b = block (record versionTwo account) := by
  refine .of_found (fun a b b' hb hb' => hb.2.trans hb'.2.symm) ?_
  rintro a a' b b' r r' ⟨h, rfl⟩ ⟨h', rfl⟩ heq
  obtain ⟨hrecord, -, -⟩ := block_prefixFree _ _ _ _ r r' ⟨h.size, rfl⟩ ⟨h'.size, rfl⟩ heq
  exact record_injective h h' hrecord

/-- As many accounts on both sides are read in one way, whatever stands behind them. -/
theorem accounts_found {accounts accounts' : List Account}
    (h : ∀ account ∈ accounts, Readable (tagged accounts) account)
    (h' : ∀ account ∈ accounts', Readable (tagged accounts') account)
    (hlength : accounts.length = accounts'.length) {r r' : List UInt8}
    (heq : (accounts.flatMap fun account => block (record (tagged accounts) account)) ++ r =
      (accounts'.flatMap fun account => block (record (tagged accounts') account)) ++ r') :
      accounts = accounts' ∧ r = r' := by
  have hsequence : ∀ {accounts : List Account},
      (∀ account ∈ accounts, Readable (tagged accounts) account) →
      Sequence (fun account b => Readable (tagged accounts) account ∧
        b = block (record (tagged accounts) account)) accounts
        (accounts.flatMap fun account => block (record (tagged accounts) account)) := fun h =>
    .flatMap fun account haccount => ⟨h account haccount, rfl⟩
  have hrecords : ∀ {accounts : List Account},
      (∀ account ∈ accounts, Readable (tagged accounts) account) →
      Sequence (fun record b => record.length < 2 ^ 32 ∧ b = block record)
        (accounts.map (record (tagged accounts)))
        (accounts.flatMap fun account => block (record (tagged accounts) account)) := fun h =>
    (hsequence h).map fun account _ b hb => ⟨hb.1.size, hb.2⟩
  obtain ⟨hmap, -, hrest⟩ :=
    block_prefixFree.sequence (by simpa using hlength) (hrecords h) (hrecords h') heq
  have htagged : tagged accounts = tagged accounts' :=
    Bool.eq_iff_iff.2 ⟨tagged_le h h' hmap, tagged_le h' h hmap.symm⟩
  have hsecond := hsequence h'
  rw [← htagged] at hsecond heq
  exact ⟨((account_prefixFree _).sequence hlength (hsequence h) hsecond heq).1, hrest⟩

def accounts (performance : MultiPerformanceSummary) (ledger : MultiLedger) : List Account :=
  performance.instruments.map fun instrument => (instrument, fillsOf ledger instrument)

theorem controlTriggers_eq (performance : MultiPerformanceSummary) (ledger : MultiLedger) :
    controlTriggers performance ledger = tagged (accounts performance ledger) := by
  simp only [controlTriggers, tagged, accounts, List.any_flatMap, List.any_map, Function.comp_def]

/-- What a ledger file can say: no text, no record and no list is too long for the field of its
length. -/
structure Sized (performance : MultiPerformanceSummary) (ledger : MultiLedger) : Prop where
  texts : ∀ instrument ∈ performance.instruments, ShortTexts instrument
  records : ∀ account ∈ accounts performance ledger,
      (record (controlTriggers performance ledger) account).length < 2 ^ 32
  count : performance.instruments.length < 2 ^ 64
  charges : ∀ charge ∈ ledger.cashCharges, Short charge.category ∧ Short charge.reference

theorem Sized.readable {performance : MultiPerformanceSummary} {ledger : MultiLedger}
    (h : Sized performance ledger)
    (account : Account) (haccount : account ∈ accounts performance ledger) :
    Readable (tagged (accounts performance ledger)) account where
  texts := by
    obtain ⟨instrument, hinstrument, rfl⟩ := List.mem_map.1 haccount
    exact h.texts instrument hinstrument
  fills := fun _ hfill => fits_tagged haccount hfill
  size := by
    rw [← controlTriggers_eq]
    exact h.records account haccount

/-- The charges of a file of the third version. -/
theorem charges_found {charges charges' : List CashChargeRecord}
    (h : ∀ charge ∈ charges, Short charge.category ∧ Short charge.reference)
    (h' : ∀ charge ∈ charges', Short charge.category ∧ Short charge.reference)
    (heq : ofUnsigned 8 (Unsigned.wrap 64 charges.length) ++ charges.flatMap appendCharge =
      ofUnsigned 8 (Unsigned.wrap 64 charges'.length) ++ charges'.flatMap appendCharge) :
      charges = charges' := by
  obtain ⟨-, -, heq⟩ :=
    reads_u64.prefixFree (Unsigned.wrap 64 charges.length) (Unsigned.wrap 64 charges'.length)
    _ _ _ _ rfl rfl heq
  have hsequence : ∀ {charges : List CashChargeRecord},
      (∀ charge ∈ charges, Short charge.category ∧ Short charge.reference) →
      Sequence (fun c b => (Short c.category ∧ Short c.reference) ∧ b = appendCharge c) charges
        (charges.flatMap appendCharge) :=
    fun h => .flatMap fun charge hcharge => ⟨h charge hcharge, rfl⟩
  refine charge_prefixFree.sequence_injective ?_ (hsequence h) (heq ▸ hsequence h')
  rintro charge ⟨-, hempty⟩
  have hlength := congrArg List.length hempty
  simp only [appendCharge, List.length_append, charge.identity.digest.size, List.length_nil]
    at hlength
  omega

/-- Equal ledger files have equal accounts and equal charges, of whichever version each is. -/
theorem ledger_found {performance performance' : MultiPerformanceSummary}
    {ledger ledger' : MultiLedger} (h : Sized performance ledger) (h' : Sized performance' ledger')
    (heq : encodeMultiLedgerParts performance ledger =
      encodeMultiLedgerParts performance' ledger') :
    ledger.accountingVersion = ledger'.accountingVersion ∧
      accounts performance ledger = accounts performance' ledger' ∧
      ledger.cashCharges = ledger'.cashCharges := by
  simp only [encodeMultiLedgerParts, List.append_assoc] at heq
  obtain ⟨hmagic, heq⟩ := List.append_inj heq (by split_ifs <;> rfl)
  obtain ⟨hversion, -, heq⟩ :=
    reads_u16.prefixFree ledger.accountingVersion ledger'.accountingVersion _ _ _ _ rfl rfl heq
  obtain ⟨hcount, -, heq⟩ := reads_u64.prefixFree (Unsigned.wrap 64 performance.instruments.length)
    (Unsigned.wrap 64 performance'.instruments.length) _ _ _ _ rfl rfl heq
  have hlength := congrArg Unsigned.val hcount
  rw [Unsigned.val_wrap h.count, Unsigned.val_wrap h'.count] at hlength
  have hblocks : ∀ (performance : MultiPerformanceSummary) (ledger : MultiLedger),
      (performance.instruments.flatMap fun instrument =>
        let record := instrumentRecord (controlTriggers performance ledger) instrument
          (fillsOf ledger instrument)
        ofUnsigned 4 (Unsigned.wrap 32 record.length) ++ record) =
      (accounts performance ledger).flatMap fun account =>
        block (record (tagged (accounts performance ledger)) account) := by
    intro performance ledger
    rw [← controlTriggers_eq, accounts, List.flatMap_map]
    rfl
  rw [hblocks, hblocks] at heq
  obtain ⟨haccounts, hcharges⟩ :=
    accounts_found h.readable h'.readable (by simpa [accounts] using hlength) heq
  refine ⟨hversion, haccounts, ?_⟩
  by_cases hempty : ledger.cashCharges = []
  · by_cases hempty' : ledger'.cashCharges = []
    · rw [hempty, hempty']
    · rw [if_neg (not_not.2 hempty), if_pos hempty'] at hmagic
      split_ifs at hmagic <;> exact absurd hmagic (by decide)
  · by_cases hempty' : ledger'.cashCharges = []
    · rw [if_pos hempty, if_neg (not_not.2 hempty')] at hmagic
      split_ifs at hmagic <;> exact absurd hmagic (by decide)
    · rw [if_pos hempty, if_pos hempty'] at hcharges
      exact charges_found h.charges h'.charges hcharges

end Ledger

section Fills

/-- A fills file of a version, with the instruments and the fills it lists. -/
def FillsFile (versionTwo : Bool) (fills : List (InstrumentId × FillRecord))
    (x : List UInt8) : Prop :=
  ∃ count records, x = (if versionTwo then fillsMagic2 else fillsMagic1) ++
    ofUnsigned 8 (Unsigned.wrap 64 count) ++ records ∧
    Sequence (fun v b => (Short v.1.symbol.text ∧ Fits versionTwo v.2) ∧
      b = appendInstrumentIdentity v.1 ++ appendFill versionTwo v.2) fills records

theorem fills_found {versionTwo versionTwo' : Bool}
    {fills fills' : List (InstrumentId × FillRecord)} {x : List UInt8}
    (h : FillsFile versionTwo fills x) (h' : FillsFile versionTwo' fills' x) : fills = fills' := by
  obtain ⟨count, records, rfl, hrecords⟩ := h
  obtain ⟨count', records', heq, hrecords'⟩ := h'
  rw [List.append_assoc, List.append_assoc] at heq
  obtain ⟨hmagic, heq⟩ := List.append_inj heq (by split_ifs <;> rfl)
  obtain ⟨-, -, rfl⟩ :=
    reads_u64.prefixFree (Unsigned.wrap 64 count) (Unsigned.wrap 64 count') _ _ _ _ rfl rfl heq
  have hversion : versionTwo = versionTwo' := by
    cases versionTwo <;> cases versionTwo' <;> first | rfl | exact absurd hmagic (by decide)
  subst hversion
  refine PrefixFree.sequence_injective ?_ ?_ hrecords hrecords'
  · refine .of_found (fun a b b' hb hb' => hb.2.trans hb'.2.symm) ?_
    rintro v v' b b' r r' ⟨hv, rfl⟩ ⟨hv', rfl⟩ heq
    simp only [List.append_assoc] at heq
    obtain ⟨hinstrument, -, heq⟩ := identity_prefixFree _ _ _ _ _ _ ⟨hv.1, rfl⟩ ⟨hv'.1, rfl⟩ heq
    obtain ⟨hfill, -, -⟩ := fill_prefixFree versionTwo _ _ _ _ _ _ ⟨hv.2, rfl⟩ ⟨hv'.2, rfl⟩ heq
    exact Prod.ext hinstrument hfill
  · rintro v ⟨-, hempty⟩
    cases hempty

/-- The fills of a multi-instrument run, instrument by instrument. -/
def multiFills (simulator : MultiSimulator) : List (InstrumentId × FillRecord) :=
  simulator.simulators.toList.flatMap fun entry => entry.2.fills.map (Prod.mk entry.1)

theorem multiFills_file {completed : CompletedMultiBacktest}
    (huniverse : completed.performance.instruments.map InstrumentPerformance.instrument =
      completed.simulator.simulators.keys)
    (hshort : ∀ instrument ∈ completed.simulator.simulators.keys, Short instrument.symbol.text) :
    FillsFile (completed.simulator.fills.any fun fill => fill.controlSequence.isSome)
      (multiFills completed.simulator)
      (encodeMultiFills completed) := by
  have hfits : ∀ v ∈ multiFills completed.simulator,
      Fits (completed.simulator.fills.any fun fill => fill.controlSequence.isSome) v.2 := by
    intro v hv hnone
    obtain ⟨entry, hentry, hv⟩ := List.mem_flatMap.1 hv
    obtain ⟨fill, hfill, rfl⟩ := List.mem_map.1 hv
    have hall := List.any_eq_false.1 hnone fill (List.mem_flatMap.2 ⟨entry, hentry, hfill⟩)
    simpa using hall
  have hkeys : ∀ v ∈ multiFills completed.simulator, Short v.1.symbol.text := by
    intro v hv
    obtain ⟨entry, hentry, hv⟩ := List.mem_flatMap.1 hv
    obtain ⟨fill, -, rfl⟩ := List.mem_map.1 hv
    refine hshort entry.1 ?_
    rw [← Std.ExtTreeMap.map_fst_toList_eq_keys]
    exact List.mem_map_of_mem hentry
  have hsame : ∀ (f : InstrumentId → FillRecord → List UInt8),
      (completed.simulator.simulators.keys.flatMap fun instrument =>
        ((completed.simulator.fillsFor instrument).getD []).flatMap (f instrument)) =
      (multiFills completed.simulator).flatMap fun v => f v.1 v.2 := by
    intro f
    rw [← Std.ExtTreeMap.map_fst_toList_eq_keys, List.flatMap_map, multiFills, List.flatMap_assoc]
    refine List.flatMap_congr fun entry hentry => ?_
    have hlookup := Std.ExtTreeMap.mem_toList_iff_getElem?_eq_some.1 hentry
    simp only [MultiSimulator.fillsFor, hlookup, Option.map_some, Option.getD_some,
      List.flatMap_map]
  simp only [encodeMultiFills, huniverse]
  refine ⟨_, _, rfl, ?_⟩
  rw [hsame]
  exact .flatMap fun v hv => ⟨⟨hkeys v hv, hfits v hv⟩, rfl⟩

/-- A scheduled fill with the instrument of its order, where it has one. -/
def scheduledFills (simulator : ScheduledDepthSimulator) :
    List (Option InstrumentId × FillRecord) :=
  simulator.fills.map fun fill =>
    ((simulator.orders.find? fun order => order.id = fill.orderId).map fun order =>
      order.request.intent.instrument, fill)

theorem scheduledFills_file {completed : CompletedScheduledMultiBacktest} {x : List UInt8}
    (hshort : ∀ order ∈ completed.simulator.orders,
      Short order.request.intent.instrument.symbol.text)
    (h : encodeScheduledFills completed = .ok x) :
    ∃ fills, scheduledFills completed.simulator = fills.map (fun v => (some v.1, v.2)) ∧
    FillsFile true fills x := by
  simp only [encodeScheduledFills, bind_eq_ok, pure_eq_ok] at h
  obtain ⟨records, hrecords, rfl⟩ := h
  suffices hall : ∀ fills : List FillRecord, ∀ records,
      encodeAll (appendScheduledFill completed.simulator.orders) fills = .ok records →
      ∃ listed : List (InstrumentId × FillRecord),
        fills.map (fun fill => ((completed.simulator.orders.find? fun order =>
        order.id = fill.orderId).map fun order => order.request.intent.instrument, fill)) =
        listed.map (fun v => (some v.1, v.2)) ∧
      Sequence (fun v b => (Short v.1.symbol.text ∧ Fits true v.2) ∧
        b = appendInstrumentIdentity v.1 ++ appendFill true v.2) listed records by
    obtain ⟨listed, hlisted, hsequence⟩ := hall _ _ hrecords
    exact ⟨listed, hlisted, _, records, rfl, hsequence⟩
  intro fills
  induction fills with
  | nil =>
    intro records h
    obtain rfl := Except.ok.inj h
    exact ⟨[], rfl, .nil⟩
  | cons fill rest ih =>
    intro records h
    obtain ⟨b₁, hfill, b₂, hrest, rfl⟩ := (append_eq_ok _ _ _).1 h
    simp only [appendScheduledFill, bind_eq_ok, okOr_eq_ok, pure_eq_ok] at hfill
    obtain ⟨order, hfind, rfl⟩ := hfill
    obtain ⟨listed, hlisted, hsequence⟩ := ih b₂ hrest
    refine ⟨(order.request.intent.instrument, fill) :: listed, ?_,
      .cons ⟨⟨?_, fun hfalse => absurd hfalse (by simp)⟩, rfl⟩ hsequence⟩
    · rw [List.map_cons, List.map_cons, hlisted, hfind]
      rfl
    · exact hshort order (List.mem_of_find?_eq_some hfind)

end Fills

section Orders

/-- The orders a file lists, as far as it describes them. -/
inductive ListedOrders
  | multi (orders : List StatedOrder)
  | scheduled (orders : List ScheduledOrder)

theorem orders_found {orders orders' : List SimOrder} {x : List UInt8}
    (h : encodeOrders orders = .ok x)
    (h' : encodeOrders orders' = .ok x) : orders.map stated = orders'.map stated := by
  simp only [encodeOrders, bind_eq_ok, mapError_eq_ok, pure_eq_ok, List.append_assoc] at h h'
  obtain ⟨records, hrecords, rfl⟩ := h
  obtain ⟨records', hrecords', heq⟩ := h'
  obtain ⟨-, -, rfl⟩ :=
    reads_u64.prefixFree (Unsigned.wrap 64 orders'.length) (Unsigned.wrap 64 orders.length)
    _ _ _ _ rfl rfl (List.append_cancel_left heq)
  refine order_prefixFree.sequence_injective ?_
    ((Sequence.encodeAll hrecords).map fun order _ b hb => ⟨order, rfl, hb⟩)
    ((Sequence.encodeAll hrecords').map fun order _ b hb => ⟨order, rfl, hb⟩)
  rintro v ⟨order, -, hempty⟩
  simp only [appendOrder, bind_eq_ok, pure_eq_ok] at hempty
  obtain ⟨intent, -, hempty⟩ := hempty
  have hlength := congrArg List.length hempty
  simp only [List.length_append, order.id.digest.size, List.length_nil] at hlength
  omega

theorem scheduledOrders_found {completed completed' : CompletedScheduledMultiBacktest}
    {x : List UInt8}
    (h : encodeScheduledOrders completed = .ok x) (h' : encodeScheduledOrders completed' = .ok x) :
    completed.simulator.orders = completed'.simulator.orders := by
  simp only [encodeScheduledOrders, bind_eq_ok, mapError_eq_ok, pure_eq_ok, List.append_assoc]
    at h h'
  obtain ⟨records, hrecords, rfl⟩ := h
  obtain ⟨records', hrecords', heq⟩ := h'
  obtain ⟨-, -, rfl⟩ := reads_u64.prefixFree (Unsigned.wrap 64 completed'.simulator.orders.length)
    (Unsigned.wrap 64 completed.simulator.orders.length) _ _ _ _ rfl rfl
      (List.append_cancel_left heq)
  refine scheduledOrder_prefixFree.sequence_injective ?_ (Sequence.encodeAll hrecords)
    (Sequence.encodeAll hrecords')
  intro order hempty
  simp only [appendScheduledOrder, bind_eq_ok, pure_eq_ok] at hempty
  obtain ⟨request, -, hempty⟩ := hempty
  have hlength := congrArg List.length hempty
  simp only [List.length_append, order.id.digest.size, List.length_nil] at hlength
  omega

/-- The two kinds of orders files have different magics. -/
theorem orders_apart {orders : List SimOrder} {completed : CompletedScheduledMultiBacktest}
    {x : List UInt8}
    (h : encodeOrders orders = .ok x) (h' : encodeScheduledOrders completed = .ok x) : False := by
  simp only [encodeOrders, encodeScheduledOrders, bind_eq_ok, mapError_eq_ok, pure_eq_ok,
    List.append_assoc] at h h'
  obtain ⟨records, -, rfl⟩ := h
  obtain ⟨records', -, heq⟩ := h'
  exact absurd (List.append_inj heq rfl).1 (by decide)

end Orders

end Artifacts

namespace CompletedRun
open Artifacts

def accounts (run : CompletedRun) : List Account := Artifacts.accounts run.performance run.ledger

def orders : CompletedRun → ListedOrders
  | multi completed => .multi (completed.simulator.orders.map stated)
  | scheduled completed => .scheduled completed.simulator.orders

/-- The fills with the instruments of their orders. -/
def fills : CompletedRun → List (Option InstrumentId × FillRecord)
  | multi completed => (multiFills completed.simulator).map fun v => (some v.1, v.2)
  | scheduled completed => scheduledFills completed.simulator

/-- The texts and the records of a run are not too long to be published. A run of the
subsequent-event runner reports the instruments of its simulators, as every completed one does
(`completed_instruments`). -/
structure Storable (run : CompletedRun) : Prop where
  sized : Sized run.performance run.ledger
  symbols : ∀ completed, run = scheduled completed →
    ∀ order ∈ completed.simulator.orders, Short order.request.intent.instrument.symbol.text
  instruments : ∀ completed, run = multi completed →
    completed.performance.instruments.map InstrumentPerformance.instrument =
      completed.simulator.simulators.keys

theorem Storable.fillsFile {run : CompletedRun} (h : run.Storable) {x : List UInt8}
    (hx : run.fillsBytes = .ok x) :
    ∃ versionTwo fills, run.fills = fills.map (fun v => (some v.1, v.2)) ∧
    FillsFile versionTwo fills x := by
  cases run with
  | multi completed =>
    obtain rfl := Except.ok.inj hx
    have hkeys := h.instruments completed rfl
    refine ⟨_, _, rfl, multiFills_file hkeys fun instrument hinstrument => ?_⟩
    obtain ⟨performance, hperformance, rfl⟩ := List.mem_map.1 (hkeys ▸ hinstrument)
    exact (h.sized.texts performance hperformance).1
  | scheduled completed =>
    obtain ⟨fills, hfills, hfile⟩ := scheduledFills_file (h.symbols completed rfl) hx
    exact ⟨true, fills, hfills, hfile⟩

/-- Runs with equal files are equal in all that the files are about: the accounts with their fills
and the charges, the fills, the orders, and the output of the strategy. -/
theorem artifacts_faithful {a b : CompletedRun} (ha : a.Storable) (hb : b.Storable) :
    (a.ledgerBytes = b.ledgerBytes → a.ledger.accountingVersion = b.ledger.accountingVersion ∧
      a.accounts = b.accounts ∧
      a.ledger.cashCharges = b.ledger.cashCharges) ∧
    (∀ x, a.fillsBytes = .ok x → b.fillsBytes = .ok x → a.fills = b.fills) ∧
    (∀ x, a.ordersBytes = .ok x → b.ordersBytes = .ok x → a.orders = b.orders) ∧
    (∀ x, a.strategyOutputBytes = .ok x → b.strategyOutputBytes = .ok x →
      a.strategyOutput = b.strategyOutput) := by
  refine ⟨ledger_found ha.sized hb.sized, fun x hx hx' => ?_, fun x hx hx' => ?_, fun x =>
    strategyOutput_injective⟩
  · obtain ⟨_, fills, hfills, hfile⟩ := ha.fillsFile hx
    obtain ⟨_, fills', hfills', hfile'⟩ := hb.fillsFile hx'
    rw [hfills, hfills', fills_found hfile hfile']
  · cases a with
    | multi completed =>
      cases b with
      | multi completed' => exact congrArg ListedOrders.multi (orders_found hx hx')
      | scheduled completed' => exact (orders_apart hx hx').elim
    | scheduled completed =>
      cases b with
      | multi completed' => exact (orders_apart hx' hx).elim
      | scheduled completed' => exact congrArg ListedOrders.scheduled (scheduledOrders_found hx hx')

section Example

theorem threeLots : 0 < (Unsigned.wrap 64 3).val := by decide

def triggeredFill (trigger : FillTrigger) : FillRecord :=
  { exampleFill .buy 100 3 threeLots with trigger := trigger }

/-- A scheduled run with one filled order and one charge, as far as its files tell it. -/
def triggeredRun (trigger : FillTrigger) : CompletedScheduledMultiBacktest where
  replay := ⟨∅, ⟨0, none, none, sampleHash [], sampleHash []⟩⟩
  strategyOutput := .new sampleStrategyIdentity (sampleHash [])
  simulator := { sampleSimulator with
    orders :=
      [⟨(triggeredFill trigger).orderId, sampleRequest 97 (Eq.refl true) .buy 10,
        Unsigned.wrap 64 1,
      Unsigned.wrap 64 3, .filled⟩]
    fills := [triggeredFill trigger] }
  ledger := {
    initialCash := exampleCash
    cash := exampleCash
    ledgers := (∅ : Std.ExtTreeMap InstrumentId InstrumentLedger).insert exampleInstrument
      { exampleConfig.entry with
        ledger := { exampleConfig.entry.ledger with fills := [triggeredFill trigger] } }
    cashCharges := [exampleCashCharge]
    cashChargeIdentities := ∅ }
  performance := {
    initialCash := exampleCash
    finalCash := exampleCash
    realizedPnl := Decimal.zero
    unrealizedPnl := Decimal.zero
    totalFee := Decimal.zero
    totalTax := Decimal.zero
    totalCashCharges := exampleCashCharge.amount
    fillCount := Unsigned.wrap 64 1
    instruments := [⟨exampleInstrument, .tradingUnit, .equityV1, exampleEconomics, none,
      ⟨exampleCash, exampleCash, Signed.wrap 128 3, Decimal.zero, none, Decimal.zero, Decimal.zero,
        Unsigned.wrap 64 1⟩⟩] }

theorem storable_triggeredRun (trigger : FillTrigger)
    (h : (scheduled (triggeredRun trigger)).accounts.all (fun account => decide ((record
      (controlTriggers (triggeredRun trigger).performance (triggeredRun trigger).ledger)
        account).length < 2 ^ 32)) = true) :
    (scheduled (triggeredRun trigger)).Storable where
  sized := {
    texts := by
      intro instrument hinstrument
      obtain rfl := List.mem_singleton.1 hinstrument
      exact ⟨by decide, by decide⟩
    records := fun account haccount => of_decide_eq_true (List.all_eq_true.1 h account haccount)
    count := by
      change 1 < 2 ^ 64
      decide
    charges := by
      intro charge hcharge
      obtain rfl := List.mem_singleton.1 hcharge
      exact ⟨by decide, by decide⟩ }
  symbols := by
    intro completed heq order horder
    obtain rfl := CompletedRun.scheduled.inj heq
    obtain rfl := List.mem_singleton.1 horder
    exact (by decide : Short sampleInstrument.symbol.text)
  instruments := fun _ heq => nomatch heq

/-- The third version of the ledger tells an event from a control of the same number, though its
magic does not say that the triggers are tagged. -/
theorem triggers_told_apart :
    (scheduled (triggeredRun (.marketEvent 0))).ledgerBytes ≠
      (scheduled (triggeredRun (.control 0))).ledgerBytes ∧
      (scheduled (triggeredRun (.marketEvent 0))).ordersBytes =
        (scheduled (triggeredRun (.control 0))).ordersBytes := by
  refine ⟨fun heq => ?_, rfl⟩
  have haccounts :=
    ((artifacts_faithful (storable_triggeredRun (.marketEvent 0) (by decide +kernel))
    (storable_triggeredRun (.control 0) (by decide +kernel))).1 heq).2.1
  have htriggers :=
    congrArg (List.map fun account : Account => account.2.map FillRecord.trigger) haccounts
  exact absurd htriggers (by decide +kernel)

end Example

end CompletedRun

end Osmium
