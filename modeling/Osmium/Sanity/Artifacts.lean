import Osmium.Sanity.Requests
import Osmium.Spec.Artifacts

/-! The records of the published files, one at a time: each is read in one way, whatever stands
behind it, once it is known whether its triggers are tagged. -/

namespace Osmium
open Machine Bytes Codec Result CanonicalParser

attribute [local irreducible] Bytes.ofUnsigned Bytes.ofSigned

theorem QuantityUnit.discriminant_injective : Function.Injective QuantityUnit.discriminant := by
  intro a b h
  cases a <;> cases b <;> first | rfl | exact absurd h (by decide)

theorem AccountingModel.discriminant_injective :
    Function.Injective AccountingModel.discriminant := by
  intro a b h
  cases a <;> cases b <;> first | rfl | exact absurd h (by decide)

theorem OrderStatus.discriminant_injective : Function.Injective OrderStatus.discriminant := by
  intro a b h
  cases a <;> cases b <;> first | rfl | exact absurd h (by decide)

namespace Artifacts

section Text

/-- A text whose length is not cut. -/
def Short (text : Text) : Prop := text.bytes.length < 2 ^ 32

instance (text : Text) : Decidable (Short text) := inferInstanceAs (Decidable (_ < _))

/-- Below the bound the length is the one that the checked encoder writes. -/
theorem block_checked {record : List UInt8} (h : record.length < 2 ^ 32) :
    appendBytes record = .ok (ofUnsigned 4 (Unsigned.wrap 32 record.length) ++ record) := by
  simp only [appendBytes, append_eq_ok, appendLength_eq_ok, Except.ok.injEq]
  exact ⟨_, ⟨Unsigned.wrap 32 record.length, Unsigned.val_wrap h, rfl⟩, _, rfl, rfl⟩

/-- A record behind its length. -/
theorem block_prefixFree : PrefixFree fun (record : List UInt8) b =>
    record.length < 2 ^ 32 ∧ b = ofUnsigned 4 (Unsigned.wrap 32 record.length) ++ record := by
  rintro record record' b b' r r' ⟨h, rfl⟩ ⟨h', rfl⟩ heq
  exact reads_bytes.prefixFree record record' _ _ r r' (block_checked h) (block_checked h') heq

theorem text_prefixFree : PrefixFree fun (t : Text) b => Short t ∧ b = appendText t :=
  block_prefixFree.comap Text.bytes fun _ _ h => Text.ext h

theorem identity_prefixFree : PrefixFree fun (i : InstrumentId) b =>
    Short i.symbol.text ∧ b = appendInstrumentIdentity i := by
  refine .of_found (fun a b b' hb hb' => hb.2.trans hb'.2.symm) ?_
  rintro i i' b b' r r' ⟨h, rfl⟩ ⟨h', rfl⟩ heq
  obtain ⟨hmarket, heq⟩ := List.cons.inj heq
  obtain ⟨hsymbol, -, -⟩ := text_prefixFree _ _ _ _ _ _ ⟨h, rfl⟩ ⟨h', rfl⟩ heq
  exact InstrumentId.ext (MarketId.discriminant_injective hmarket) (Symbol.ext hsymbol)

end Text

section Fill

/-- A fill that a version can tell: where the triggers have no tag, a market event triggered it. -/
def Fits (versionTwo : Bool) (fill : FillRecord) : Prop :=
  versionTwo = false → fill.controlSequence = none

theorem trigger_found {versionTwo : Bool} {f f' : FillRecord} (h : Fits versionTwo f)
    (h' : Fits versionTwo f') {r r' : List UInt8}
    (heq : appendFillTrigger f versionTwo ++ r = appendFillTrigger f' versionTwo ++ r') :
    f.trigger = f'.trigger ∧ r = r' := by
  cases versionTwo with
  | false =>
    obtain ⟨ordinal, hf⟩ : ∃ ordinal, f.trigger = .marketEvent ordinal := by
      cases hf : f.trigger with
      | marketEvent ordinal => exact ⟨ordinal, rfl⟩
      | control sequence => simp [Fits, FillRecord.controlSequence, hf] at h
    obtain ⟨ordinal', hf'⟩ : ∃ ordinal, f'.trigger = .marketEvent ordinal := by
      cases hf' : f'.trigger with
      | marketEvent ordinal => exact ⟨ordinal, rfl⟩
      | control sequence => simp [Fits, FillRecord.controlSequence, hf'] at h'
    simp only [appendFillTrigger, hf, hf'] at heq
    obtain ⟨rfl, -, hr⟩ := reads_u64.prefixFree ordinal ordinal' _ _ _ _ rfl rfl heq
    exact ⟨hf.trans hf'.symm, hr⟩
  | true =>
    cases hf : f.trigger with
    | marketEvent ordinal =>
      cases hf' : f'.trigger with
      | marketEvent ordinal' =>
        simp only [appendFillTrigger, hf, hf'] at heq
        obtain ⟨rfl, -, hr⟩ :=
          reads_u64.prefixFree ordinal ordinal' _ _ _ _ rfl rfl (List.cons.inj heq).2
        exact ⟨rfl, hr⟩
      | control sequence =>
        simp only [appendFillTrigger, hf, hf'] at heq
        exact absurd (List.cons.inj heq).1 (by decide)
    | control sequence =>
      cases hf' : f'.trigger with
      | marketEvent ordinal =>
        simp only [appendFillTrigger, hf, hf'] at heq
        exact absurd (List.cons.inj heq).1 (by decide)
      | control sequence' =>
        simp only [appendFillTrigger, hf, hf'] at heq
        obtain ⟨rfl, -, hr⟩ :=
          reads_u64.prefixFree sequence sequence' _ _ _ _ rfl rfl (List.cons.inj heq).2
        exact ⟨rfl, hr⟩

theorem fill_prefixFree (versionTwo : Bool) : PrefixFree fun (f : FillRecord) b =>
    Fits versionTwo f ∧ b = appendFill versionTwo f := by
  refine .of_found (fun a b b' hb hb' => hb.2.trans hb'.2.symm) ?_
  rintro f f' b b' r r' ⟨h, rfl⟩ ⟨h', rfl⟩ heq
  simp only [appendFill, List.append_assoc, List.cons_append, List.nil_append] at heq
  obtain ⟨hid, -, heq⟩ := digest_prefixFree _ _ _ _ _ _ rfl rfl heq
  obtain ⟨htrigger, heq⟩ := trigger_found h h' heq
  obtain ⟨htime, -, heq⟩ := matchTime_prefixFree _ _ _ _ _ _ rfl rfl heq
  obtain ⟨hside, heq⟩ := List.cons.inj heq
  obtain ⟨hprice, -, heq⟩ := reads_price.prefixFree f.price f'.price _ _ _ _ rfl rfl heq
  obtain ⟨hquantity, -, -⟩ := reads_quantity.prefixFree f.quantity f'.quantity _ _ _ _ rfl rfl heq
  exact FillRecord.ext (OrderId.ext hid) htrigger htime
    (OrderSide.discriminant_injective hside) hprice hquantity

/-- The bytes of a fill: a tagged trigger is a byte longer. -/
def fillWidth (versionTwo : Bool) : ℕ := 74 + versionTwo.toNat

theorem length_appendFill {versionTwo : Bool} {fill : FillRecord} (h : Fits versionTwo fill) :
    (appendFill versionTwo fill).length = fillWidth versionTwo := by
  have htrigger : (appendFillTrigger fill versionTwo).length = 8 + versionTwo.toNat := by
    cases hf : fill.trigger with
    | marketEvent ordinal => cases versionTwo <;> simp [appendFillTrigger, hf, length_ofUnsigned]
    | control sequence =>
      cases versionTwo with
      | false => simp [Fits, FillRecord.controlSequence, hf] at h
      | true => simp [appendFillTrigger, hf, length_ofUnsigned]
  simp only [appendFill, List.length_append, htrigger, fill.orderId.digest.size, length_ofSigned,
    length_ofUnsigned,
    Price.toCanonicalBytes, Decimal.toCanonicalBytes, Quantity.toCanonicalBytes, List.length_cons,
    List.length_nil, fillWidth]
  omega

end Fill

section Instrument

theorem optionalDecimal_prefixFree : PrefixFree fun (o : Option Decimal) b =>
    b = appendOptionalDecimal o := by
  have henc : ∀ o, appendOption Decimal.toCanonicalBytes o = .ok (appendOptionalDecimal o) := by
    intro o
    cases o with
    | none => rfl
    | some value => rfl
  rintro o o' b b' r r' rfl rfl heq
  exact option_prefixFree decimal_prefixFree o o' _ _ r r' (henc o) (henc o') heq

theorem summary_prefixFree : PrefixFree fun (v : PerformanceSummary × Option Decimal) b =>
    b = appendPerformanceSummary v.1 v.2 := by
  refine .of_found (fun a b b' hb hb' => hb.trans hb'.symm) ?_
  rintro ⟨s, average⟩ ⟨s', average'⟩ b b' r r' rfl rfl heq
  simp only [appendPerformanceSummary, List.append_assoc] at heq
  obtain ⟨hinitial, -, heq⟩ := decimal_prefixFree _ _ _ _ _ _ rfl rfl heq
  obtain ⟨hfinal, -, heq⟩ := decimal_prefixFree _ _ _ _ _ _ rfl rfl heq
  obtain ⟨hposition, -, heq⟩ := reads_i128.prefixFree s.position s'.position _ _ _ _ rfl rfl heq
  obtain ⟨haverage, -, heq⟩ := optionalDecimal_prefixFree _ _ _ _ _ _ rfl rfl heq
  obtain ⟨hrealized, -, heq⟩ := decimal_prefixFree _ _ _ _ _ _ rfl rfl heq
  obtain ⟨hunrealized, -, heq⟩ := optionalDecimal_prefixFree _ _ _ _ _ _ rfl rfl heq
  obtain ⟨hfee, -, heq⟩ := decimal_prefixFree _ _ _ _ _ _ rfl rfl heq
  obtain ⟨htax, -, heq⟩ := decimal_prefixFree _ _ _ _ _ _ rfl rfl heq
  obtain ⟨hcount, -, -⟩ := reads_u64.prefixFree s.fillCount s'.fillCount _ _ _ _ rfl rfl heq
  cases s
  cases s'
  simp only at hinitial hfinal hposition hrealized hunrealized hfee htax hcount
  subst hinitial hfinal hposition haverage hrealized hunrealized hfee htax hcount
  rfl

/-- The texts of an instrument's record are short. -/
def ShortTexts (p : InstrumentPerformance) : Prop :=
  Short p.instrument.symbol.text ∧ Short p.economics.provenance

theorem head_prefixFree : PrefixFree fun (p : InstrumentPerformance) b => ShortTexts p ∧
    b = instrumentHead p := by
  refine .of_found (fun a b b' hb hb' => hb.2.trans hb'.2.symm) ?_
  rintro p p' b b' r r' ⟨h, rfl⟩ ⟨h', rfl⟩ heq
  simp only [instrumentHead, List.append_assoc, List.cons_append, List.nil_append] at heq
  obtain ⟨hinstrument, -, heq⟩ := identity_prefixFree _ _ _ _ _ _ ⟨h.1, rfl⟩ ⟨h'.1, rfl⟩ heq
  obtain ⟨hunit, heq⟩ := List.cons.inj heq
  obtain ⟨hmodel, heq⟩ := List.cons.inj heq
  obtain ⟨hunits, -, heq⟩ :=
    reads_u64.prefixFree p.economics.unitsPerTradingUnit p'.economics.unitsPerTradingUnit
    _ _ _ _ rfl rfl heq
  obtain ⟨hmultiplier, -, heq⟩ := decimal_prefixFree _ _ _ _ _ _ rfl rfl heq
  obtain ⟨hprovenance, -, heq⟩ := text_prefixFree _ _ _ _ _ _ ⟨h.2, rfl⟩ ⟨h'.2, rfl⟩ heq
  obtain ⟨hsummary, -, -⟩ :=
    summary_prefixFree (p.summary, p.averageCost) (p'.summary, p'.averageCost) _ _ _ _ rfl rfl heq
  obtain ⟨instrument, unit, model, ⟨units, multiplier, provenance⟩, average, summary⟩ := p
  obtain ⟨instrument', unit', model', ⟨units', multiplier', provenance'⟩, average', summary'⟩ := p'
  obtain ⟨rfl, rfl⟩ := Prod.mk.inj hsummary
  obtain rfl := QuantityUnit.discriminant_injective hunit
  obtain rfl := AccountingModel.discriminant_injective hmodel
  simp only at hinstrument hunits hmultiplier hprovenance
  subst hinstrument hunits hmultiplier hprovenance
  rfl

/-- What a record says of an instrument. -/
abbrev Account : Type := InstrumentPerformance × List FillRecord

def record (versionTwo : Bool) (account : Account) : List UInt8 :=
  instrumentRecord versionTwo account.1 account.2

/-- The record of an account can be read: its texts are short, its fills fit the version and its
length is not cut. -/
structure Readable (versionTwo : Bool) (account : Account) : Prop where
  texts : ShortTexts account.1
  fills : ∀ fill ∈ account.2, Fits versionTwo fill
  size : (record versionTwo account).length < 2 ^ 32

theorem length_fills {versionTwo : Bool} {fills : List FillRecord}
    (h : ∀ fill ∈ fills, Fits versionTwo fill) :
    (fills.flatMap (appendFill versionTwo)).length = fills.length * fillWidth versionTwo := by
  have hwidths : fills.map (fun fill => (appendFill versionTwo fill).length) = fills.map fun _ =>
      fillWidth versionTwo :=
    List.map_congr_left fun fill hfill => length_appendFill (h fill hfill)
  rw [List.length_flatMap, hwidths, List.map_const', List.sum_replicate, smul_eq_mul]

theorem Readable.count_lt {versionTwo : Bool} {account : Account}
    (h : Readable versionTwo account) :
    account.2.length < 2 ^ 64 := by
  have hsize := h.size
  have hwidth : 1 ≤ fillWidth versionTwo := by
    unfold fillWidth
    omega
  have hfills := length_fills h.fills
  have hle : account.2.length * 1 ≤ account.2.length * fillWidth versionTwo :=
    Nat.mul_le_mul_left _ hwidth
  simp only [record, instrumentRecord, List.length_append, hfills] at hsize
  omega

/-- Equal records agree on the instrument, on the number of its fills and on the bytes of its fills,
though one may be tagged and the other not. -/
theorem record_found {versionTwo versionTwo' : Bool} {account account' : Account}
    (h : Readable versionTwo account) (h' : Readable versionTwo' account')
    (heq : record versionTwo account = record versionTwo' account') :
    account.1 = account'.1 ∧ account.2.length = account'.2.length ∧
      account.2.flatMap (appendFill versionTwo) = account'.2.flatMap (appendFill versionTwo') := by
  simp only [record, instrumentRecord, List.append_assoc] at heq
  obtain ⟨hhead, -, heq⟩ := head_prefixFree _ _ _ _ _ _ ⟨h.texts, rfl⟩ ⟨h'.texts, rfl⟩ heq
  obtain ⟨hcount, -, hfills⟩ :=
    reads_u64.prefixFree (Unsigned.wrap 64 account.2.length) (Unsigned.wrap 64 account'.2.length)
    _ _ _ _ rfl rfl heq
  refine ⟨hhead, ?_, hfills⟩
  have hval := congrArg Unsigned.val hcount
  rwa [Unsigned.val_wrap h.count_lt, Unsigned.val_wrap h'.count_lt] at hval

/-- Records with fills are equal only when both are tagged or none is: the tags would make their
lengths differ. -/
theorem record_untagged {account account' : Account} (h : Readable true account)
    (h' : Readable false account')
    (heq : record true account = record false account') : account.2 = [] := by
  obtain ⟨-, hcount, hfills⟩ := record_found h h' heq
  have hlength := congrArg List.length hfills
  rw [length_fills h.fills, length_fills h'.fills, hcount] at hlength
  simp only [fillWidth, Bool.toNat_true, Bool.toNat_false] at hlength
  exact List.length_eq_zero_iff.1 (by omega)

theorem record_injective {versionTwo : Bool} {account account' : Account}
    (h : Readable versionTwo account) (h' : Readable versionTwo account')
    (heq : record versionTwo account = record versionTwo account') : account = account' := by
  obtain ⟨hhead, hcount, hfills⟩ := record_found h h' heq
  have hsequence :=
    Sequence.flatMap (R := fun f b => Fits versionTwo f ∧ b = appendFill versionTwo f)
    fun fill hfill => ⟨h.fills fill hfill, rfl⟩
  have hsequence' :=
    Sequence.flatMap (R := fun f b => Fits versionTwo f ∧ b = appendFill versionTwo f)
    fun fill hfill => ⟨h'.fills fill hfill, rfl⟩
  obtain ⟨hlist, -, -⟩ := (fill_prefixFree versionTwo).sequence hcount hsequence hsequence'
    (congrArg (· ++ ([] : List UInt8)) hfills)
  exact Prod.ext hhead hlist

end Instrument

section Charge

theorem charge_prefixFree : PrefixFree fun (c : CashChargeRecord) b =>
    (Short c.category ∧ Short c.reference) ∧ b = appendCharge c := by
  refine .of_found (fun a b b' hb hb' => hb.2.trans hb'.2.symm) ?_
  rintro c c' b b' r r' ⟨h, rfl⟩ ⟨h', rfl⟩ heq
  simp only [appendCharge, List.append_assoc] at heq
  obtain ⟨hid, -, heq⟩ := digest_prefixFree _ _ _ _ _ _ rfl rfl heq
  obtain ⟨htime, -, heq⟩ := matchTime_prefixFree _ _ _ _ _ _ rfl rfl heq
  obtain ⟨hamount, -, heq⟩ := decimal_prefixFree _ _ _ _ _ _ rfl rfl heq
  obtain ⟨hcategory, -, heq⟩ := text_prefixFree _ _ _ _ _ _ ⟨h.1, rfl⟩ ⟨h'.1, rfl⟩ heq
  obtain ⟨hreference, -, -⟩ := text_prefixFree _ _ _ _ _ _ ⟨h.2, rfl⟩ ⟨h'.2, rfl⟩ heq
  obtain ⟨⟨digest⟩, time, amount, category, reference, valid⟩ := c
  obtain ⟨⟨digest'⟩, time', amount', category', reference', valid'⟩ := c'
  simp only at hid htime hamount hcategory hreference
  subst hid htime hamount hcategory hreference
  rfl

end Charge

section Orders

/-- What the orders file says of an order of the first kind. -/
structure StatedOrder where
  id : OrderId
  intent : OrderIntent
  filled : U64
  status : OrderStatus

def stated (order : SimOrder) : StatedOrder := ⟨order.id, order.intent, order.filled, order.status⟩

theorem order_prefixFree : PrefixFree fun (v : StatedOrder) b => ∃ order, stated order = v ∧
    appendOrder order = .ok b := by
  refine .of_found ?_ ?_
  · rintro v b b' ⟨order, rfl, h⟩ ⟨order', hsame, h'⟩
    obtain ⟨hid, hintent, hfilled, hstatus⟩ : order'.id = order.id ∧ order'.intent = order.intent ∧
      order'.filled = order.filled ∧ order'.status = order.status := by simpa [stated] using hsame
    have henc : appendOrder order' = appendOrder order := by
      simp only [appendOrder, SimOrder.remaining, hid, hintent, hfilled, hstatus]
    exact Except.ok.inj ((h.symm.trans henc.symm).trans h')
  · rintro v v' b b' r r' ⟨order, rfl, h⟩ ⟨order', rfl, h'⟩ heq
    simp only [appendOrder, bind_eq_ok, pure_eq_ok] at h h'
    obtain ⟨intent, hintent, rfl⟩ := h
    obtain ⟨intent', hintent', rfl⟩ := h'
    simp only [List.append_assoc] at heq
    obtain ⟨hid, -, heq⟩ := digest_prefixFree _ _ _ _ _ _ rfl rfl heq
    obtain ⟨-, -, heq⟩ :=
      reads_u32.prefixFree (Unsigned.wrap 32 intent.length) (Unsigned.wrap 32 intent'.length)
      _ _ _ _ rfl rfl heq
    obtain ⟨hintent, -, heq⟩ := orderIntent_prefixFree _ _ _ _ _ _ hintent hintent' heq
    obtain ⟨hfilled, -, heq⟩ := reads_u64.prefixFree order.filled order'.filled _ _ _ _ rfl rfl heq
    obtain ⟨-, -, heq⟩ := reads_u64.prefixFree order.remaining order'.remaining _ _ _ _ rfl rfl heq
    obtain ⟨hstatus, -⟩ := List.cons.inj heq
    simp only [stated, OrderId.ext hid, hintent, hfilled,
      OrderStatus.discriminant_injective hstatus]

theorem executionFailure_injective : Function.Injective executionFailure := by
  intro a b h
  cases a <;> cases b <;> first | rfl | exact absurd h (by decide)

theorem scheduledStatus_injective : Function.Injective scheduledStatus := by
  intro a b h
  cases a with
  | failed reason =>
    cases b with
    | failed reason' => rw [executionFailure_injective (congrArg Prod.snd h)]
    | _ => simp [scheduledStatus] at h
  | _ => cases b <;> first | rfl | simp [scheduledStatus] at h

theorem scheduledOrder_prefixFree : PrefixFree fun (order : ScheduledOrder) b =>
    appendScheduledOrder order = .ok b := by
  refine .of_found (fun a b b' hb hb' => Except.ok.inj (hb.symm.trans hb'))
    fun order order' b b' r r' h h' heq => ?_
  simp only [appendScheduledOrder, bind_eq_ok, pure_eq_ok] at h h'
  obtain ⟨request, hrequest, rfl⟩ := h
  obtain ⟨request', hrequest', rfl⟩ := h'
  simp only [List.append_assoc, List.cons_append, List.nil_append] at heq
  obtain ⟨hid, -, heq⟩ := digest_prefixFree _ _ _ _ _ _ rfl rfl heq
  obtain ⟨hsequence, -, heq⟩ :=
    reads_u64.prefixFree order.acceptanceSequence order'.acceptanceSequence _ _ _ _ rfl rfl heq
  obtain ⟨-, -, heq⟩ :=
    reads_u32.prefixFree (Unsigned.wrap 32 request.length) (Unsigned.wrap 32 request'.length)
    _ _ _ _ rfl rfl heq
  obtain ⟨hrequest, -, heq⟩ := scheduledRequest_prefixFree _ _ _ _ _ _ hrequest hrequest' heq
  obtain ⟨hfilled, -, heq⟩ :=
    reads_u64.prefixFree order.filledValue order'.filledValue _ _ _ _ rfl rfl heq
  obtain ⟨hkind, heq⟩ := List.cons.inj heq
  obtain ⟨hfailure, -⟩ := List.cons.inj heq
  have hstatus := scheduledStatus_injective (Prod.ext hkind hfailure)
  obtain ⟨⟨digest⟩, request, sequence, filled, status⟩ := order
  obtain ⟨⟨digest'⟩, request', sequence', filled', status'⟩ := order'
  simp only at hid hsequence hrequest hfilled hstatus
  subst hid hsequence hrequest hfilled hstatus
  rfl

end Orders

end Artifacts

section Output

/-- The leading byte of an indicator value. -/
def IndicatorValue.tag : IndicatorValue → UInt8
  | .bool _ => 1
  | .signed _ => 2
  | .unsigned _ => 3
  | .decimal _ => 4
  | .text _ => 5

def IndicatorValue.body : IndicatorValue → Encoding
  | .bool value => .ok [value.toUInt8]
  | .signed value => .ok (ofSigned 8 value)
  | .unsigned value => .ok (ofUnsigned 8 value)
  | .decimal value => .ok value.toCanonicalBytes
  | .text value => appendBytes value.bytes

theorem bool_prefixFree : PrefixFree fun (v : Bool) b => b = [v.toUInt8] :=
  reads_u8.prefixFree.comap Bool.toUInt8 fun a b h => by
    cases a <;> cases b <;> first | rfl | exact absurd h (by decide)

theorem indicatorValue_prefixFree : PrefixFree fun (v : IndicatorValue) b =>
    v.appendCanonical = .ok b := by
  refine PrefixFree.tagged IndicatorValue.tag IndicatorValue.body (fun v => by cases v <;> rfl)
    fun v v' htag b b' r r' h h' heq => ?_
  cases v <;> cases v' <;> simp [IndicatorValue.tag] at htag
  case bool.bool v v' =>
    obtain ⟨rfl, hb, hr⟩ := appended_prefixFree bool_prefixFree v v' b b' r r' h h' heq
    exact ⟨rfl, hb, hr⟩
  case signed.signed v v' =>
    obtain ⟨rfl, hb, hr⟩ := appended_prefixFree reads_i64.prefixFree v v' b b' r r' h h' heq
    exact ⟨rfl, hb, hr⟩
  case unsigned.unsigned v v' =>
    obtain ⟨rfl, hb, hr⟩ := appended_prefixFree reads_u64.prefixFree v v' b b' r r' h h' heq
    exact ⟨rfl, hb, hr⟩
  case decimal.decimal v v' =>
    obtain ⟨rfl, hb, hr⟩ := appended_prefixFree decimal_prefixFree v v' b b' r r' h h' heq
    exact ⟨rfl, hb, hr⟩
  case text.text v v' =>
    obtain ⟨rfl, hb, hr⟩ := reads_string.prefixFree v v' b b' r r' h h' heq
    exact ⟨rfl, hb, hr⟩

/-- Where in the run an event made a record. -/
def eventPlace (v : ((U64 × EventFingerprint) × U64) × U32) : Encoding :=
  .ok (ofUnsigned 8 v.1.1.1) ++ .ok v.1.1.2.digest.bytes ++ .ok (ofUnsigned 8 v.1.2) ++
    .ok (ofUnsigned 4 v.2)

def controlPlace (v : (U64 × MatchTime) × U32) : Encoding :=
  .ok (ofUnsigned 8 v.1.1) ++ .ok (ofSigned 8 v.1.2.unixMicroseconds) ++ .ok (ofUnsigned 4 v.2)

def indicatorPart (v : Text × IndicatorValue) : Encoding :=
  appendBytes v.1.bytes ++ v.2.appendCanonical

def chargePart (v : (Decimal × Text) × Text) : Encoding :=
  .ok v.1.1.toCanonicalBytes ++ appendBytes v.1.2.bytes ++ appendBytes v.2.bytes

theorem eventPlace_prefixFree : PrefixFree fun v b => eventPlace v = .ok b :=
  (((appended_prefixFree reads_u64.prefixFree).seq (appended_prefixFree fingerprint_prefixFree)).seq
    (appended_prefixFree reads_u64.prefixFree)).seq (appended_prefixFree reads_u32.prefixFree)

theorem controlPlace_prefixFree : PrefixFree fun v b => controlPlace v = .ok b :=
  ((appended_prefixFree reads_u64.prefixFree).seq (appended_prefixFree matchTime_prefixFree)).seq
    (appended_prefixFree reads_u32.prefixFree)

theorem indicatorPart_prefixFree : PrefixFree fun v b => indicatorPart v = .ok b :=
  reads_string.prefixFree.seq indicatorValue_prefixFree

theorem chargePart_prefixFree : PrefixFree fun v b => chargePart v = .ok b :=
  ((appended_prefixFree decimal_prefixFree).seq reads_string.prefixFree).seq reads_string.prefixFree

def StrategyOutputRecord.tag : StrategyOutputRecord → UInt8
  | .eventIndicator .. => 1
  | .finalizeIndicator .. => 2
  | .controlIndicator .. => 3
  | .eventCashCharge .. => 4
  | .controlCashCharge .. => 5

def StrategyOutputRecord.body : StrategyOutputRecord → Encoding
  | .eventIndicator ordinal fingerprint version sequence name value =>
    eventPlace (((ordinal, fingerprint), version), sequence) ++ indicatorPart (name, value)
  | .finalizeIndicator sequence name value =>
    .ok (ofUnsigned 4 sequence) ++ indicatorPart (name, value)
  | .controlIndicator controlSequence time sequence name value =>
    controlPlace ((controlSequence, time), sequence) ++ indicatorPart (name, value)
  | .eventCashCharge ordinal fingerprint version sequence amount category reference =>
    eventPlace (((ordinal, fingerprint), version), sequence) ++
      chargePart ((amount, category), reference)
  | .controlCashCharge controlSequence time sequence amount category reference =>
    controlPlace ((controlSequence, time), sequence) ++ chargePart ((amount, category), reference)

theorem StrategyOutputRecord.appendCanonical_eq (record : StrategyOutputRecord) :
    record.appendCanonical = .ok [record.tag] ++ record.body := by
  cases record <;> simp only [appendCanonical, tag, body, eventPlace, controlPlace,
    indicatorPart, chargePart, encoded_append_assoc]

theorem outputRecord_prefixFree : PrefixFree fun (record : StrategyOutputRecord) b =>
    record.appendCanonical = .ok b := by
  refine PrefixFree.tagged StrategyOutputRecord.tag _ StrategyOutputRecord.appendCanonical_eq
    fun v v' htag b b' r r' h h' heq => ?_
  cases v <;> cases v' <;> simp [StrategyOutputRecord.tag] at htag
  case eventIndicator.eventIndicator =>
    obtain ⟨hv, hb, hr⟩ :=
      (eventPlace_prefixFree.seq indicatorPart_prefixFree) (_, _) (_, _) b b' r r' h h' heq
    simp only [Prod.mk.injEq] at hv
    obtain ⟨⟨⟨⟨rfl, rfl⟩, rfl⟩, rfl⟩, rfl, rfl⟩ := hv
    exact ⟨rfl, hb, hr⟩
  case finalizeIndicator.finalizeIndicator =>
    obtain ⟨hv, hb, hr⟩ :=
      ((appended_prefixFree reads_u32.prefixFree).seq indicatorPart_prefixFree) (_, _) (_, _)
      b b' r r' h h' heq
    simp only [Prod.mk.injEq] at hv
    obtain ⟨rfl, rfl, rfl⟩ := hv
    exact ⟨rfl, hb, hr⟩
  case controlIndicator.controlIndicator =>
    obtain ⟨hv, hb, hr⟩ :=
      (controlPlace_prefixFree.seq indicatorPart_prefixFree) (_, _) (_, _) b b' r r' h h' heq
    simp only [Prod.mk.injEq] at hv
    obtain ⟨⟨⟨rfl, rfl⟩, rfl⟩, rfl, rfl⟩ := hv
    exact ⟨rfl, hb, hr⟩
  case eventCashCharge.eventCashCharge =>
    obtain ⟨hv, hb, hr⟩ :=
      (eventPlace_prefixFree.seq chargePart_prefixFree) (_, _) (_, _) b b' r r' h h' heq
    simp only [Prod.mk.injEq] at hv
    obtain ⟨⟨⟨⟨rfl, rfl⟩, rfl⟩, rfl⟩, ⟨rfl, rfl⟩, rfl⟩ := hv
    exact ⟨rfl, hb, hr⟩
  case controlCashCharge.controlCashCharge =>
    obtain ⟨hv, hb, hr⟩ :=
      (controlPlace_prefixFree.seq chargePart_prefixFree) (_, _) (_, _) b b' r r' h h' heq
    simp only [Prod.mk.injEq] at hv
    obtain ⟨⟨⟨rfl, rfl⟩, rfl⟩, ⟨rfl, rfl⟩, rfl⟩ := hv
    exact ⟨rfl, hb, hr⟩

theorem strategyIdentity_prefixFree : PrefixFree fun (i : StrategyIdentity) b =>
    i.appendCanonical = .ok b :=
  (((reads_string.prefixFree.seq reads_string.prefixFree).seq reads_string.prefixFree).seq
    reads_bytes.prefixFree).comap
    (fun i : StrategyIdentity =>
      (((i.strategyId, i.strategyVersion), i.binaryIdentity.algorithm), i.binaryIdentity.digest))
    fun i i' h => by
      obtain ⟨id, version, ⟨algorithm, digest, hbinary⟩, hidentity⟩ := i
      obtain ⟨id', version', ⟨algorithm', digest', hbinary'⟩, hidentity'⟩ := i'
      simp only [Prod.mk.injEq] at h
      obtain ⟨⟨⟨rfl, rfl⟩, rfl⟩, rfl⟩ := h
      rfl

/-- The canonical bytes determine a strategy's output. -/
theorem strategyOutput_injective {a b : StrategyOutput} {x : List UInt8}
    (ha : a.toCanonicalBytes = .ok x) (hb : b.toCanonicalBytes = .ok x) : a = b := by
  simp only [StrategyOutput.toCanonicalBytes, bind_eq_ok, pure_eq_ok, mapError_eq_ok, okOr_eq_ok,
    Unsigned.ofNat?_eq_some, List.append_assoc] at ha hb
  obtain ⟨identity, hidentity, count, hcount, records, hrecords, rfl⟩ := ha
  obtain ⟨identity', hidentity', count', hcount', records', hrecords', heq⟩ := hb
  have heq := List.append_cancel_left (List.append_cancel_left heq)
  obtain ⟨hid, -, heq⟩ := strategyIdentity_prefixFree _ _ _ _ _ _ hidentity' hidentity heq
  obtain ⟨hparams, -, heq⟩ := digest_prefixFree _ _ _ _ _ _ rfl rfl heq
  obtain ⟨rfl, -, heq⟩ := reads_u64.prefixFree count' count _ _ _ _ rfl rfl heq
  obtain ⟨hlist, -, -⟩ :=
    outputRecord_prefixFree.encodeAll (hcount'.symm.trans hcount) hrecords' hrecords
    (congrArg (· ++ ([] : List UInt8)) heq)
  obtain ⟨aidentity, aparams, arecords⟩ := a
  obtain ⟨bidentity, bparams, brecords⟩ := b
  simp only at hid hparams hlist
  subst hid hparams hlist
  rfl

end Output

end Osmium
