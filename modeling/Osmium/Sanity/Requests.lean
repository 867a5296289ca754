import Osmium.Proofs.StateCanonical
import Osmium.Spec.Orders

/-! The canonical bytes of an intent and of a scheduled request are read in one way, whatever stands
behind them. -/

namespace Osmium
open Machine Bytes Codec Result CanonicalParser

theorem OrderSide.discriminant_injective : Function.Injective OrderSide.discriminant := by
  intro a b h
  cases a <;> cases b <;> first | rfl | exact absurd h (by decide)

theorem ScheduledExecutionPolicy.discriminant_injective :
    Function.Injective ScheduledExecutionPolicy.discriminant := by
  intro a b h
  cases a <;> cases b <;> first | rfl | exact absurd h (by decide)

theorem decimal_prefixFree : PrefixFree fun (d : Decimal) b => b = d.toCanonicalBytes :=
  reads_i128.prefixFree.comap Decimal.atoms fun _ _ h => Decimal.ext h

theorem matchTime_prefixFree :
    PrefixFree fun (t : MatchTime) b => b = ofSigned 8 t.unixMicroseconds :=
  reads_i64.prefixFree.comap MatchTime.unixMicroseconds fun _ _ h => MatchTime.ext h

section Intent

/-- The order type as it stands in the canonical bytes. -/
def OrderType.toCanonicalBytes : OrderType → List UInt8
  | .market => [1]
  | .limit limitPrice => 2 :: limitPrice.toCanonicalBytes

theorem orderType_prefixFree :
    PrefixFree fun (t : OrderType) b => (.ok t.toCanonicalBytes : Encoding) = .ok b := by
  intro a a' b b' r r' ha ha' heq
  obtain rfl := Except.ok.inj ha
  obtain rfl := Except.ok.inj ha'
  cases a with
  | market =>
    cases a' with
    | market => exact ⟨rfl, rfl, (List.cons.inj heq).2⟩
    | limit limitPrice => exact absurd (List.cons.inj heq).1 (by decide)
  | limit limitPrice =>
    cases a' with
    | market => exact absurd (List.cons.inj heq).1 (by decide)
    | limit limitPrice' =>
      obtain ⟨rfl, -, hr⟩ :=
        reads_price.prefixFree limitPrice limitPrice' _ _ _ _ rfl rfl (List.cons.inj heq).2
      exact ⟨rfl, rfl, hr⟩

def orderIntentHeader : List UInt8 := [79, 83, 79, 73] ++ ofUnsigned 2 orderIntentVersion

theorem orderIntent_bytes {a : OrderIntent} {x : List UInt8} (h : a.toCanonicalBytes = .ok x) :
    ∃ symbol, appendBytes a.instrument.symbol.text.bytes = .ok symbol ∧
      x = orderIntentHeader ++ (a.instrument.market.discriminant ::
        (symbol ++
          (a.side.discriminant :: (a.quantity.toCanonicalBytes ++ (a.orderType.toCanonicalBytes ++
          [TimeInForce.day.discriminant]))))) := by
  simp only [OrderIntent.toCanonicalBytes, encoded_append_assoc, append_eq_ok, Except.ok.injEq] at h
  obtain ⟨_, rfl, _, ⟨_, rfl, _,
      ⟨_, rfl, _, ⟨symbol, hsymbol, _, ⟨_, rfl, _, ⟨_, rfl, _, ⟨_, rfl, _, rfl, rfl⟩, rfl⟩, rfl⟩,
      rfl⟩, rfl⟩, rfl⟩, rfl⟩ := h
  refine ⟨symbol, hsymbol, ?_⟩
  cases a.orderType <;> simp [orderIntentHeader, OrderType.toCanonicalBytes]

theorem orderIntent_prefixFree :
    PrefixFree fun (a : OrderIntent) b => a.toCanonicalBytes = .ok b := by
  refine .of_found (fun a b b' hb hb' => Except.ok.inj (hb.symm.trans hb'))
    fun a a' x x' r r' ha ha' heq => ?_
  obtain ⟨symbol, hsymbol, rfl⟩ := orderIntent_bytes ha
  obtain ⟨symbol', hsymbol', rfl⟩ := orderIntent_bytes ha'
  simp only [List.append_assoc, List.cons_append] at heq
  obtain ⟨hmarket, heq⟩ := List.cons.inj (List.append_cancel_left heq)
  obtain ⟨htext, -, heq⟩ := reads_bytes.prefixFree _ _ _ _ _ _ hsymbol hsymbol' heq
  obtain ⟨hside, heq⟩ := List.cons.inj heq
  obtain ⟨hquantity, -, heq⟩ := reads_quantity.prefixFree a.quantity a'.quantity _ _ _ _ rfl rfl heq
  obtain ⟨htype, -, -⟩ := orderType_prefixFree a.orderType a'.orderType _ _ _ _ rfl rfl heq
  refine OrderIntent.ext (InstrumentId.ext (MarketId.discriminant_injective hmarket) ?_)
    (OrderSide.discriminant_injective hside) hquantity htype
  exact Symbol.ext (Text.ext htext)

/-- Canonical bytes determine an intent. -/
theorem orderIntent_injective {a b : OrderIntent} {x : List UInt8} (ha : a.toCanonicalBytes = .ok x)
    (hb : b.toCanonicalBytes = .ok x) : a = b :=
  (orderIntent_prefixFree a b x x [] [] ha hb rfl).1

end Intent

section Request

/-- The batch identity as it stands in the canonical bytes of a request. -/
def batchEncoding (batchId : Option OrderBatchId) : Encoding :=
  appendPresent (fun batchId : OrderBatchId => appendBytes batchId.text.bytes) batchId

theorem batch_prefixFree : PrefixFree fun (o : Option OrderBatchId) b => batchEncoding o = .ok b :=
  present_prefixFree
    (reads_string.prefixFree.comap OrderBatchId.text fun _ _ h => OrderBatchId.ext h)

theorem option_prefixFree {α : Type} {bytes : α → List UInt8}
    (h : PrefixFree fun a b => b = bytes a) :
    PrefixFree fun (o : Option α) b => appendOption bytes o = .ok b := by
  have heq : ∀ o, appendOption bytes o = appendPresent (fun a => .ok (bytes a)) o := by
    intro o
    cases o with
    | none => rfl
    | some a => rfl
  simp only [heq]
  exact present_prefixFree (appended_prefixFree h)

def scheduledRequestHeader : List UInt8 :=
  [79, 83, 83, 82] ++ ofUnsigned 2 scheduledOrderRequestVersion

theorem scheduledRequest_bytes {a : ScheduledOrderRequest} {x : List UInt8}
    (h : a.toCanonicalBytes = .ok x) :
    ∃ client batch expiry intent block, appendBytes a.clientOrderId.text.bytes = .ok client ∧
      batchEncoding a.batchId = .ok batch ∧
      appendOption (fun expireAt : MatchTime => ofSigned 8 expireAt.unixMicroseconds) a.expireAt =
        .ok expiry ∧
      a.intent.toCanonicalBytes = .ok intent ∧ appendBytes intent = .ok block ∧
      x = scheduledRequestHeader ++
        (client ++ (batch ++ (ofSigned 8 a.activateAt.unixMicroseconds ++ (expiry ++
        (a.executionPolicy.discriminant :: block))))) := by
  simp only [ScheduledOrderRequest.toCanonicalBytes, encoded_append_assoc, append_eq_ok,
    Except.ok.injEq, bind_eq_ok] at h
  obtain ⟨_, rfl, _, ⟨_, rfl, _,
      ⟨client, hclient, _, ⟨batch, hbatch, _, ⟨_, rfl, _, ⟨expiry, hexpiry, _, ⟨_, rfl, block,
      ⟨intent, hintent, hblock⟩, rfl⟩, rfl⟩, rfl⟩, rfl⟩, rfl⟩, rfl⟩, rfl⟩ := h
  refine ⟨client, batch, expiry, intent, block, hclient, ?_, hexpiry, hintent,
    hblock, by simp [scheduledRequestHeader]⟩
  rw [← hbatch]
  cases a.batchId <;> rfl

theorem scheduledRequest_prefixFree : PrefixFree fun (a : ScheduledOrderRequest) b =>
    a.toCanonicalBytes = .ok b := by
  refine .of_found (fun a b b' hb hb' => Except.ok.inj (hb.symm.trans hb'))
    fun a a' x x' r r' ha ha' heq => ?_
  obtain ⟨client, batch, expiry, intent, block, hclient, hbatch, hexpiry, hintent, hblock, rfl⟩ :=
    scheduledRequest_bytes ha
  obtain ⟨client', batch', expiry', intent', block', hclient', hbatch', hexpiry', hintent',
      hblock', rfl⟩ :=
    scheduledRequest_bytes ha'
  simp only [List.append_assoc, List.cons_append] at heq
  obtain ⟨hid, -, heq⟩ :=
    reads_bytes.prefixFree _ _ _ _ _ _ hclient hclient' (List.append_cancel_left heq)
  obtain ⟨hgroup, -, heq⟩ := batch_prefixFree _ _ _ _ _ _ hbatch hbatch' heq
  obtain ⟨hactivate, -, heq⟩ := matchTime_prefixFree a.activateAt a'.activateAt _ _ _ _ rfl rfl heq
  obtain ⟨hexpire, -, heq⟩ :=
    option_prefixFree matchTime_prefixFree _ _ _ _ _ _ hexpiry hexpiry' heq
  obtain ⟨hpolicy, heq⟩ := List.cons.inj heq
  obtain ⟨rfl, -, -⟩ := reads_bytes.prefixFree _ _ _ _ _ _ hblock hblock' heq
  exact ScheduledOrderRequest.ext (ClientOrderId.ext (Text.ext hid)) hgroup hactivate hexpire
    (orderIntent_injective hintent hintent')
      (ScheduledExecutionPolicy.discriminant_injective hpolicy)

end Request

end Osmium
