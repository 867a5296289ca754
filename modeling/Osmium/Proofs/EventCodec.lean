import Osmium.Sanity.Codec

/-! The event codec. Payload by payload, then for the whole frame, the decoder accepts exactly the
encodings of events whose auction observations follow the rule of `fromParts`. -/

namespace Osmium
open Machine Bytes Codec Result

attribute [local irreducible] Bytes.ofUnsigned Bytes.ofSigned

def EventPayload.AuctionsWellFormed : EventPayload → Prop
  | .quoteSnapshot snapshot => snapshot.marketSignal.Sat MarketSignal.WellFormed
  | .bookSnapshot snapshot => snapshot.marketSignal.Sat MarketSignal.WellFormed
  | .tradeBatch batch => batch.marketSignal.Sat MarketSignal.WellFormed
  | .indicativeAuction auction => auction.observation.WellFormed
  | .marketStatus status => status.marketSignal.Sat MarketSignal.WellFormed

/-- Every auction observation in the event is one that `fromParts` would build. -/
def DomainEvent.AuctionsWellFormed (e : DomainEvent) : Prop := e.payload.AuctionsWellFormed

theorem QuoteSnapshot.new_eq_ok (b : CompleteBookSnapshot) (t : Observation ObservedTrade)
    (v : Observation Volume)
    (a : MarketAnnotations) (m : Observation MarketSignal) (s : QuoteSnapshot) :
    (∃ s₀, QuoteSnapshot.new b t v a = .ok s₀ ∧ s₀.withMarketSignal m = s) ↔
      b = s.book ∧ t = s.trade ∧ v = s.cumulativeVolume ∧ a = s.annotations ∧
      m = s.marketSignal := by
  constructor
  · rintro ⟨s₀, h, rfl⟩
    unfold QuoteSnapshot.new at h
    split at h
    · cases h; exact ⟨rfl, rfl, rfl, rfl, rfl⟩
    · cases h
  · rintro ⟨rfl, rfl, rfl, rfl, rfl⟩
    refine ⟨{ s with marketSignal := .noObservation }, ?_, rfl⟩
    unfold QuoteSnapshot.new
    split
    · rfl
    · next e he => rw [s.valid] at he; cases he

theorem TradeBatch.new_eq_ok (t : List ObservedTrade) (o : TradeBatchOrdering)
    (v : Observation Volume)
    (a : MarketAnnotations) (m : Observation MarketSignal) (s : TradeBatch) :
    (∃ s₀, TradeBatch.new t o v a = .ok s₀ ∧ s₀.withMarketSignal m = s) ↔
      t = s.trades ∧ o = s.tradeOrder ∧ v = s.cumulativeVolume ∧ a = s.annotations ∧
      m = s.marketSignal := by
  constructor
  · rintro ⟨s₀, h, rfl⟩
    unfold TradeBatch.new at h
    split at h
    · cases h; exact ⟨rfl, rfl, rfl, rfl, rfl⟩
    · cases h
  · rintro ⟨rfl, rfl, rfl, rfl, rfl⟩
    refine ⟨{ s with marketSignal := .noObservation }, ?_, rfl⟩
    unfold TradeBatch.new
    split
    · rfl
    · next e he => rw [s.valid] at he; cases he

theorem IndicativeAuction.new_eq_ok (o : AuctionObservation) (p : Observation Price)
    (q : Observation Quantity)
    (b : Observation CompleteBookSnapshot) (v : Observation Volume) (a : MarketAnnotations)
    (s : IndicativeAuction) :
    IndicativeAuction.new o p q b v a = .ok s ↔
      o = s.observation ∧ p = s.price ∧ q = s.quantity ∧ b = s.book ∧ v = s.cumulativeVolume ∧
        a = s.annotations := by
  constructor
  · intro h
    unfold IndicativeAuction.new at h
    split at h
    · cases h; exact ⟨rfl, rfl, rfl, rfl, rfl, rfl⟩
    · cases h
  · rintro ⟨rfl, rfl, rfl, rfl, rfl, rfl⟩
    unfold IndicativeAuction.new
    split
    · rfl
    · next e he => rw [s.valid] at he; cases he

namespace CanonicalParser

theorem decodes_quoteSnapshot :
    Decodes quoteSnapshot (fun s => s.marketSignal.Sat MarketSignal.WellFormed)
    fun s => encodePayload (.quoteSnapshot s) := by
  refine (Reads.bind reads_book fun b => Reads.bind (reads_observation reads_trade) fun t =>
    Reads.bind (reads_observation reads_volume) fun v => Reads.bind reads_annotations fun a =>
    Reads.bind (reads_validated (QuoteSnapshot.new b t v a)) fun s₀ =>
    Reads.bindPure (decodes_observation decodes_marketSignal) s₀.withMarketSignal).congr
      fun s bs => ?_
  simp only [encodePayload, append_eq_ok]
  constructor
  · rintro ⟨b, b₁, _, h₁, ⟨t, b₂, _, h₂, ⟨v, b₃, _, h₃, ⟨a, b₄, _, h₄, ⟨s₀, _, b₅, ⟨h₀, rfl⟩,
      ⟨m, ⟨hw, h₅⟩, hs⟩, rfl⟩, rfl⟩, rfl⟩, rfl⟩, rfl⟩
    obtain ⟨rfl, rfl, rfl, rfl, rfl⟩ := (QuoteSnapshot.new_eq_ok b t v a m s).1 ⟨s₀, h₀, hs⟩
    exact ⟨hw, _, ⟨_, ⟨_, ⟨b₁, h₁, b₂, h₂, rfl⟩, b₃, h₃, rfl⟩, b₄, h₄, rfl⟩, _, h₅, by simp⟩
  · rintro ⟨hw, _, ⟨_, ⟨_, ⟨b₁, h₁, b₂, h₂, rfl⟩, b₃, h₃, rfl⟩, b₄, h₄, rfl⟩, b₅, h₅, rfl⟩
    obtain ⟨s₀, h₀, hs⟩ := (QuoteSnapshot.new_eq_ok _ _ _ _ _ s).2 ⟨rfl, rfl, rfl, rfl, rfl⟩
    exact ⟨_, b₁, _, h₁, ⟨_, b₂, _, h₂, ⟨_, b₃, _, h₃, ⟨_, b₄, _, h₄, ⟨s₀, _, b₅, ⟨h₀, rfl⟩,
      ⟨_, ⟨hw, h₅⟩, hs⟩, rfl⟩, rfl⟩, rfl⟩, rfl⟩, by simp⟩

theorem decodes_bookSnapshot :
    Decodes bookSnapshot (fun s => s.marketSignal.Sat MarketSignal.WellFormed)
    fun s => encodePayload (.bookSnapshot s) := by
  refine (Reads.bind reads_book fun b => Reads.bind reads_annotations fun a =>
    Reads.bindPure (decodes_observation decodes_marketSignal)
      (BookSnapshot.new b a).withMarketSignal).congr fun s bs => ?_
  simp only [encodePayload, append_eq_ok]
  constructor
  · rintro ⟨b, b₁, _, h₁, ⟨a, b₂, b₃, h₂, ⟨m, ⟨hw, h₃⟩, rfl⟩, rfl⟩, rfl⟩
    exact ⟨hw, _, ⟨b₁, h₁, b₂, h₂, rfl⟩, b₃, h₃, by simp⟩
  · rintro ⟨hw, _, ⟨b₁, h₁, b₂, h₂, rfl⟩, b₃, h₃, rfl⟩
    exact ⟨s.book, b₁, _, h₁,
      ⟨s.annotations, b₂, b₃, h₂, ⟨s.marketSignal, ⟨hw, h₃⟩, rfl⟩, rfl⟩, by simp⟩

theorem decodes_marketStatus :
    Decodes marketStatus (fun s => s.marketSignal.Sat MarketSignal.WellFormed)
    fun s => encodePayload (.marketStatus s) := by
  refine (Reads.bind (reads_observation reads_volume) fun v => Reads.bind reads_annotations fun a =>
    Reads.bindPure (decodes_observation decodes_marketSignal)
      (MarketStatusObservation.new v a).withMarketSignal).congr fun s bs => ?_
  simp only [encodePayload, append_eq_ok]
  constructor
  · rintro ⟨v, b₁, _, h₁, ⟨a, b₂, b₃, h₂, ⟨m, ⟨hw, h₃⟩, rfl⟩, rfl⟩, rfl⟩
    exact ⟨hw, _, ⟨b₁, h₁, b₂, h₂, rfl⟩, b₃, h₃, by simp⟩
  · rintro ⟨hw, _, ⟨b₁, h₁, b₂, h₂, rfl⟩, b₃, h₃, rfl⟩
    exact ⟨s.cumulativeVolume, b₁, _, h₁,
      ⟨s.annotations, b₂, b₃, h₂, ⟨s.marketSignal, ⟨hw, h₃⟩, rfl⟩, rfl⟩, by simp⟩

theorem decodes_indicativeAuction : Decodes indicativeAuction (fun s => s.observation.WellFormed)
    fun s => encodePayload (.indicativeAuction s) := by
  refine (Reads.bind decodes_auctionObservation fun o =>
    Reads.bind (reads_observation reads_price) fun p =>
    Reads.bind (reads_observation reads_quantity) fun q =>
      Reads.bind (reads_observation reads_book) fun b =>
    Reads.bind (reads_observation reads_volume) fun v => Reads.bind reads_annotations fun a =>
    reads_validated (IndicativeAuction.new o p q b v a)).congr fun s bs => ?_
  simp only [encodePayload, IndicativeAuction.appendCanonical, append_eq_ok,
    IndicativeAuction.new_eq_ok]
  constructor
  · rintro ⟨o, b₁, _, ⟨hw, h₁⟩,
      ⟨p, b₂, _, h₂, ⟨q, b₃, _, h₃, ⟨b, b₄, _, h₄, ⟨v, b₅, _, h₅, ⟨a, b₆, _, h₆,
      ⟨⟨rfl, rfl, rfl, rfl, rfl, rfl⟩, rfl⟩, rfl⟩, rfl⟩, rfl⟩, rfl⟩, rfl⟩, rfl⟩
    exact ⟨hw, _, ⟨_, ⟨_, ⟨_, ⟨b₁, h₁, b₂, h₂, rfl⟩, b₃, h₃, rfl⟩, b₄, h₄, rfl⟩, b₅, h₅, rfl⟩, b₆,
      h₆, by simp⟩
  · rintro ⟨hw, _, ⟨_, ⟨_, ⟨_, ⟨b₁, h₁, b₂, h₂, rfl⟩, b₃, h₃, rfl⟩, b₄, h₄, rfl⟩, b₅, h₅, rfl⟩,
      b₆, h₆, rfl⟩
    exact ⟨_, b₁, _, ⟨hw, h₁⟩,
      ⟨_, b₂, _, h₂, ⟨_, b₃, _, h₃, ⟨_, b₄, _, h₄, ⟨_, b₅, _, h₅, ⟨_, b₆, _, h₆,
      ⟨⟨rfl, rfl, rfl, rfl, rfl, rfl⟩, rfl⟩, rfl⟩, rfl⟩, rfl⟩, rfl⟩, rfl⟩, by simp⟩

/-- The payload of a trade batch after its count. -/
def encodeBatchBody (s : TradeBatch) : Encoding :=
  encodeAll ObservedTrade.appendCanonical s.trades ++ (.ok [s.tradeOrder.discriminant] ++
    (s.cumulativeVolume.appendCanonical Volume.appendCanonical ++ (s.annotations.appendCanonical ++
      s.marketSignal.appendCanonical MarketSignal.appendCanonical)))

theorem reads_tradeBatchBody (n : ℕ) : Reads (tradeBatchBody n) fun s b =>
    s.trades.length = n ∧ s.marketSignal.Sat MarketSignal.WellFormed ∧
    encodeBatchBody s = .ok b := by
  refine (Reads.bind (Reads.replicate reads_trade n) fun t => Reads.bind reads_tradeOrder fun o =>
    Reads.bind (reads_observation reads_volume) fun v => Reads.bind reads_annotations fun a =>
    Reads.bind (reads_validated (TradeBatch.new t o v a)) fun s₀ =>
    Reads.bindPure (decodes_observation decodes_marketSignal) s₀.withMarketSignal).congr
      fun s bs => ?_
  simp only [encodeBatchBody, append_eq_ok, Except.ok.injEq]
  constructor
  · rintro ⟨t, b₁, _, ⟨hn, h₁⟩, ⟨o, _, _, rfl, ⟨v, b₃, _, h₃, ⟨a, b₄, _, h₄, ⟨s₀, _, b₅, ⟨h₀, rfl⟩,
      ⟨m, ⟨hw, h₅⟩, hs⟩, rfl⟩, rfl⟩, rfl⟩, rfl⟩, rfl⟩
    obtain ⟨rfl, rfl, rfl, rfl, rfl⟩ := (TradeBatch.new_eq_ok t o v a m s).1 ⟨s₀, h₀, hs⟩
    exact ⟨hn, hw, b₁, h₁, _, ⟨_, rfl, _, ⟨b₃, h₃, _, ⟨b₄, h₄, _, h₅, rfl⟩, rfl⟩, rfl⟩, by simp⟩
  · rintro ⟨hn, hw, b₁, h₁, _, ⟨_, rfl, _, ⟨b₃, h₃, _, ⟨b₄, h₄, b₅, h₅, rfl⟩, rfl⟩, rfl⟩, rfl⟩
    obtain ⟨s₀, h₀, hs⟩ := (TradeBatch.new_eq_ok _ _ _ _ _ s).2 ⟨rfl, rfl, rfl, rfl, rfl⟩
    exact ⟨_, b₁, _, ⟨hn, h₁⟩, ⟨_, _, _, rfl, ⟨_, b₃, _, h₃, ⟨_, b₄, _, h₄, ⟨s₀, _, b₅, ⟨h₀, rfl⟩,
      ⟨_, ⟨hw, h₅⟩, hs⟩, rfl⟩, rfl⟩, rfl⟩, rfl⟩, by simp⟩

theorem length_trade (t : ObservedTrade) (b : List UInt8) (h : t.appendCanonical = .ok b) :
    b.length = canonicalTradeBytes := by
  obtain rfl := Except.ok.inj h
  simp [Price.toCanonicalBytes, Decimal.toCanonicalBytes, Quantity.toCanonicalBytes,
    length_ofSigned, length_ofUnsigned, canonicalTradeBytes]

theorem observation_length_pos {α : Type} {enc : α → Encoding} (o : Observation α) (b : List UInt8)
    (h : o.appendCanonical enc = .ok b) : 1 ≤ b.length := by
  obtain ⟨b₁, h₁, b₂, -, rfl⟩ := (append_eq_ok _ _ _).1 h
  obtain rfl := Except.ok.inj h₁
  simp

/-- The bound that the decoder puts on the trade count never refuses a batch that would decode. -/
theorem tradeBatch_count_fits (s : TradeBatch) (b : List UInt8)
    (h : encodeBatchBody s = .ok b) (n : ℕ) (hn : b.length ≤ n) : s.trades.length ≤
      (n - minTradeBatchSuffixBytes) / canonicalTradeBytes := by
  simp only [encodeBatchBody, append_eq_ok, Except.ok.injEq] at h
  obtain ⟨b₁, h₁, _, ⟨_, rfl, _, ⟨b₃, h₃, _, ⟨b₄, h₄, b₅, h₅, rfl⟩, rfl⟩, rfl⟩, rfl⟩ := h
  have hlen := length_encodeAll canonicalTradeBytes length_trade s.trades b₁ h₁
  have hv := observation_length_pos _ _ h₃
  have hm := observation_length_pos _ _ h₅
  rw [Nat.le_div_iff_mul_le (by decide)]
  simp only [List.length_append, List.length_cons, List.length_nil] at hn
  unfold minTradeBatchSuffixBytes
  omega

theorem decodes_tradeBatch :
    Decodes tradeBatch (fun s => s.marketSignal.Sat MarketSignal.WellFormed)
    fun s => encodePayload (.tradeBatch s) := by
  refine (Reads.bind reads_u32 fun count =>
    Reads.checked (reads_tradeBatchBody count.val) _ _ ?_).congr fun s b => ?_
  · rintro s b ⟨hcount, -, hbody⟩ n hn
    rw [← hcount]
    exact tradeBatch_count_fits s b hbody n hn
  · have henc : encodePayload (.tradeBatch s) =
        appendLength s.trades.length ++ encodeBatchBody s := by
      simp only [encodePayload, encodeBatchBody, encoded_append_assoc]
    simp only [henc, append_eq_ok, appendLength_eq_ok]
    constructor
    · rintro ⟨count, _, b₂, rfl, ⟨hcount, hw, hbody⟩, rfl⟩
      exact ⟨hw, _, ⟨count, hcount.symm, rfl⟩, b₂, hbody, rfl⟩
    · rintro ⟨hw, _, ⟨count, hcount, rfl⟩, b₂, hbody, rfl⟩
      exact ⟨count, _, b₂, rfl, ⟨hcount.symm, hw, hbody⟩, rfl⟩

theorem decodes_payload : Decodes payload EventPayload.AuctionsWellFormed
    fun p => .ok [p.discriminant] ++ encodePayload p := by
  refine Decodes.tagged _ _ reads_u8 (fun _ => rfl) fun t => ?_
  split
  · refine (Reads.bindPure decodes_quoteSnapshot EventPayload.quoteSnapshot).congr fun p b => ?_
    cases p <;> simp [EventPayload.discriminant, EventPayload.kind, EventKind.discriminant,
      EventPayload.AuctionsWellFormed]
  · refine (Reads.bindPure decodes_bookSnapshot EventPayload.bookSnapshot).congr fun p b => ?_
    cases p <;> simp [EventPayload.discriminant, EventPayload.kind, EventKind.discriminant,
      EventPayload.AuctionsWellFormed]
  · refine (Reads.bindPure decodes_tradeBatch EventPayload.tradeBatch).congr fun p b => ?_
    cases p <;> simp [EventPayload.discriminant, EventPayload.kind, EventKind.discriminant,
      EventPayload.AuctionsWellFormed]
  · refine (Reads.bindPure decodes_indicativeAuction EventPayload.indicativeAuction).congr
      fun p b => ?_
    cases p <;> simp [EventPayload.discriminant, EventPayload.kind, EventKind.discriminant,
      EventPayload.AuctionsWellFormed]
  · refine (Reads.bindPure decodes_marketStatus EventPayload.marketStatus).congr fun p b => ?_
    cases p <;> simp [EventPayload.discriminant, EventPayload.kind, EventKind.discriminant,
      EventPayload.AuctionsWellFormed]
  · refine (Reads.fail _).congr fun p b => ?_
    cases p <;> simp_all
      [EventPayload.discriminant, EventPayload.kind, EventKind.discriminant, eq_comm]

theorem reads_expectHeader {α : Type} [DecidableEq α] {p : CanonicalParser α}
    {bytes : α → List UInt8} (hp : Reads p fun a b => b = bytes a) (v : α) :
    Reads (expectHeader p v) fun _ b => b = bytes v := by
  refine (Reads.bind hp fun x => Reads.lift (ensure (x = v) _)).congr fun _ b => ?_
  simp only [ensure_eq_ok]
  constructor
  · rintro ⟨x, _, _, rfl, ⟨rfl, rfl⟩, rfl⟩; simp
  · rintro rfl; exact ⟨v, _, _, rfl, ⟨rfl, rfl⟩, by simp⟩

def headerBytes : List UInt8 :=
  canonicalMagic ++ ofUnsigned 2 canonicalEventVersion ++ ofUnsigned 2 eventSchemaVersion

theorem reads_header : Reads header fun _ b => b = headerBytes := by
  have hmagic : Reads (expectHeader (take 4) canonicalMagic) fun _ b => b = canonicalMagic := by
    refine (Reads.bind (reads_take 4) fun x => Reads.lift (ensure (x = canonicalMagic) _)).congr
      fun _ b => ?_
    simp only [ensure_eq_ok]
    constructor
    · rintro ⟨x, _, _, ⟨rfl, -⟩, ⟨rfl, rfl⟩, rfl⟩; simp
    · rintro rfl; exact ⟨canonicalMagic, _, _, ⟨rfl, rfl⟩, ⟨rfl, rfl⟩, by simp⟩
  refine (Reads.bind hmagic fun _ =>
    Reads.bind (reads_expectHeader reads_u16 canonicalEventVersion) fun _ =>
    reads_expectHeader reads_u16 eventSchemaVersion).congr fun _ b => ?_
  constructor
  · rintro ⟨_, _, _, rfl, ⟨_, _, _, rfl, rfl, rfl⟩, rfl⟩; simp [headerBytes]
  · rintro rfl; exact ⟨(), _, _, rfl, ⟨(), _, _, rfl, rfl, rfl⟩, by simp [headerBytes]⟩

theorem marketId_fromDiscriminant_eq_ok (t : UInt8) (m : MarketId) :
    MarketId.fromDiscriminant t = .ok m ↔ t = m.discriminant := by
  constructor
  · intro h
    unfold MarketId.fromDiscriminant at h
    split at h <;> cases h <;> rfl
  · rintro rfl
    cases m <;> rfl

/-- The frame in the order in which it is read. -/
theorem toCanonicalBytes_eq_ok (e : DomainEvent) (b : List UInt8) :
    e.toCanonicalBytes = .ok b ↔ e.matchTime.isUtcIso8601Representable = true ∧
      ∃ sym, appendBytes e.instrument.symbol.text.bytes = .ok sym ∧
      ∃ src, appendBytes e.sourceFormat.text.bytes = .ok src ∧
      ∃ seq, appendOptionalU64 e.sourceSequence = .ok seq ∧
      ∃ pay, .ok [e.payload.discriminant] ++ encodePayload e.payload = .ok pay ∧
      b = headerBytes ++
        ([e.instrument.market.discriminant] ++ (sym ++ (ofSigned 4 e.tradingDate.epochDays ++
        (src ++ (ofSigned 8 e.matchTime.unixMicroseconds ++ (seq ++ pay)))))) := by
  unfold DomainEvent.toCanonicalBytes
  split_ifs with h
  · simp [h]
  · have hrep : e.matchTime.isUtcIso8601Representable = true := by simpa using h
    simp only [append_eq_ok, Except.ok.injEq, TradingDate.toCanonicalBytes, headerBytes]
    constructor
    · rintro ⟨_, ⟨_, ⟨_, ⟨_, ⟨_, ⟨_, ⟨_, ⟨_, ⟨_, ⟨_, rfl, _, rfl, rfl⟩, _, rfl, rfl⟩, _, rfl, rfl⟩,
        sym, hsym, rfl⟩, _, rfl, rfl⟩, src, hsrc, rfl⟩, _, rfl, rfl⟩, seq, hseq, rfl⟩, _, rfl, rfl⟩,
        pay, hpay, rfl⟩
      exact ⟨hrep, sym, hsym, src, hsrc, seq, hseq, _, ⟨_, rfl, pay, hpay, rfl⟩, by simp⟩
    · rintro ⟨-, sym, hsym, src, hsrc, seq, hseq, _, ⟨_, rfl, pay, hpay, rfl⟩, rfl⟩
      exact ⟨_, ⟨_, ⟨_, ⟨_, ⟨_, ⟨_, ⟨_, ⟨_, ⟨_, ⟨_, rfl, _, rfl, rfl⟩, _, rfl, rfl⟩, _, rfl, rfl⟩,
        sym, hsym, rfl⟩, _, rfl, rfl⟩, src, hsrc, rfl⟩, _, rfl, rfl⟩, seq, hseq, rfl⟩, _, rfl, rfl⟩,
        pay, hpay, by simp⟩

theorem reads_sourceSequence : Reads (option u64) fun a b => appendOptionalU64 a = .ok b := by
  refine (reads_option reads_u64).congr fun a b => ?_
  cases a <;> rfl

/-- The decoder accepts exactly the encodings of events with well-formed auctions. -/
theorem decodes_event :
    Decodes event DomainEvent.AuctionsWellFormed DomainEvent.toCanonicalBytes := by
  refine (Reads.bind reads_header fun _ =>
    Reads.bind reads_u8 fun t =>
      Reads.bind (reads_validated (MarketId.fromDiscriminant t)) fun market =>
    Reads.bind reads_string fun s => Reads.bind (reads_validated (Symbol.new s)) fun symbol =>
    Reads.bind reads_i32 fun d =>
      Reads.bind (reads_validated (TradingDate.fromEpochDays d)) fun date =>
    Reads.bind reads_string fun f =>
      Reads.bind (reads_validated (SourceFormatId.new f)) fun source =>
    Reads.bind reads_i64 fun us => Reads.bind (Reads.lift (ensure _ _)) fun _ =>
    Reads.bind reads_sourceSequence fun seq => Reads.bindPure decodes_payload fun pay =>
      (⟨⟨market, symbol⟩, date, source, ⟨us⟩, seq, pay⟩ : DomainEvent)).congr fun e b => ?_
  simp only [marketId_fromDiscriminant_eq_ok, Symbol.new_eq_ok, TradingDate.fromEpochDays_eq_ok,
    SourceFormatId.new_eq_ok, ensure_eq_ok, toCanonicalBytes_eq_ok]
  constructor
  · rintro ⟨_, _, _, rfl, h, h₁₂⟩
    obtain ⟨_, _, _, rfl, h, h₁₁⟩ := h
    obtain ⟨market, _, _, ⟨rfl, rfl⟩, h, h₁₀⟩ := h
    obtain ⟨_, sym, _, hsym, h, h₉⟩ := h
    obtain ⟨symbol, _, _, ⟨rfl, rfl⟩, h, h₈⟩ := h
    obtain ⟨_, _, _, rfl, h, h₇⟩ := h
    obtain ⟨date, _, _, ⟨rfl, rfl⟩, h, h₆⟩ := h
    obtain ⟨_, src, _, hsrc, h, h₅⟩ := h
    obtain ⟨source, _, _, ⟨rfl, rfl⟩, h, h₄⟩ := h
    obtain ⟨us, _, _, rfl, h, h₃⟩ := h
    obtain ⟨_, _, _, ⟨hrep, rfl⟩, h, h₂⟩ := h
    obtain ⟨seq, sb, pb, hseq, ⟨pay, ⟨hw, hpay⟩, rfl⟩, h₁⟩ := h
    refine ⟨hw, hrep, sym, hsym, src, hsrc, sb, hseq, pb, hpay, ?_⟩
    simp only [h₁₂, h₁₁, h₁₀, h₉, h₈, h₇, h₆, h₅, h₄, h₃, h₂, h₁, List.nil_append]
  · rintro ⟨hw, hrep, sym, hsym, src, hsrc, sb, hseq, pb, hpay, hb⟩
    exact ⟨(), _, _, rfl,
      ⟨_, _, _, rfl, ⟨_, _, _, ⟨rfl, rfl⟩, ⟨_, sym, _, hsym, ⟨_, _, _, ⟨rfl, rfl⟩,
      ⟨_, _, _, rfl, ⟨_, _, _, ⟨rfl, rfl⟩, ⟨_, src, _, hsrc, ⟨_, _, _, ⟨rfl, rfl⟩, ⟨_, _, _, rfl,
      ⟨(), _, _, ⟨hrep, rfl⟩, ⟨_, sb, pb, hseq, ⟨e.payload, ⟨hw, hpay⟩, rfl⟩, rfl⟩, rfl⟩, rfl⟩,
      rfl⟩, rfl⟩, rfl⟩, rfl⟩, rfl⟩, rfl⟩, rfl⟩, rfl⟩, by simp [hb]⟩

end CanonicalParser

section Unique
open CanonicalParser

theorem auctionObservation_prefixFree : PrefixFree fun (o : AuctionObservation) b =>
    o.appendCanonical = .ok b :=
  (((reads_auctionPurpose.prefixFree.seq reads_auctionBool.prefixFree).seq
    reads_auctionBool.prefixFree).seq reads_auctionDirection.prefixFree).comap
    (fun o : AuctionObservation => (((o.purpose, o.delayed), o.disposal), o.direction))
    fun a b h => by
      simp only [Prod.mk.injEq] at h
      exact AuctionObservation.ext h.1.1.1 h.1.1.2 h.1.2 h.2

theorem marketSignal_prefixFree :
    PrefixFree fun (s : MarketSignal) b => s.appendCanonical = .ok b := by
  refine PrefixFree.tagged MarketSignal.discriminant _ (fun _ => rfl)
    fun a a' htag b b' r r' h h' heq => ?_
  cases a <;> cases a' <;> simp [MarketSignal.discriminant] at htag
  case continuous.continuous => simp_all
  case closed.closed => simp_all
  case auctionCollecting.auctionCollecting o o' =>
    obtain ⟨rfl, hb, hr⟩ := auctionObservation_prefixFree o o' b b' r r' h h' heq
    exact ⟨rfl, hb, hr⟩
  case auctionUncross.auctionUncross o o' =>
    obtain ⟨rfl, hb, hr⟩ := auctionObservation_prefixFree o o' b b' r r' h h' heq
    exact ⟨rfl, hb, hr⟩

theorem observation_prefixFree {α : Type} {enc : α → Encoding}
    (henc : PrefixFree fun a b => enc a = .ok b) :
    PrefixFree fun (o : Observation α) b => o.appendCanonical enc = .ok b := by
  refine PrefixFree.tagged Observation.discriminant _ (fun _ => rfl)
    fun a a' htag b b' r r' h h' heq => ?_
  cases a <;> cases a' <;> simp [Observation.discriminant] at htag
  case noObservation.noObservation => simp_all
  case clear.clear => simp_all
  case set.set v v' =>
    obtain ⟨rfl, hb, hr⟩ := henc v v' b b' r r' h h' heq
    exact ⟨rfl, hb, hr⟩
  case unknown.unknown v v' =>
    obtain ⟨rfl, hb, hr⟩ := reads_unknown.prefixFree v v' b b' r r' h h' heq
    exact ⟨rfl, hb, hr⟩

theorem signal_prefixFree :
    PrefixFree fun (o : Observation MarketSignal) b =>
      o.appendCanonical MarketSignal.appendCanonical = .ok b :=
  observation_prefixFree marketSignal_prefixFree

theorem quoteSnapshot_prefixFree :
    PrefixFree fun (s : QuoteSnapshot) b => encodePayload (.quoteSnapshot s) = .ok b :=
  ((((reads_book.prefixFree.seq (reads_observation reads_trade).prefixFree).seq
    (reads_observation reads_volume).prefixFree).seq reads_annotations.prefixFree).seq
      signal_prefixFree).comap
    (fun s : QuoteSnapshot =>
      ((((s.book, s.trade), s.cumulativeVolume), s.annotations), s.marketSignal))
    fun a b h => by
      simp only [Prod.mk.injEq] at h
      exact QuoteSnapshot.ext h.1.1.1.1 h.1.1.1.2 h.1.1.2 h.1.2 h.2

theorem bookSnapshot_prefixFree :
    PrefixFree fun (s : BookSnapshot) b => encodePayload (.bookSnapshot s) = .ok b :=
  ((reads_book.prefixFree.seq reads_annotations.prefixFree).seq signal_prefixFree).comap
    (fun s : BookSnapshot => ((s.book, s.annotations), s.marketSignal))
    fun a b h => by
      simp only [Prod.mk.injEq] at h
      exact BookSnapshot.ext h.1.1 h.1.2 h.2

theorem marketStatus_prefixFree :
    PrefixFree fun (s : MarketStatusObservation) b => encodePayload (.marketStatus s) = .ok b :=
  (((reads_observation reads_volume).prefixFree.seq reads_annotations.prefixFree).seq
    signal_prefixFree).comap
    (fun s : MarketStatusObservation => ((s.cumulativeVolume, s.annotations), s.marketSignal))
    fun a b h => by
      simp only [Prod.mk.injEq] at h
      exact MarketStatusObservation.ext h.1.1 h.1.2 h.2

theorem indicativeAuction_prefixFree :
    PrefixFree fun (s : IndicativeAuction) b => encodePayload (.indicativeAuction s) = .ok b :=
  (((((auctionObservation_prefixFree.seq (reads_observation reads_price).prefixFree).seq
    (reads_observation reads_quantity).prefixFree).seq
      (reads_observation reads_book).prefixFree).seq
    (reads_observation reads_volume).prefixFree).seq reads_annotations.prefixFree).comap
    (fun s : IndicativeAuction =>
      (((((s.observation, s.price), s.quantity), s.book), s.cumulativeVolume), s.annotations))
    fun a b h => by
      simp only [Prod.mk.injEq] at h
      exact IndicativeAuction.ext h.1.1.1.1.1 h.1.1.1.1.2 h.1.1.1.2 h.1.1.2 h.1.2 h.2

/-- A length prefix and the values it counts. -/
theorem counted_prefixFree {α : Type} {enc : α → Encoding}
    (henc : PrefixFree fun a b => enc a = .ok b) :
    PrefixFree fun (l : List α) b => appendLength l.length ++ encodeAll enc l = .ok b := by
  intro l l' b b' r r' h h' heq
  simp only [append_eq_ok, appendLength_eq_ok] at h h'
  obtain ⟨_, ⟨c, hc, rfl⟩, b₂, h₂, rfl⟩ := h
  obtain ⟨_, ⟨c', hc', rfl⟩, b₂', h₂', rfl⟩ := h'
  simp only [List.append_assoc] at heq
  obtain ⟨rfl, -, hrest⟩ := reads_u32.prefixFree c c' _ _ _ _ rfl rfl heq
  obtain ⟨rfl, rfl, rfl⟩ := henc.encodeAll (hc.symm.trans hc') h₂ h₂' hrest
  exact ⟨rfl, rfl, rfl⟩

theorem trades_prefixFree : PrefixFree fun (l : List ObservedTrade) b =>
    appendLength l.length ++ encodeAll ObservedTrade.appendCanonical l = .ok b :=
  counted_prefixFree reads_trade.prefixFree

theorem tradeBatch_prefixFree :
    PrefixFree fun (s : TradeBatch) b => encodePayload (.tradeBatch s) = .ok b := by
  have horder : PrefixFree fun (o : TradeBatchOrdering) b =>
      (.ok [o.discriminant] : Encoding) = .ok b :=
    (reads_tradeOrder.congr fun o b => by rw [Except.ok.injEq, eq_comm]).prefixFree
  exact ((((trades_prefixFree.seq horder).seq (reads_observation reads_volume).prefixFree).seq
    reads_annotations.prefixFree).seq signal_prefixFree).comap
    (fun s : TradeBatch =>
      ((((s.trades, s.tradeOrder), s.cumulativeVolume), s.annotations), s.marketSignal))
    fun a b h => by
      simp only [Prod.mk.injEq] at h
      exact TradeBatch.ext h.1.1.1.1 h.1.1.1.2 h.1.1.2 h.1.2 h.2

theorem payload_prefixFree :
    PrefixFree fun (p : EventPayload) b => .ok [p.discriminant] ++ encodePayload p = .ok b := by
  refine PrefixFree.tagged _ _ (fun _ => rfl) fun p p' htag b b' r r' h h' heq => ?_
  cases p <;> cases p' <;>
    simp [EventPayload.discriminant, EventPayload.kind, EventKind.discriminant] at htag
  case quoteSnapshot.quoteSnapshot s s' =>
    obtain ⟨rfl, hb, hr⟩ := quoteSnapshot_prefixFree s s' b b' r r' h h' heq
    exact ⟨rfl, hb, hr⟩
  case bookSnapshot.bookSnapshot s s' =>
    obtain ⟨rfl, hb, hr⟩ := bookSnapshot_prefixFree s s' b b' r r' h h' heq
    exact ⟨rfl, hb, hr⟩
  case tradeBatch.tradeBatch s s' =>
    obtain ⟨rfl, hb, hr⟩ := tradeBatch_prefixFree s s' b b' r r' h h' heq
    exact ⟨rfl, hb, hr⟩
  case indicativeAuction.indicativeAuction s s' =>
    obtain ⟨rfl, hb, hr⟩ := indicativeAuction_prefixFree s s' b b' r r' h h' heq
    exact ⟨rfl, hb, hr⟩
  case marketStatus.marketStatus s s' =>
    obtain ⟨rfl, hb, hr⟩ := marketStatus_prefixFree s s' b b' r r' h h' heq
    exact ⟨rfl, hb, hr⟩

/-- No frame the encoder writes starts another one, whether or not the decoder accepts it. -/
theorem event_prefixFree : PrefixFree fun (e : DomainEvent) b => e.toCanonicalBytes = .ok b := by
  intro e e' b b' r r' h h' hall
  obtain ⟨-, sym, hsym, src, hsrc, seq, hseq, pay, hpay, hb⟩ := (toCanonicalBytes_eq_ok e b).1 h
  obtain ⟨-, sym', hsym', src', hsrc', seq', hseq', pay', hpay', hb'⟩ :=
    (toCanonicalBytes_eq_ok e' b').1 h'
  have heq := hall
  simp only [hb, hb', List.append_assoc, List.append_cancel_left_eq] at heq
  obtain ⟨hmarket, -, heq⟩ := reads_u8.prefixFree _ _ _ _ _ _ rfl rfl heq
  obtain ⟨hsymbol, -, heq⟩ := reads_string.prefixFree _ _ _ _ _ _ hsym hsym' heq
  obtain ⟨hdate, -, heq⟩ := reads_i32.prefixFree _ _ _ _ _ _ rfl rfl heq
  obtain ⟨hsource, -, heq⟩ := reads_string.prefixFree _ _ _ _ _ _ hsrc hsrc' heq
  obtain ⟨htime, -, heq⟩ := reads_i64.prefixFree _ _ _ _ _ _ rfl rfl heq
  obtain ⟨hsequence, -, heq⟩ := reads_sourceSequence.prefixFree _ _ _ _ _ _ hseq hseq' heq
  obtain ⟨hpayload, -, -⟩ := payload_prefixFree _ _ _ _ _ _ hpay hpay' heq
  obtain rfl : e = e' := DomainEvent.ext
    (InstrumentId.ext (MarketId.discriminant_injective hmarket) (Symbol.ext hsymbol))
      (TradingDate.ext hdate)
    (SourceFormatId.ext hsource) (MatchTime.ext htime) hsequence hpayload
  obtain rfl : b = b' := Except.ok.inj (h.symm.trans h')
  exact ⟨rfl, rfl, List.append_cancel_left hall⟩

end Unique

section Fits

/-- Values whose length prefix fits 32 bits. -/
def UnknownValue.Fits : UnknownValue → Prop
  | .text value => value.bytes.length < 2 ^ 32
  | .bytes value => value.length < 2 ^ 32
  | _ => True

def Observation.Fits {α : Type} : Observation α → Prop
  | .unknown value => value.Fits
  | _ => True

def EventPayload.Fits : EventPayload → Prop
  | .quoteSnapshot s => s.trade.Fits ∧ s.cumulativeVolume.Fits ∧ s.marketSignal.Fits
  | .bookSnapshot s => s.marketSignal.Fits
  | .tradeBatch s => s.trades.length < 2 ^ 32 ∧ s.cumulativeVolume.Fits ∧ s.marketSignal.Fits
  | .indicativeAuction s => s.price.Fits ∧ s.quantity.Fits ∧ s.book.Fits ∧ s.cumulativeVolume.Fits
  | .marketStatus s => s.cumulativeVolume.Fits ∧ s.marketSignal.Fits

/-- The match time has a four-digit ISO-8601 year, and every text, byte value and trade list fits
its 32-bit length. -/
def DomainEvent.Fits (e : DomainEvent) : Prop :=
  e.matchTime.isUtcIso8601Representable = true ∧ e.instrument.symbol.text.bytes.length < 2 ^ 32 ∧
    e.sourceFormat.text.bytes.length < 2 ^ 32 ∧ e.payload.Fits

theorem exists_appendLength (n : ℕ) : (∃ b, appendLength n = .ok b) ↔ n < 2 ^ 32 := by
  simp only [CanonicalParser.appendLength_eq_ok]
  constructor
  · rintro ⟨_, c, rfl, -⟩; exact c.lt
  · intro h; exact ⟨_, ⟨n, h⟩, rfl, rfl⟩

theorem exists_ok (b : List UInt8) : (∃ b', (.ok b : Encoding) = .ok b') ↔ True := by simp

theorem exists_appendBytes (l : List UInt8) : (∃ b, appendBytes l = .ok b) ↔ l.length < 2 ^ 32 := by
  rw [appendBytes, exists_append_eq_ok, exists_appendLength, exists_ok, and_true]

theorem exists_unknown (v : UnknownValue) : (∃ b, v.appendCanonical = .ok b) ↔ v.Fits := by
  unfold UnknownValue.appendCanonical
  rw [exists_append_eq_ok, exists_ok, true_and]
  cases v <;> simp only [UnknownValue.Fits, exists_ok, exists_appendBytes]

theorem exists_observation {α : Type} {enc : α → Encoding} (henc : ∀ a, ∃ b, enc a = .ok b)
    (o : Observation α) :
    (∃ b, o.appendCanonical enc = .ok b) ↔ o.Fits := by
  unfold Observation.appendCanonical
  rw [exists_append_eq_ok, exists_ok, true_and]
  cases o <;> simp only [Observation.Fits, exists_ok, exists_unknown, henc]

theorem exists_appendOption {α : Type} (bytes : α → List UInt8) (o : Option α) :
    ∃ b, appendOption bytes o = .ok b := by
  cases o <;> exact ⟨_, rfl⟩

theorem exists_encodeAll {α : Type} {enc : α → Encoding} (henc : ∀ a, ∃ b, enc a = .ok b)
    (l : List α) :
    ∃ b, encodeAll enc l = .ok b := by
  induction l with
  | nil => exact ⟨[], rfl⟩
  | cons a l ih => rw [encodeAll, exists_append_eq_ok]; exact ⟨henc a, ih⟩

theorem exists_book (book : CompleteBookSnapshot) : ∃ b, book.appendCanonical = .ok b := by
  simp only [CompleteBookSnapshot.appendCanonical, BookSide.appendCanonical, exists_append_eq_ok]
  exact ⟨⟨exists_appendOption _ _, exists_encodeAll (exists_appendOption _) _⟩,
    exists_appendOption _ _, exists_encodeAll (exists_appendOption _) _⟩

theorem exists_evidence {α : Type} (discriminant : α → UInt8) (e : AuctionEvidence α) :
    ∃ b, e.appendCanonical discriminant = .ok b := by
  cases e <;> exact ⟨_, rfl⟩

theorem exists_auctionObservation (o : AuctionObservation) : ∃ b, o.appendCanonical = .ok b := by
  simp only [AuctionObservation.appendCanonical, exists_append_eq_ok]
  exact ⟨⟨⟨exists_evidence _ _, exists_evidence _ _⟩, exists_evidence _ _⟩, exists_evidence _ _⟩

theorem exists_signal (s : MarketSignal) : ∃ b, s.appendCanonical = .ok b := by
  unfold MarketSignal.appendCanonical
  rw [exists_append_eq_ok, exists_ok, true_and]
  cases s <;> simp only [exists_ok, exists_auctionObservation]

theorem exists_payload (p : EventPayload) : (∃ b, encodePayload p = .ok b) ↔ p.Fits := by
  cases p with
  | quoteSnapshot s =>
    simp only [encodePayload, exists_append_eq_ok, exists_book, EventPayload.Fits,
      true_and, and_assoc,
      exists_observation (fun t => ⟨_, rfl⟩ : ∀ t : ObservedTrade, ∃ b, t.appendCanonical = .ok b),
      exists_observation (fun v => ⟨_, rfl⟩ : ∀ v : Volume, ∃ b, v.appendCanonical = .ok b),
      exists_observation exists_signal, MarketAnnotations.appendCanonical, exists_ok]
  | bookSnapshot s =>
    simp only [encodePayload, exists_append_eq_ok, exists_book, EventPayload.Fits, true_and,
      exists_observation exists_signal, MarketAnnotations.appendCanonical, exists_ok]
  | tradeBatch s =>
    simp only [encodePayload, exists_append_eq_ok, EventPayload.Fits, true_and, and_assoc,
      exists_appendLength,
      exists_encodeAll (fun t => ⟨_, rfl⟩ : ∀ t : ObservedTrade, ∃ b, t.appendCanonical = .ok b),
      exists_observation (fun v => ⟨_, rfl⟩ : ∀ v : Volume, ∃ b, v.appendCanonical = .ok b),
      exists_observation exists_signal, MarketAnnotations.appendCanonical, exists_ok]
  | indicativeAuction s =>
    simp only [encodePayload, IndicativeAuction.appendCanonical, exists_append_eq_ok,
      EventPayload.Fits, true_and, and_true, and_assoc, exists_auctionObservation,
      exists_observation (fun p => ⟨_, rfl⟩ : ∀ p : Price, ∃ b, p.appendCanonical = .ok b),
      exists_observation (fun q => ⟨_, rfl⟩ : ∀ q : Quantity, ∃ b, q.appendCanonical = .ok b),
      exists_observation exists_book,
      exists_observation (fun v => ⟨_, rfl⟩ : ∀ v : Volume, ∃ b, v.appendCanonical = .ok b),
      MarketAnnotations.appendCanonical, exists_ok]
  | marketStatus s =>
    simp only [encodePayload, exists_append_eq_ok, EventPayload.Fits, true_and, and_assoc,
      exists_observation (fun v => ⟨_, rfl⟩ : ∀ v : Volume, ∃ b, v.appendCanonical = .ok b),
      exists_observation exists_signal, MarketAnnotations.appendCanonical, exists_ok]

/-- The encoder refuses exactly the events that do not fit the frame. -/
theorem exists_event (e : DomainEvent) : (∃ b, e.toCanonicalBytes = .ok b) ↔ e.Fits := by
  unfold DomainEvent.toCanonicalBytes DomainEvent.Fits
  split_ifs with h
  · simp [h]
  · have hrep : e.matchTime.isUtcIso8601Representable = true := by simpa using h
    have hseq : ∃ b, appendOptionalU64 e.sourceSequence = .ok b := by
      cases e.sourceSequence <;> exact ⟨_, rfl⟩
    simp only [exists_append_eq_ok, exists_ok, exists_appendBytes, exists_payload, hseq,
      true_and, and_true, and_assoc, hrep]

end Fits

theorem fromCanonicalBytes_eq_ok (e : DomainEvent) (b : List UInt8) :
    DomainEvent.fromCanonicalBytes b = .ok e ↔
    e.AuctionsWellFormed ∧ e.toCanonicalBytes = .ok b := by
  have h : DomainEvent.fromCanonicalBytes b = .ok e ↔
      CanonicalParser.event.run b = .ok (e, []) := by
    unfold DomainEvent.fromCanonicalBytes
    cases hrun : CanonicalParser.event.run b with
    | error err => simp [bind, Except.bind]
    | ok v =>
      obtain ⟨e', rest⟩ := v
      simp only [bind, Except.bind]
      split_ifs with hrest
      · simp [hrest]
      · obtain rfl : rest = [] := not_not.1 hrest
        simp [pure, Except.pure]
  rw [h, CanonicalParser.decodes_event b e []]
  simp

/-- The event codec: what the encoder accepts, that decoding an encoding gives the event back
exactly when its auction observations are well formed, that decoding and encoding again gives the
bytes back, that no two events share an encoding, and that no accepted frame starts another accepted
frame. -/
theorem event_codec_bijection (e : DomainEvent) (b : List UInt8) :
    ((∃ b', e.toCanonicalBytes = .ok b') ↔ e.Fits) ∧
    (e.toCanonicalBytes = .ok b →
      (DomainEvent.fromCanonicalBytes b = .ok e ↔ e.AuctionsWellFormed)) ∧
    (DomainEvent.fromCanonicalBytes b = .ok e → e.toCanonicalBytes = .ok b) ∧
    (∀ e' : DomainEvent, e.toCanonicalBytes = .ok b → e'.toCanonicalBytes = .ok b → e = e') ∧
    (∀ (e' : DomainEvent) (b' : List UInt8), DomainEvent.fromCanonicalBytes b = .ok e →
      DomainEvent.fromCanonicalBytes b' = .ok e' → b <+: b' → b = b') := by
  refine ⟨exists_event e, fun h => ?_, fun h => ?_, fun e' h h' => ?_, fun e' b' h h' hpre => ?_⟩
  · rw [fromCanonicalBytes_eq_ok]
    exact and_iff_left h
  · exact ((fromCanonicalBytes_eq_ok e b).1 h).2
  · exact (event_prefixFree e e' b b [] [] h h' rfl).1
  · obtain ⟨r, rfl⟩ := hpre
    have hb := ((fromCanonicalBytes_eq_ok e b).1 h).2
    have hb' := ((fromCanonicalBytes_eq_ok e' _).1 h').2
    exact (event_prefixFree e e' b (b ++ r) r [] hb hb' (by simp)).2.1

/-- A volatility interruption's direction carried into an opening auction by `merge`. -/
def openingAfterInterruption : AuctionObservation :=
  (AuctionObservation.new .opening false false).merge (.volatilityInterruption .up false false)

def openingAfterInterruptionEvent : DomainEvent where
  instrument := ⟨.twse, ⟨⟨[50, 51, 51, 48], by decide⟩, by decide⟩⟩
  tradingDate := ⟨⟨20000, by decide, by decide⟩, by decide⟩
  sourceFormat := ⟨⟨[102], by decide⟩, by decide⟩
  matchTime := ⟨⟨1728000000000000, by decide, by decide⟩⟩
  sourceSequence := none
  payload := .marketStatus ((MarketStatusObservation.new .noObservation .none).withMarketSignal
    (.set (.auctionCollecting openingAfterInterruption)))

/-- The encoder writes this event and the decoder refuses what was written. -/
theorem opening_after_interruption_not_decoded :
    ∃ b, openingAfterInterruptionEvent.toCanonicalBytes = .ok b ∧
      DomainEvent.fromCanonicalBytes b = .error .invalidValue := by
  refine ⟨_, rfl, ?_⟩
  decide +kernel

end Osmium
