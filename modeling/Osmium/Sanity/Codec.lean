import Osmium.Spec.Canonical

/-! What each component parser of the canonical frame accepts, as one description per component:
exactly the bytes its encoder writes. The only component that accepts less than its encoder writes
is the auction observation, whose decoder goes through `fromParts`. -/

namespace Osmium
open Machine Bytes Codec Result

-- the descriptions below never look inside a fixed-width word
attribute [local irreducible] Bytes.ofUnsigned Bytes.ofSigned

namespace CanonicalParser

theorem reads_take (n : ℕ) : Reads (take n) fun a b => a = b ∧ b.length = n := Reads.take _ n

theorem reads_u8 : Reads u8 fun t b => b = [t] := by
  refine (Reads.bindPure (reads_take 1) fun l => l.headD 0).congr fun t b => ?_
  constructor
  · rintro ⟨l, ⟨rfl, hl⟩, rfl⟩
    obtain ⟨x, rfl⟩ := List.length_eq_one_iff.1 hl
    rfl
  · rintro rfl
    exact ⟨[t], ⟨rfl, rfl⟩, rfl⟩

theorem reads_unsigned {w : ℕ} (k : ℕ) (hk : 256 ^ k = 2 ^ w) :
    Reads (do return toUnsigned w (← take k)) fun a b => b = ofUnsigned k a := by
  refine (Reads.bindPure (reads_take k) (toUnsigned w)).congr fun a b => ?_
  constructor
  · rintro ⟨l, ⟨rfl, rfl⟩, rfl⟩
    rw [ofUnsigned_toUnsigned _ hk]
  · rintro rfl
    exact ⟨_, ⟨rfl, length_ofUnsigned k a⟩, toUnsigned_ofUnsigned k hk a⟩

theorem reads_signed {w : ℕ} (k : ℕ) (hw : 0 < w) (hk : 256 ^ k = 2 ^ w) :
    Reads (do return toSigned w (← take k)) fun a b => b = ofSigned k a := by
  refine (Reads.bindPure (reads_take k) (toSigned w)).congr fun a b => ?_
  constructor
  · rintro ⟨l, ⟨rfl, rfl⟩, rfl⟩
    rw [ofSigned_toSigned _ hk]
  · rintro rfl
    exact ⟨_, ⟨rfl, length_ofSigned k a⟩, toSigned_ofSigned k hw hk a⟩

theorem reads_u16 : Reads u16 fun a b => b = ofUnsigned 2 a := reads_unsigned 2 (by norm_num)
theorem reads_u32 : Reads u32 fun a b => b = ofUnsigned 4 a := reads_unsigned 4 (by norm_num)
theorem reads_u64 : Reads u64 fun a b => b = ofUnsigned 8 a := reads_unsigned 8 (by norm_num)
theorem reads_i32 : Reads i32 fun a b => b = ofSigned 4 a :=
  reads_signed 4 (by norm_num) (by norm_num)
theorem reads_i64 : Reads i64 fun a b => b = ofSigned 8 a :=
  reads_signed 8 (by norm_num) (by norm_num)
theorem reads_i128 : Reads i128 fun a b => b = ofSigned 16 a :=
  reads_signed 16 (by norm_num) (by norm_num)

theorem reads_validated {ε α : Type} (x : Except ε α) :
    Reads (validated x) fun a b => x = .ok a ∧ b = [] :=
  (Reads.lift _).congr fun a b => by rw [mapError_eq_ok]

theorem reads_present {α : Type} (x : Option α) :
    Reads (present x) fun a b => x = some a ∧ b = [] :=
  (Reads.lift _).congr fun a b => by rw [okOr_eq_ok]

theorem appendLength_eq_ok (n : ℕ) (b : List UInt8) :
    appendLength n = .ok b ↔ ∃ c : U32, c.val = n ∧ ofUnsigned 4 c = b := by
  simp [appendLength, Unsigned.ofNat?_eq_some]

theorem reads_bytes : Reads bytes fun a b => appendBytes a = .ok b := by
  refine (Reads.bind reads_u32 fun length => reads_take length.val).congr fun a b => ?_
  simp only [appendBytes, append_eq_ok, appendLength_eq_ok, Except.ok.injEq]
  constructor
  · rintro ⟨c, b₁, b₂, rfl, ⟨rfl, hlen⟩, rfl⟩
    exact ⟨_, ⟨c, hlen.symm, rfl⟩, _, rfl, rfl⟩
  · rintro ⟨b₁, ⟨c, hc, rfl⟩, b₂, rfl, rfl⟩
    exact ⟨c, _, _, rfl, ⟨rfl, hc.symm⟩, rfl⟩

theorem reads_string : Reads string fun a b => appendBytes a.bytes = .ok b := by
  refine (Reads.bind (S := fun value t b => value = t.bytes ∧ b = []) reads_bytes fun value =>
    ?_).congr fun t b => ?_
  · split_ifs with h
    · refine (Reads.pure _).congr fun t b => ?_
      rw [Text.ext_iff, eq_comm]
    · refine (Reads.fail _).congr fun t b => ?_
      simp only [false_iff, not_and]
      rintro rfl
      exact absurd t.utf8 h
  · constructor
    · rintro ⟨_, b₁, b₂, h, ⟨rfl, rfl⟩, rfl⟩
      simpa using h
    · intro h
      exact ⟨_, b, [], h, ⟨rfl, rfl⟩, by simp⟩

theorem reads_price : Reads price fun a b => a.appendCanonical = .ok b := by
  refine (Reads.bindPure reads_i128 fun v => (⟨⟨v⟩⟩ : Price)).congr fun a b => ?_
  simp only [Price.appendCanonical, Price.toCanonicalBytes, Decimal.toCanonicalBytes,
    Except.ok.injEq]
  constructor
  · rintro ⟨v, rfl, rfl⟩; rfl
  · rintro rfl; exact ⟨_, rfl, rfl⟩

theorem QuantityUnit.fromDiscriminant_eq_ok (t : UInt8) (u : QuantityUnit) :
    QuantityUnit.fromDiscriminant t = .ok u ↔ t = u.discriminant := by
  constructor
  · intro h
    unfold QuantityUnit.fromDiscriminant at h
    split at h <;> cases h <;> rfl
  · rintro rfl
    cases u <;> rfl

theorem reads_quantity : Reads quantity fun a b => a.appendCanonical = .ok b := by
  refine (Reads.bind reads_u8 fun t =>
    Reads.bind (reads_validated (QuantityUnit.fromDiscriminant t)) fun unit =>
    Reads.bind reads_u64 fun v => reads_validated (Quantity.new v unit)).congr fun q b => ?_
  simp only [QuantityUnit.fromDiscriminant_eq_ok, Quantity.new_eq_ok, Quantity.appendCanonical,
    Quantity.toCanonicalBytes, Except.ok.injEq]
  constructor
  · rintro ⟨t, _, _, rfl, ⟨u, _, _, ⟨rfl, rfl⟩, ⟨v, _, _, rfl, ⟨⟨rfl, rfl⟩, rfl⟩, rfl⟩, rfl⟩, rfl⟩
    simp
  · rintro rfl
    exact ⟨_, _, _, rfl,
      ⟨_, _, _, ⟨rfl, rfl⟩, ⟨_, _, _, rfl, ⟨⟨rfl, rfl⟩, rfl⟩, rfl⟩, rfl⟩, by simp⟩

theorem reads_volume : Reads volume fun a b => a.appendCanonical = .ok b := by
  refine (Reads.bind reads_u8 fun t =>
    Reads.bind (reads_validated (QuantityUnit.fromDiscriminant t)) fun unit =>
    Reads.bindPure reads_u64 fun v => (⟨v, unit⟩ : Volume)).congr fun q b => ?_
  simp only [QuantityUnit.fromDiscriminant_eq_ok, Volume.appendCanonical, Volume.toCanonicalBytes,
    Except.ok.injEq]
  constructor
  · rintro ⟨t, _, _, rfl, ⟨u, _, _, ⟨rfl, rfl⟩, ⟨v, rfl, rfl⟩, rfl⟩, rfl⟩
    simp
  · rintro rfl
    exact ⟨_, _, _, rfl, ⟨_, _, _, ⟨rfl, rfl⟩, ⟨_, rfl, rfl⟩, rfl⟩, by simp⟩

theorem reads_tradeObservationKind :
    Reads tradeObservationKind fun a b => b = [a.discriminant] := by
  have h : Decodes tradeObservationKind (fun _ => True)
      fun a => (.ok [a.discriminant] ++ .ok [] : Encoding) := by
    refine Decodes.tagged _ _ reads_u8 (fun _ => rfl) fun t => ?_
    split
    · refine (Reads.pure _).congr fun k b => ?_
      cases k <;> simp [TradeObservationKind.discriminant, eq_comm]
    · refine (Reads.pure _).congr fun k b => ?_
      cases k <;> simp [TradeObservationKind.discriminant, eq_comm]
    · refine (Reads.fail _).congr fun k b => ?_
      cases k <;> simp_all [TradeObservationKind.discriminant, eq_comm]
  exact h.congr fun a b => by
    simp only [ok_append_ok, List.append_nil, Except.ok.injEq, true_and, eq_comm]

theorem reads_trade : Reads trade fun a b => a.appendCanonical = .ok b := by
  refine (Reads.bind reads_price fun p => Reads.bind reads_quantity fun q =>
    Reads.bindPure reads_tradeObservationKind fun k => (⟨p, q, k⟩ : ObservedTrade)).congr
      fun a b => ?_
  simp only [ObservedTrade.appendCanonical, Price.appendCanonical, Quantity.appendCanonical,
    Except.ok.injEq]
  constructor
  · rintro ⟨p, _, _, rfl, ⟨q, _, _, rfl, ⟨k, rfl, rfl⟩, rfl⟩, rfl⟩
    simp
  · rintro rfl
    exact ⟨_, _, _, rfl, ⟨_, _, _, rfl, ⟨_, rfl, rfl⟩, rfl⟩, by simp⟩

/-- The presence byte of an optional value. -/
def presence {α : Type} : Option α → UInt8
  | none => 0
  | some _ => 1

theorem reads_option {α : Type} {p : CanonicalParser α} {bytes : α → List UInt8}
    (hp : Reads p fun a b => b = bytes a) :
    Reads (option p) fun a b => appendOption bytes a = .ok b := by
  have h : Decodes (option p) (fun _ => True) (appendOption bytes) := by
    refine Decodes.tagged presence (fun o => .ok (o.elim [] bytes)) reads_u8 ?_ fun t => ?_
    · intro o
      cases o <;> rfl
    · split
      · refine (Reads.pure _).congr fun o b => ?_
        cases o <;> simp [presence, eq_comm]
      · refine (Reads.bindPure hp some).congr fun o b => ?_
        cases o <;> simp [presence, eq_comm]
      · next h₀ h₁ =>
        refine (Reads.fail _).congr fun o b => ?_
        cases o <;> simp_all [presence, eq_comm]
  exact h.congr fun a b => by simp

theorem reads_bookLevel : Reads bookLevel fun a b => b = a.toCanonicalBytes := by
  refine (Reads.bind reads_price fun p => Reads.bindPure reads_quantity fun q =>
    (⟨p, q⟩ : BookLevel)).congr
    fun a b => ?_
  simp only [BookLevel.toCanonicalBytes, Price.appendCanonical, Quantity.appendCanonical,
    Except.ok.injEq]
  constructor
  · rintro ⟨p, _, _, rfl, ⟨q, rfl, rfl⟩, rfl⟩; rfl
  · intro h; exact ⟨a.price, _, _, rfl, ⟨a.displayedQuantity, rfl, rfl⟩, h⟩

theorem slots_eq (slots : Slots) : ∃ a b c d e, slots = #v[a, b, c, d, e] := by
  obtain ⟨⟨l⟩, hl⟩ := slots
  have hl : l.length = 5 := hl
  rcases l with _ | ⟨a, _ | ⟨b, _ | ⟨c, _ | ⟨d, _ | ⟨e, _ | ⟨f, l⟩⟩⟩⟩⟩⟩ <;> simp at hl
  exact ⟨a, b, c, d, e, rfl⟩

theorem reads_bookSide (kind : BookSideKind) :
    Reads (bookSide kind) fun a b => a.kind = kind ∧ a.appendCanonical = .ok b := by
  have hq : Reads quantity fun a b => b = a.toCanonicalBytes := reads_quantity.congr fun a b => by
    rw [Quantity.appendCanonical, Except.ok.injEq, eq_comm]
  have hslot := reads_option reads_bookLevel
  refine (Reads.bind (reads_option hq) fun m => Reads.bind hslot fun s₀ =>
    Reads.bind hslot fun s₁ =>
    Reads.bind hslot fun s₂ => Reads.bind hslot fun s₃ => Reads.bind hslot fun s₄ =>
    reads_validated (BookSide.fromParts kind m #v[s₀, s₁, s₂, s₃, s₄])).congr fun side b => ?_
  simp only [BookSide.fromParts_eq_ok, BookSide.appendCanonical, append_eq_ok]
  constructor
  · rintro
      ⟨m, b₁, _, hm, ⟨s₀, c₀, _, h₀, ⟨s₁, c₁, _, h₁, ⟨s₂, c₂, _, h₂, ⟨s₃, c₃, _, h₃, ⟨s₄, c₄, _, h₄,
      ⟨⟨rfl, rfl, hs⟩, rfl⟩, rfl⟩, rfl⟩, rfl⟩, rfl⟩, rfl⟩, rfl⟩
    refine ⟨rfl, b₁, hm, c₀ ++ (c₁ ++ (c₂ ++ (c₃ ++ (c₄ ++ [])))), ?_, rfl⟩
    simp [← hs, encodeAll, h₀, h₁, h₂, h₃, h₄]
  · rintro ⟨rfl, b₁, hm, b₂, hslots, rfl⟩
    obtain ⟨s₀, s₁, s₂, s₃, s₄, hs⟩ := slots_eq side.slots
    simp only [hs, Vector.toList_mk, encodeAll, append_eq_ok, Except.ok.injEq] at hslots
    obtain ⟨c₀, h₀, _, ⟨c₁, h₁, _, ⟨c₂, h₂, _, ⟨c₃, h₃, _, ⟨c₄, h₄, _, rfl, rfl⟩, rfl⟩, rfl⟩, rfl⟩,
        rfl⟩ := hslots
    exact ⟨_, b₁, _, hm,
      ⟨s₀, c₀, _, h₀, ⟨s₁, c₁, _, h₁, ⟨s₂, c₂, _, h₂, ⟨s₃, c₃, _, h₃, ⟨s₄, c₄, _, h₄,
      ⟨⟨rfl, rfl, hs.symm⟩, rfl⟩, rfl⟩, rfl⟩, rfl⟩, rfl⟩, rfl⟩, rfl⟩

theorem reads_book : Reads book fun a b => a.appendCanonical = .ok b := by
  refine (Reads.bind (reads_bookSide .bid) fun bids => Reads.bind (reads_bookSide .ask) fun asks =>
    reads_validated (CompleteBookSnapshot.new bids asks)).congr fun book b => ?_
  simp only [CompleteBookSnapshot.new_eq_ok, CompleteBookSnapshot.appendCanonical, append_eq_ok]
  constructor
  · rintro ⟨_, b₁, _, ⟨-, h₁⟩, ⟨_, b₂, _, ⟨-, h₂⟩, ⟨⟨rfl, rfl⟩, rfl⟩, rfl⟩, rfl⟩
    exact ⟨b₁, h₁, b₂, h₂, by simp⟩
  · rintro ⟨b₁, h₁, b₂, h₂, rfl⟩
    exact ⟨_, b₁, _, ⟨book.kinds.1, h₁⟩,
      ⟨_, b₂, _, ⟨book.kinds.2, h₂⟩, ⟨⟨rfl, rfl⟩, rfl⟩, rfl⟩, by simp⟩

theorem reads_unknown : Reads unknown fun a b => a.appendCanonical = .ok b := by
  have h : Decodes unknown (fun _ => True) UnknownValue.appendCanonical := by
    refine Decodes.tagged UnknownValue.discriminant _ reads_u8 (fun _ => rfl) fun t => ?_
    split
    · refine (Reads.bindPure reads_u64 UnknownValue.unsigned).congr fun v b => ?_
      cases v <;> simp [UnknownValue.discriminant, eq_comm]
    · refine (Reads.bindPure reads_i64 UnknownValue.signed).congr fun v b => ?_
      cases v <;> simp [UnknownValue.discriminant, eq_comm]
    · refine (Reads.bindPure reads_i128 fun v => UnknownValue.decimal ⟨v⟩).congr fun v b => ?_
      cases v <;> simp [UnknownValue.discriminant, Decimal.toCanonicalBytes,
        Decimal.ext_iff, eq_comm]
    · refine (Reads.bindPure reads_string UnknownValue.text).congr fun v b => ?_
      cases v <;> simp [UnknownValue.discriminant]
    · refine (Reads.bindPure reads_bytes UnknownValue.bytes).congr fun v b => ?_
      cases v <;> simp [UnknownValue.discriminant]
    · refine (Reads.fail _).congr fun v b => ?_
      cases v <;> simp_all [UnknownValue.discriminant, eq_comm]
  exact h.congr fun a b => by simp

end CanonicalParser

/-- A set observation's value satisfies `P`. -/
def Observation.Sat {α : Type} (P : α → Prop) : Observation α → Prop
  | .set value => P value
  | _ => True

namespace CanonicalParser

theorem decodes_observation {α : Type} {p : CanonicalParser α} {P : α → Prop} {enc : α → Encoding}
    (hp : Decodes p P enc) :
    Decodes (observation p) (Observation.Sat P) (Observation.appendCanonical enc) := by
  refine Decodes.tagged Observation.discriminant _ reads_u8 (fun _ => rfl) fun t => ?_
  split
  · refine (Reads.pure _).congr fun o b => ?_
    cases o <;> simp [Observation.discriminant, Observation.Sat, eq_comm]
  · refine (Reads.bindPure hp Observation.set).congr fun o b => ?_
    cases o <;> simp [Observation.discriminant, Observation.Sat]
  · refine (Reads.pure _).congr fun o b => ?_
    cases o <;> simp [Observation.discriminant, Observation.Sat, eq_comm]
  · refine (Reads.bindPure reads_unknown Observation.unknown).congr fun o b => ?_
    cases o <;> simp [Observation.discriminant, Observation.Sat]
  · refine (Reads.fail _).congr fun o b => ?_
    cases o <;> simp_all [Observation.discriminant, eq_comm]

theorem reads_observation {α : Type} {p : CanonicalParser α} {enc : α → Encoding}
    (hp : Reads p fun a b => enc a = .ok b) :
    Reads (observation p) fun a b => a.appendCanonical enc = .ok b := by
  have h : Decodes p (fun _ => True) enc := hp.congr fun a b => by simp
  refine (decodes_observation h).congr fun o b => ?_
  cases o <;> simp [Observation.Sat]

def annotationsBody : MarketAnnotations → List UInt8
  | .twseQuote flags => [flags.statusFlagsRaw, flags.limitFlagsRaw]
  | .tpexQuote flags => [flags.statusFlagsRaw, flags.limitFlagsRaw]
  | .none => []

theorem reads_annotations : Reads annotations fun a b => a.appendCanonical = .ok b := by
  have h : Decodes annotations (fun _ => True) MarketAnnotations.appendCanonical := by
    refine Decodes.tagged MarketAnnotations.discriminant (fun a => .ok (annotationsBody a)) reads_u8
      (fun _ => rfl) fun t => ?_
    split
    · refine (Reads.pure _).congr fun a b => ?_
      cases a <;> simp [MarketAnnotations.discriminant, annotationsBody, eq_comm]
    · refine (Reads.bind reads_u8 fun x => Reads.bindPure reads_u8 fun y =>
        MarketAnnotations.twseQuote ⟨x, y⟩).congr fun a b => ?_
      cases a <;> simp [MarketAnnotations.discriminant, annotationsBody,
        TwseQuoteAnnotations.ext_iff, eq_comm]
    · refine (Reads.bind reads_u8 fun x => Reads.bindPure reads_u8 fun y =>
        MarketAnnotations.tpexQuote ⟨x, y⟩).congr fun a b => ?_
      cases a <;> simp [MarketAnnotations.discriminant, annotationsBody,
        TpexQuoteAnnotations.ext_iff, eq_comm]
    · refine (Reads.fail _).congr fun a b => ?_
      cases a <;> simp_all [MarketAnnotations.discriminant, annotationsBody, eq_comm]
  exact h.congr fun a b => by simp

theorem reads_tradeOrder : Reads tradeOrder fun a b => b = [a.discriminant] := by
  have h : Decodes tradeOrder (fun _ => True) fun a =>
      (.ok [a.discriminant] ++ .ok [] : Encoding) := by
    refine Decodes.tagged _ _ reads_u8 (fun _ => rfl) fun t => ?_
    split
    · refine (Reads.pure _).congr fun k b => ?_
      cases k <;> simp [TradeBatchOrdering.discriminant, eq_comm]
    · refine (Reads.pure _).congr fun k b => ?_
      cases k <;> simp [TradeBatchOrdering.discriminant, eq_comm]
    · refine (Reads.fail _).congr fun k b => ?_
      cases k <;> simp_all [TradeBatchOrdering.discriminant, eq_comm]
  exact h.congr fun a b => by
    simp only [ok_append_ok, List.append_nil, Except.ok.injEq, true_and, eq_comm]

end CanonicalParser

/-- The rule of `fromParts`: a known direction does not go with a known opening, closing or periodic
purpose. -/
def AuctionObservation.WellFormed (o : AuctionObservation) : Prop :=
  (o.direction.isKnown && o.purpose.isScheduledPurpose) = false

def MarketSignal.WellFormed (s : MarketSignal) : Prop := ∀ o ∈ s.auction, o.WellFormed

theorem AuctionObservation.fromParts_eq_some (p : AuctionEvidence AuctionPurpose)
    (d s : AuctionEvidence Bool)
    (v : AuctionEvidence VolatilityDirection) (o : AuctionObservation) :
    AuctionObservation.fromParts p d s v = some o ↔ o.WellFormed ∧ o = ⟨p, d, s, v⟩ := by
  unfold AuctionObservation.fromParts AuctionObservation.WellFormed
  split_ifs with h
  · simp only [false_iff, not_and]
    rintro hw rfl
    rw [h] at hw
    cases hw
  · rw [Option.some_inj, eq_comm, iff_and_self]
    rintro rfl
    exact Bool.eq_false_iff.2 h

/-- The leading byte of one evidence field. -/
def AuctionEvidence.tag {α : Type} : AuctionEvidence α → UInt8
  | .noObservation => 0
  | .known _ => 1
  | .unknown => 2

namespace CanonicalParser

def evidenceBody {α : Type} (discriminant : α → UInt8) : AuctionEvidence α → List UInt8
  | .known value => [discriminant value]
  | _ => []

theorem reads_auctionEvidence {α : Type} {discriminant : α → UInt8}
    {fromDiscriminant : UInt8 → Option α}
    (hd : ∀ t a, fromDiscriminant t = some a ↔ t = discriminant a) :
    Reads (auctionEvidence fromDiscriminant) fun a b => a.appendCanonical discriminant = .ok b := by
  have h : Decodes (auctionEvidence fromDiscriminant) (fun _ => True)
      (AuctionEvidence.appendCanonical discriminant) := by
    refine Decodes.tagged AuctionEvidence.tag
      (fun e => .ok (evidenceBody discriminant e)) reads_u8 ?_ fun t => ?_
    · intro e
      cases e <;> rfl
    · split
      · refine (Reads.pure _).congr fun e b => ?_
        cases e <;> simp [AuctionEvidence.tag, evidenceBody, eq_comm]
      · refine (Reads.bind reads_u8 fun x => Reads.bindPure (reads_present (fromDiscriminant x))
          AuctionEvidence.known).congr fun e b => ?_
        cases e <;> simp [AuctionEvidence.tag, evidenceBody, hd, eq_comm]
      · refine (Reads.pure _).congr fun e b => ?_
        cases e <;> simp [AuctionEvidence.tag, evidenceBody, eq_comm]
      · refine (Reads.fail _).congr fun e b => ?_
        cases e <;> simp_all [AuctionEvidence.tag, evidenceBody, eq_comm]
  exact h.congr fun a b => by simp

theorem reads_auctionPurpose :
    Reads auctionPurpose fun a b => a.appendCanonical AuctionPurpose.discriminant = .ok b := by
  refine reads_auctionEvidence fun t a => ⟨fun h => ?_, ?_⟩
  · unfold AuctionPurpose.fromDiscriminant at h
    split at h <;> cases h <;> rfl
  · rintro rfl
    cases a <;> rfl

theorem reads_auctionBool : Reads auctionBool fun a b =>
    a.appendCanonical Bool.toUInt8 = .ok b := by
  refine reads_auctionEvidence fun t a => ⟨fun h => ?_, ?_⟩
  · unfold boolFromByte at h
    split at h <;> cases h <;> rfl
  · rintro rfl
    cases a <;> rfl

theorem reads_auctionDirection :
    Reads auctionDirection fun a b =>
      a.appendCanonical VolatilityDirection.discriminant = .ok b := by
  refine reads_auctionEvidence fun t a => ⟨fun h => ?_, ?_⟩
  · unfold VolatilityDirection.fromDiscriminant at h
    split at h <;> cases h <;> rfl
  · rintro rfl
    cases a <;> rfl

theorem decodes_auctionObservation :
    Decodes auctionObservation AuctionObservation.WellFormed
      AuctionObservation.appendCanonical := by
  refine (Reads.bind reads_auctionPurpose fun p => Reads.bind reads_auctionBool fun d =>
    Reads.bind reads_auctionBool fun s => Reads.bind reads_auctionDirection fun v =>
    reads_present (AuctionObservation.fromParts p d s v)).congr fun o b => ?_
  simp only [AuctionObservation.fromParts_eq_some, AuctionObservation.appendCanonical, append_eq_ok]
  constructor
  · rintro ⟨p, b₁, _, h₁,
      ⟨d, b₂, _, h₂, ⟨s, b₃, _, h₃, ⟨v, b₄, _, h₄, ⟨⟨hw, rfl⟩, rfl⟩, rfl⟩, rfl⟩, rfl⟩, rfl⟩
    exact ⟨hw, _, ⟨_, ⟨b₁, h₁, b₂, h₂, rfl⟩, b₃, h₃, rfl⟩, b₄, h₄, by simp⟩
  · rintro ⟨hw, _, ⟨_, ⟨b₁, h₁, b₂, h₂, rfl⟩, b₃, h₃, rfl⟩, b₄, h₄, rfl⟩
    exact ⟨_, b₁, _, h₁,
      ⟨_, b₂, _, h₂, ⟨_, b₃, _, h₃, ⟨_, b₄, _, h₄, ⟨⟨hw, rfl⟩, rfl⟩, rfl⟩, rfl⟩, rfl⟩, by simp⟩

theorem decodes_marketSignal :
    Decodes marketSignal MarketSignal.WellFormed MarketSignal.appendCanonical := by
  refine Decodes.tagged MarketSignal.discriminant _ reads_u8 (fun _ => rfl) fun t => ?_
  unfold signalObservation
  split
  · refine (Reads.bind (Reads.map decodes_auctionObservation some) fun o => reads_present _).congr
      fun s b => ?_
    cases s <;> simp [MarketSignal.fromDiscriminant, MarketSignal.discriminant,
      MarketSignal.WellFormed, MarketSignal.auction, and_assoc]
  · refine (Reads.bind (Reads.map decodes_auctionObservation some) fun o => reads_present _).congr
      fun s b => ?_
    cases s <;> simp [MarketSignal.fromDiscriminant, MarketSignal.discriminant,
      MarketSignal.WellFormed, MarketSignal.auction, and_assoc]
  · refine (Reads.bind (Reads.pure none) fun o => reads_present _).congr fun s b => ?_
    cases s <;> simp [MarketSignal.fromDiscriminant, MarketSignal.discriminant,
      MarketSignal.WellFormed, MarketSignal.auction, eq_comm]
  · refine (Reads.bind (Reads.pure none) fun o => reads_present _).congr fun s b => ?_
    cases s <;> simp [MarketSignal.fromDiscriminant, MarketSignal.discriminant,
      MarketSignal.WellFormed, MarketSignal.auction, eq_comm]
  · refine (Reads.bind (Reads.fail _) fun o => reads_present _).congr fun s b => ?_
    cases s <;> simp_all [MarketSignal.discriminant, eq_comm]

end CanonicalParser
end Osmium
