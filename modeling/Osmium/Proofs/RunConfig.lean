import Osmium.Proofs.MultiRunner
import Osmium.Proofs.Partition
import Osmium.Proofs.StateCanonical
import Osmium.Sanity.Artifacts
import Osmium.Sanity.RunConfig

/-! The identity of a run. A configuration resolves to the same run in whatever order it lists its
parts, and the canonical bytes of a run determine all of it but where its data are. -/

namespace Osmium
open Machine Bytes Codec Result CanonicalParser

namespace RunPlanner

section Order

/-- Configurations of one run: they differ in the order in which they list its parts, and in how
often they name a date, an instrument or a session. -/
structure SameRun (a b : RunConfig) : Prop where
  rest : { a with
    tradingDates := b.tradingDates
    universeInstruments := b.universeInstruments
    instrumentContracts := b.instrumentContracts
    sessionKinds := b.sessionKinds
    simulation := b.simulation
    instrumentEconomics := b.instrumentEconomics } = b
  tradingDates : ∀ date, date ∈ a.tradingDates ↔ date ∈ b.tradingDates
  universeInstruments : ∀ instrument, instrument ∈ a.universeInstruments ↔
      instrument ∈ b.universeInstruments
  instrumentContracts : a.instrumentContracts.Perm b.instrumentContracts
  sessionKinds : ∀ kind, kind ∈ a.sessionKinds ↔ kind ∈ b.sessionKinds
  simulation : SameSimulation a.simulation b.simulation
  instrumentEconomics : a.instrumentEconomics.Perm b.instrumentEconomics

theorem validateSimulation_same {a b : SimulationConfig} (h : SameSimulation a b) :
    validateSimulation a = validateSimulation b := by
  rw [← h.rest]
  rfl

theorem SameRun.symm {a b : RunConfig} (h : SameRun a b) : SameRun b a where
  rest := by
    rw [← h.rest]
  tradingDates date := (h.tradingDates date).symm
  universeInstruments instrument := (h.universeInstruments instrument).symm
  instrumentContracts := h.instrumentContracts.symm
  sessionKinds kind := (h.sessionKinds kind).symm
  simulation := ⟨by rw [← h.simulation.rest], h.simulation.charges.symm⟩
  instrumentEconomics := h.instrumentEconomics.symm

/-- Even the error is the same where the economics are listed alike. -/
theorem resolve_same (hash : List UInt8 → Digest) {a b : RunConfig} (h : SameRun a b)
    (heconomics : a.instrumentEconomics = b.instrumentEconomics) :
    EffectiveRunConfig.resolve hash a = EffectiveRunConfig.resolve hash b := by
  rw [← h.rest]
  simp only [EffectiveRunConfig.resolve, canonicalNonEmpty_congr h.tradingDates,
    canonicalNonEmpty_congr h.universeInstruments,
    canonicalNonEmpty_congr h.sessionKinds, validateInstrumentContracts_perm h.instrumentContracts,
    validateSimulation_same h.simulation, validateInstrumentCharges_same h.simulation, heconomics]

theorem resolve_economics_perm {hash : List UInt8 → Digest} {config : RunConfig}
    {values : List InstrumentEconomicsConfig}
    {effective : EffectiveRunConfig} (hperm : config.instrumentEconomics.Perm values)
    (h : EffectiveRunConfig.resolve hash config = .ok effective) :
    EffectiveRunConfig.resolve hash { config with instrumentEconomics := values } =
      .ok effective := by
  simp only [EffectiveRunConfig.resolve, bind_eq_ok, ensure_eq_ok, pure_eq_ok, mapError_eq_ok]
    at h ⊢
  obtain ⟨u₁, hversion, u₂, hroot, dates, hdates, instruments, hinstruments, contracts, hcontracts,
      kinds, hkinds, u₃, hdeclared, u₄, hsessions, u₅, hpolicy, u₆, hsimulation, simulation,
      hcharges, economics,
    heconomics, hrest⟩ := h
  exact ⟨u₁, hversion, u₂, hroot, dates, hdates, instruments, hinstruments, contracts, hcontracts,
    kinds, hkinds, u₃, hdeclared,
    u₄, hsessions, u₅, hpolicy, u₆, hsimulation, simulation, hcharges, economics,
    validateEconomics_perm hperm heconomics, hrest⟩

theorem resolve_of_same {hash : List UInt8 → Digest} {a b : RunConfig} (h : SameRun a b)
    {effective : EffectiveRunConfig}
    (hresolve : EffectiveRunConfig.resolve hash a = .ok effective) :
    EffectiveRunConfig.resolve hash b = .ok effective := by
  have hmiddle := resolve_economics_perm h.instrumentEconomics hresolve
  have hsame : SameRun { a with instrumentEconomics := b.instrumentEconomics } b :=
    { h with instrumentEconomics := .refl _ }
  rwa [resolve_same hash hsame rfl] at hmiddle

/-- A configuration resolves to the same run in whatever order it lists its parts, and where it
keeps the order of its economics it is refused for the same reason. -/
theorem run_order_free (hash : List UInt8 → Digest) (a b : RunConfig) (h : SameRun a b) :
    (∀ effective, EffectiveRunConfig.resolve hash a = .ok effective ↔
      EffectiveRunConfig.resolve hash b = .ok effective) ∧
      (a.instrumentEconomics = b.instrumentEconomics →
        EffectiveRunConfig.resolve hash a = EffectiveRunConfig.resolve hash b) :=
  ⟨fun _ => ⟨resolve_of_same h, resolve_of_same h.symm⟩, resolve_same hash h⟩

end Order

section Coherence

/-- What a run is, once it is accepted: its dates, instruments and sessions once each in order, one
contract and one economics for each instrument at its place, and charges of its instruments only. -/
structure Coherent (effective : EffectiveRunConfig) : Prop where
  tradingDates : effective.tradingDates ≠ [] ∧ effective.tradingDates.Pairwise fun a b =>
      compare a b = .lt
  universeInstruments : effective.universeInstruments ≠ [] ∧
      effective.universeInstruments.Pairwise fun a b => compare a b = .lt
  sessionKinds : effective.sessionKinds ≠ [] ∧ effective.sessionKinds.Pairwise fun a b =>
      compare a b = .lt
  declaration : effective.strategy.declaration =
      ⟨effective.universeInstruments, effective.sessionKinds⟩
  contracts : effective.instrumentContracts.map InstrumentContractConfig.instrument =
      effective.universeInstruments
  economics : effective.instrumentEconomics.map InstrumentEconomicsConfig.instrument =
      effective.universeInstruments
  charges : (effective.simulation.instrumentCharges.map InstrumentChargeConfig.instrument).Pairwise
      fun a b => compare a b = .lt
  validContracts : ∀ contract ∈ effective.instrumentContracts, ValidContract contract
  validEconomics : ∀ value ∈ effective.instrumentEconomics,
      ValidEconomics effective.universeInstruments value
  validCharges : ∀ charges ∈ effective.simulation.instrumentCharges,
    ValidCharges effective.universeInstruments effective.tradingDates charges
  canonical : effective.encodeSemantics = .ok effective.canonicalSemantics

theorem coherent_of_resolve {hash : List UInt8 → Digest} {config : RunConfig}
    {effective : EffectiveRunConfig} (h : EffectiveRunConfig.resolve hash config = .ok effective) :
    Coherent effective ∧ effective.checksum = hash effective.canonicalSemantics := by
  simp only [EffectiveRunConfig.resolve, bind_eq_ok, ensure_eq_ok, pure_eq_ok, mapError_eq_ok] at h
  obtain ⟨-, -, -, -, dates, hdates, instruments, hinstruments, contracts, hcontracts, kinds,
      hkinds, -, hdeclared, -, hsessions, -, -, -, -, simulation, hcharges, economics, heconomics,
      -, -, canonical,
    hcanonical, rfl⟩ := h
  obtain ⟨hsomeDate, hdateOrder, -⟩ := canonicalNonEmpty_ok hdates
  obtain ⟨hsome, horder, -⟩ := canonicalNonEmpty_ok hinstruments
  obtain ⟨hsomeKind, hkindOrder, -⟩ := canonicalNonEmpty_ok hkinds
  obtain ⟨hplaces, -, hvalid⟩ := validateInstrumentContracts_ok horder hcontracts
  obtain ⟨hvalues, hterms⟩ := validateEconomics_ok horder heconomics
  obtain ⟨-, hascending, hall⟩ := validateInstrumentCharges_ok hcharges
  refine ⟨⟨⟨hsomeDate, hdateOrder⟩, ⟨hsome, horder⟩, ⟨hsomeKind, hkindOrder⟩, ?_, hplaces, hvalues,
    List.pairwise_map.2 hascending, hvalid, hterms, hall, hcanonical⟩, rfl⟩
  rw [← hdeclared, ← hsessions]

theorem agrees_of_resolve {hash : List UInt8 → Digest} {config : RunConfig}
    {effective : EffectiveRunConfig} (h : EffectiveRunConfig.resolve hash config = .ok effective) :
    validateReferenceEconomics effective.instrumentContracts
      effective.instrumentEconomics = .ok () ∧
      ∀ instrument, instrument ∈ effective.universeInstruments ↔
      instrument ∈ config.universeInstruments := by
  simp only [EffectiveRunConfig.resolve, bind_eq_ok, ensure_eq_ok, pure_eq_ok, mapError_eq_ok] at h
  obtain ⟨-, -, -, -, dates, hdates, instruments, hinstruments, contracts, hcontracts, kinds,
      hkinds, -, -, -, -, -, -, -, -, simulation, hcharges, economics, heconomics, ⟨⟩, hagrees,
      canonical,
    hcanonical, rfl⟩ := h
  exact ⟨hagrees, (canonicalNonEmpty_ok hinstruments).2.2⟩

/-- What is found for a key that the list has. -/
theorem find_of_mem_map {α : Type} {key : α → InstrumentId} {l : List α} {instrument : InstrumentId}
    (h : instrument ∈ l.map key) :
    ∃ value ∈ l, key value = instrument ∧
    l.find? (fun other => key other = instrument) = some value := by
  obtain ⟨value, hvalue, hkey⟩ := List.mem_map.1 h
  have hsome : (l.find? fun other => key other = instrument).isSome = true :=
    List.find?_isSome.2 ⟨value, hvalue, decide_eq_true hkey⟩
  obtain ⟨found, hfound⟩ := Option.isSome_iff_exists.1 hsome
  have hkey : key found = instrument := by simpa using List.find?_some hfound
  exact ⟨found, List.mem_of_find?_eq_some hfound, hkey, hfound⟩

/-- An accepted run is coherent, and the instruments that it was asked for are those for which it
has a contract and economics to look up; where the contract refers to an underlying, the two agree.
-/
theorem accepted_run_covered (hash : List UInt8 → Digest) (config : RunConfig)
    (effective : EffectiveRunConfig) (h : EffectiveRunConfig.resolve hash config = .ok effective) :
    Coherent effective ∧ ∀ instrument, instrument ∈ config.universeInstruments ↔
      ∃ contract economics, effective.contractFor instrument = some contract ∧
        (effective.instrumentEconomics.find? fun value => value.instrument = instrument) =
          some economics ∧
        ∀ reference ∈ contract.reference, referenceAgrees economics reference = true := by
  obtain ⟨hcoherent, -⟩ := coherent_of_resolve h
  obtain ⟨hagrees, hmem⟩ := agrees_of_resolve h
  refine ⟨hcoherent, fun instrument => ⟨fun hasked => ?_, ?_⟩⟩
  · have hinside := (hmem instrument).2 hasked
    obtain ⟨contract, hcontract, hkey, hfound⟩ :=
      find_of_mem_map (hcoherent.contracts.symm ▸ hinside)
    obtain ⟨economics, -, -, hvalue⟩ := find_of_mem_map (hcoherent.economics.symm ▸ hinside)
    refine ⟨contract, economics, hfound, hvalue, fun reference hreference => ?_⟩
    have hchecked := forM_eq_ok.1 hagrees contract hcontract
    rw [Option.mem_def] at hreference
    simpa only [hreference, ensure_eq_ok, hkey, hvalue, Option.any_some] using hchecked
  · rintro ⟨contract, economics, hfound, -, -⟩
    rw [EffectiveRunConfig.contractFor] at hfound
    have hcontract := List.mem_of_find?_eq_some hfound
    have hkey : contract.instrument = instrument := by simpa using List.find?_some hfound
    rw [← hmem instrument, ← hcoherent.contracts, ← hkey]
    exact List.mem_map.2 ⟨contract, hcontract, rfl⟩

end Coherence

section Encodings

theorem SourcePolicy.discriminant_injective : Function.Injective SourcePolicy.discriminant := by
  intro a b h; cases a <;> cases b <;> first | rfl | exact absurd h (by decide)

theorem CachePolicy.discriminant_injective : Function.Injective CachePolicy.discriminant := by
  intro a b _; cases a; cases b; rfl

theorem ReplayDataPolicy.discriminant_injective :
    Function.Injective ReplayDataPolicy.discriminant := by
  intro a b h; cases a <;> cases b <;> first | rfl | exact absurd h (by decide)

theorem OutputPolicy.discriminant_injective : Function.Injective OutputPolicy.discriminant := by
  intro a b _; cases a; cases b; rfl

theorem Currency.discriminant_injective : Function.Injective Currency.discriminant := by
  intro a b _; cases a; cases b; rfl

theorem FillEvidence.discriminant_injective : Function.Injective FillEvidence.discriminant := by
  intro a b h; cases a <;> cases b <;> first | rfl | exact absurd h (by decide)

theorem QuantityEvidence.discriminant_injective :
    Function.Injective QuantityEvidence.discriminant := by
  intro a b h; cases a <;> cases b <;> first | rfl | exact absurd h (by decide)

theorem QuantityAllocationConfig.discriminant_injective :
    Function.Injective QuantityAllocationConfig.discriminant := by
  intro a b _; cases a; cases b; rfl

theorem ExecutionPolicyConfig.discriminant_injective :
    Function.Injective ExecutionPolicyConfig.discriminant := by
  intro a b h; cases a <;> cases b <;> first | rfl | exact absurd h (by decide)

theorem ChargeSides.discriminant_injective : Function.Injective ChargeSides.discriminant := by
  intro a b h; cases a <;> cases b <;> first | rfl | exact absurd h (by decide)

theorem RoundingPolicy.discriminant_injective : Function.Injective RoundingPolicy.discriminant := by
  intro a b h; cases a <;> cases b <;> first | rfl | exact absurd h (by decide)

theorem ChargeBasis.discriminant_injective : Function.Injective ChargeBasis.discriminant := by
  intro a b h; cases a <;> cases b <;> first | rfl | exact absurd h (by decide)

theorem DayTradeMatchingConfig.discriminant_injective :
    Function.Injective DayTradeMatchingConfig.discriminant := by
  intro a b _; cases a; cases b; rfl

theorem PositionAccountingConfig.discriminant_injective :
    Function.Injective PositionAccountingConfig.discriminant := by
  intro a b _; cases a; cases b; rfl

theorem InstrumentClass.discriminant_injective :
    Function.Injective InstrumentClass.discriminant := by
  intro a b h; cases a <;> cases b <;> first | rfl | exact absurd h (by decide)

theorem OptionSide.discriminant_injective : Function.Injective OptionSide.discriminant := by
  intro a b h; cases a <;> cases b <;> first | rfl | exact absurd h (by decide)

theorem profileId_discriminant_injective : Function.Injective SessionProfileId.discriminant := by
  intro a b h; cases a <;> cases b <;> first | rfl | exact absurd h (by decide)

theorem pricePolicyDiscriminant_injective : Function.Injective pricePolicyDiscriminant := by
  intro a b h; cases a <;> cases b <;> first | rfl | exact absurd h (by decide)

def shapeByte (shape : Option ContractShape) : UInt8 := shape.elim 0 ContractShape.discriminant

theorem shapeByte_injective : Function.Injective shapeByte := by
  intro a b h
  cases a with
  | none =>
    cases b with
    | none => rfl
    | some shape => cases shape <;> exact absurd h (by decide)
  | some shape =>
    cases b with
    | none => cases shape <;> exact absurd h (by decide)
    | some shape' => cases shape <;> cases shape' <;> first | rfl | exact absurd h (by decide)

/-- One byte for a value. -/
def byteOf {α : Type} (discriminant : α → UInt8) (value : α) : Encoding := .ok [discriminant value]

theorem byteOf_prefixFree {α : Type} {discriminant : α → UInt8}
    (h : Function.Injective discriminant) :
    PrefixFree fun value b => byteOf discriminant value = .ok b :=
  appended_prefixFree (reads_u8.prefixFree.comap discriminant h)

theorem u8_prefixFree : PrefixFree fun (value : UInt8) b => byteOf id value = .ok b :=
  byteOf_prefixFree Function.injective_id

/-- Bytes that are always written. -/
def bytesOf {α : Type} (bytes : α → List UInt8) (value : α) : Encoding := .ok (bytes value)

theorem bytesOf_prefixFree {α : Type} {bytes : α → List UInt8}
    (h : PrefixFree fun value b => b = bytes value) :
    PrefixFree fun value b => bytesOf bytes value = .ok b := appended_prefixFree h

/-- An encoder that is written in another way. -/
theorem prefixFree_congr {α : Type} {enc enc' : α → Encoding}
    (h : PrefixFree fun a b => enc a = .ok b) (heq : ∀ a, enc' a = enc a) :
    PrefixFree fun a b => enc' a = .ok b := by
  obtain rfl : enc' = enc := funext heq
  exact h

theorem text_prefixFree : PrefixFree fun (value : Text) b => appendText value = .ok b :=
  reads_string.prefixFree

theorem u64_prefixFree : PrefixFree fun (value : U64) b => bytesOf (ofUnsigned 8) value = .ok b :=
  bytesOf_prefixFree reads_u64.prefixFree

theorem decimalBytes_prefixFree :
    PrefixFree fun (value : Decimal) b => bytesOf Decimal.toCanonicalBytes value = .ok b :=
  bytesOf_prefixFree decimal_prefixFree

theorem date_prefixFree : PrefixFree fun (date : TradingDate) b => appendDate date = .ok b :=
  bytesOf_prefixFree
    (reads_i32.prefixFree.comap TradingDate.epochDays fun _ _ h => TradingDate.ext h)

theorem chargeConfig_prefixFree : PrefixFree fun (config : ChargeConfig) b =>
    appendCharge true config = .ok b := by
  have hparts :=
    ((((((byteOf_prefixFree ChargeBasis.discriminant_injective).seq decimalBytes_prefixFree).seq
    (byteOf_prefixFree ChargeSides.discriminant_injective)).seq decimalBytes_prefixFree).seq
    u8_prefixFree).seq
    (byteOf_prefixFree RoundingPolicy.discriminant_injective)).seq text_prefixFree
  refine prefixFree_congr (hparts.comap
    (fun config : ChargeConfig => ((((((config.basis, config.rate), config.applicableSides),
    config.minimum), config.precision), config.rounding), config.provenance)) fun a b h => ?_)
      fun config => ?_
  · simp only [Prod.mk.injEq] at h
    obtain ⟨⟨⟨⟨⟨⟨h₁, h₂⟩, h₃⟩, h₄⟩, h₅⟩, h₆⟩, h₇⟩ := h
    exact ChargeConfig.ext h₁ h₂ h₃ h₄ h₅ h₆ h₇
  · simp [appendCharge, byteOf, bytesOf]

theorem dayTradeTax_prefixFree : PrefixFree fun (config : DayTradeTaxConfig) b =>
    appendDayTradeTax config = .ok b := by
  have hminutes := bytesOf_prefixFree reads_i32.prefixFree
  have hparts :=
    (((((chargeConfig_prefixFree.seq
      (byteOf_prefixFree DayTradeMatchingConfig.discriminant_injective)).seq hminutes).seq
    (counted_prefixFree date_prefixFree)).seq (bytesOf_prefixFree bool_prefixFree)).seq
      date_prefixFree).seq text_prefixFree
  refine prefixFree_congr
    (hparts.comap (fun config : DayTradeTaxConfig => ((((((config.charge, config.matching),
    config.timezoneOffsetMinutes), config.eligibleDates), config.eligibilityRequired),
    config.validThrough), config.provenance))
    fun a b h => ?_) fun config => ?_
  · simp only [Prod.mk.injEq] at h
    obtain ⟨⟨⟨⟨⟨⟨h₁, -⟩, h₃⟩, h₄⟩, h₅⟩, h₆⟩, h₇⟩ := h
    exact DayTradeTaxConfig.ext h₁ rfl h₃ h₄ h₅ h₆ h₇
  · simp [appendDayTradeTax, appendCounted, appendDate, byteOf, bytesOf, encoded_append_assoc]

theorem instrumentCharges_prefixFree :
    PrefixFree fun (config : InstrumentChargeConfig) b =>
      appendInstrumentCharges config = .ok b := by
  have hparts :=
    ((instrument_prefixFree.seq chargeConfig_prefixFree).seq chargeConfig_prefixFree).seq
    (present_prefixFree dayTradeTax_prefixFree)
  refine hparts.comap (fun config : InstrumentChargeConfig =>
    (((config.instrument, config.fee), config.tax), config.dayTradeTax))
    fun a b h => ?_
  simp only [Prod.mk.injEq] at h
  exact InstrumentChargeConfig.ext h.1.1.1 h.1.1.2 h.1.2 h.2

theorem scheduledExecution_prefixFree :
    PrefixFree fun (config : ScheduledExecutionConfig) b =>
      appendScheduledExecution config = .ok b := by
  refine prefixFree_congr ((u8_prefixFree.seq u64_prefixFree).comap
    (fun config : ScheduledExecutionConfig => (config.depthLevels, config.maxStaleMs)) fun a b h =>
      ?_) fun config => ?_
  · simp only [Prod.mk.injEq] at h
    exact ScheduledExecutionConfig.ext h.1 h.2
  · simp [appendScheduledExecution, byteOf, bytesOf]

def slippageDelta : SlippageModelConfig → Decimal
  | .adverseFixedDelta delta => delta

theorem slippage_prefixFree : PrefixFree fun (config : SlippageModelConfig) b =>
    appendSlippage config = .ok b := by
  refine prefixFree_congr (((constant_prefixFree [1]).seq decimalBytes_prefixFree).comap
    (fun config : SlippageModelConfig => ((), slippageDelta config)) fun a b h => ?_)
      fun config => ?_
  · cases a
    cases b
    exact congrArg SlippageModelConfig.adverseFixedDelta (Prod.mk.inj h).2
  · cases config
    simp [appendSlippage, bytesOf, slippageDelta]

def midpointFallback : MarkingPolicyConfig → Bool
  | .lastObservableV1 allowMidpointFallback => allowMidpointFallback

theorem marking_prefixFree : PrefixFree fun (config : MarkingPolicyConfig) b =>
    appendMarking config = .ok b := by
  refine prefixFree_congr
    (((constant_prefixFree [1]).seq (bytesOf_prefixFree bool_prefixFree)).comap
    (fun config : MarkingPolicyConfig => ((), midpointFallback config)) fun a b h => ?_)
      fun config => ?_
  · cases a
    cases b
    exact congrArg MarkingPolicyConfig.lastObservableV1 (Prod.mk.inj h).2
  · cases config
    simp [appendMarking, bytesOf, midpointFallback]

theorem simulation_prefixFree : PrefixFree fun (config : SimulationConfig) b =>
    appendSimulation config true = .ok b := by
  have hmodel := (((((byteOf_prefixFree FillEvidence.discriminant_injective).seq
    (byteOf_prefixFree QuantityEvidence.discriminant_injective)).seq u64_prefixFree).seq
      u64_prefixFree).seq
    (byteOf_prefixFree QuantityAllocationConfig.discriminant_injective)).seq slippage_prefixFree
  have hcharges := (hmodel.seq chargeConfig_prefixFree).seq chargeConfig_prefixFree
  have hextended :=
    ((hcharges.seq (byteOf_prefixFree ExecutionPolicyConfig.discriminant_injective)).seq
    (present_prefixFree scheduledExecution_prefixFree)).seq
      (counted_prefixFree instrumentCharges_prefixFree)
  have hparts :=
    (((hextended.seq (byteOf_prefixFree Currency.discriminant_injective)).seq
      decimalBytes_prefixFree).seq
    (byteOf_prefixFree PositionAccountingConfig.discriminant_injective)).seq marking_prefixFree
  refine prefixFree_congr
    (hparts.comap (fun config : SimulationConfig => ((((((((((((((config.fillModel.evidence,
    config.fillModel.quantity), config.latency.marketDataLatencyMs), config.latency.orderLatencyMs),
    config.quantityAllocation),
    config.slippageModel), config.feeModel), config.taxModel), config.executionPolicy),
    config.scheduledExecution),
    config.instrumentCharges), config.initialCash.currency), config.initialCash.amount),
    config.positionAccounting), config.markingPolicy)) fun a b h => ?_) fun config => ?_
  · simp only [Prod.mk.injEq] at h
    obtain ⟨⟨⟨⟨⟨⟨⟨⟨⟨⟨⟨⟨⟨⟨h₁, h₂⟩, h₃⟩, h₄⟩, -⟩, h₆⟩, h₇⟩, h₈⟩, h₉⟩, h₁₀⟩, h₁₁⟩, -⟩, h₁₃⟩, -⟩,
        h₁₅⟩ := h
    exact SimulationConfig.ext h₉ h₁₀ (FillModelConfig.ext h₁ h₂)
      (LatencyConfig.ext h₃ h₄) rfl h₆ h₇ h₈
      (CurrencyAmount.ext rfl h₁₃) rfl h₁₅ h₁₁
  · simp [appendSimulation, appendExtended, appendCounted, byteOf, bytesOf, encoded_append_assoc]

theorem economics_prefixFree : PrefixFree fun (config : InstrumentEconomicsConfig) b =>
    appendEconomics config = .ok b := by
  have hparts :=
    ((((instrument_prefixFree.seq (byteOf_prefixFree QuantityUnit.discriminant_injective)).seq
      u64_prefixFree).seq
    (byteOf_prefixFree Currency.discriminant_injective)).seq decimalBytes_prefixFree).seq
      text_prefixFree
  refine prefixFree_congr (hparts.comap
    (fun config : InstrumentEconomicsConfig => (((((config.instrument, config.quantityUnit),
    config.unitsPerTradingUnit), config.currency), config.multiplier), config.provenance))
      fun a b h => ?_) fun config => ?_
  · simp only [Prod.mk.injEq] at h
    obtain ⟨⟨⟨⟨⟨h₁, h₂⟩, h₃⟩, -⟩, h₅⟩, h₆⟩ := h
    exact InstrumentEconomicsConfig.ext h₁ h₂ h₃ rfl h₅ h₆
  · simp [appendEconomics, byteOf, bytesOf, encoded_append_assoc]

theorem reference_prefixFree : PrefixFree fun (config : InstrumentReferenceConfig) b =>
    appendReference config = .ok b := by
  have hparts := (((((((text_prefixFree.seq date_prefixFree).seq decimalBytes_prefixFree).seq
    (byteOf_prefixFree OptionSide.discriminant_injective)).seq
      (byteOf_prefixFree Currency.discriminant_injective)).seq
    decimalBytes_prefixFree).seq (byteOf_prefixFree QuantityUnit.discriminant_injective)).seq
      u64_prefixFree).seq text_prefixFree
  refine prefixFree_congr (hparts.comap
    (fun config : InstrumentReferenceConfig => ((((((((config.underlying, config.expiry),
    config.strike), config.optionSide), config.currency), config.multiplier), config.quantityUnit),
    config.unitsPerTradingUnit), config.provenance)) fun a b h => ?_) fun config => ?_
  · simp only [Prod.mk.injEq] at h
    obtain ⟨⟨⟨⟨⟨⟨⟨⟨h₁, h₂⟩, h₃⟩, h₄⟩, -⟩, h₆⟩, h₇⟩, h₈⟩, h₉⟩ := h
    exact InstrumentReferenceConfig.ext h₁ h₂ h₃ h₄ rfl h₆ h₇ h₈ h₉
  · simp [appendReference, appendDate, byteOf, bytesOf, encoded_append_assoc]

theorem contract_prefixFree : PrefixFree fun (config : InstrumentContractConfig) b =>
    appendInstrumentContract config = .ok b := by
  have hparts :=
    ((((instrument_prefixFree.seq (byteOf_prefixFree InstrumentClass.discriminant_injective)).seq
    (byteOf_prefixFree shapeByte_injective)).seq
      (byteOf_prefixFree profileId_discriminant_injective)).seq
    (byteOf_prefixFree pricePolicyDiscriminant_injective)).seq
      (present_prefixFree reference_prefixFree)
  refine prefixFree_congr (hparts.comap
    (fun config : InstrumentContractConfig => (((((config.instrument, config.instrumentClass),
    config.shape), config.sessionProfile), config.pricePolicy), config.reference)) fun a b h => ?_)
      fun config => ?_
  · simp only [Prod.mk.injEq] at h
    obtain ⟨⟨⟨⟨⟨h₁, h₂⟩, h₃⟩, h₄⟩, -⟩, h₆⟩ := h
    exact InstrumentContractConfig.ext h₁ h₂ h₃ h₄ h₆
  · simp [appendInstrumentContract, shapeByte, byteOf, encoded_append_assoc]

end Encodings

section Identity

/-- All that the canonical bytes are made of. -/
def EffectiveRunConfig.semantics (self : EffectiveRunConfig) :=
  ((((((((((((((), self.source.text), self.tradingDates), self.universeInstruments),
    self.instrumentContracts), self.sessionKinds),
    self.strategy.identity), self.strategy.paramsChecksum), self.sourcePolicy), self.cachePolicy),
    self.replayDataPolicy), self.simulation), self.instrumentEconomics), self.outputPolicy)

def runHeader : List UInt8 :=
  configMagic ++ ofUnsigned 2 effectiveConfigVersion ++ ofUnsigned 2 configSchemaVersion ++
    ofUnsigned 2 sourcePolicyVersion ++
    ofUnsigned 2 cachePolicyVersion ++ ofUnsigned 2 replayDataPolicyVersion

/-- The canonical bytes, one part after the other. -/
theorem encodeSemantics_parts (self : EffectiveRunConfig) : self.encodeSemantics =
    .ok runHeader ++ appendText self.source.text ++
      (appendLength self.tradingDates.length ++ encodeAll appendDate self.tradingDates) ++
      (appendLength self.universeInstruments.length ++
        encodeAll appendInstrument self.universeInstruments) ++
      (appendLength self.instrumentContracts.length ++
        encodeAll appendInstrumentContract self.instrumentContracts) ++
      (appendLength self.sessionKinds.length ++
        encodeAll (byteOf SessionKind.discriminant) self.sessionKinds) ++
      self.strategy.identity.appendCanonical ++ bytesOf Digest.bytes self.strategy.paramsChecksum ++
      byteOf SourcePolicy.discriminant self.sourcePolicy ++
        byteOf CachePolicy.discriminant self.cachePolicy ++
      byteOf ReplayDataPolicy.discriminant self.replayDataPolicy ++
        appendSimulation self.simulation true ++
      (appendLength self.instrumentEconomics.length ++
        encodeAll appendEconomics self.instrumentEconomics) ++
      byteOf OutputPolicy.discriminant self.outputPolicy := by
  have hsession : byteOf SessionKind.discriminant = appendSession := rfl
  simp [EffectiveRunConfig.encodeSemantics, EffectiveRunConfig.canonicalVersion, runHeader,
    hsession, appendStrategyIdentity,
    StrategyIdentity.appendCanonical, appendCounted, appendText, byteOf, bytesOf,
    encoded_append_assoc]

theorem semantics_eq_of_encoded {a b : EffectiveRunConfig} {bytes : List UInt8}
    (ha : a.encodeSemantics = .ok bytes)
    (hb : b.encodeSemantics = .ok bytes) : a.semantics = b.semantics := by
  have hlists :=
    (((((constant_prefixFree runHeader).seq text_prefixFree).seq
      (counted_prefixFree date_prefixFree)).seq
    (counted_prefixFree instrument_prefixFree)).seq (counted_prefixFree contract_prefixFree)).seq
    (counted_prefixFree (byteOf_prefixFree SessionKind.discriminant_injective))
  have hpolicies :=
    ((((hlists.seq strategyIdentity_prefixFree).seq (bytesOf_prefixFree digest_prefixFree)).seq
    (byteOf_prefixFree SourcePolicy.discriminant_injective)).seq
      (byteOf_prefixFree CachePolicy.discriminant_injective)).seq
    (byteOf_prefixFree ReplayDataPolicy.discriminant_injective)
  have hparts :=
    ((hpolicies.seq simulation_prefixFree).seq (counted_prefixFree economics_prefixFree)).seq
    (byteOf_prefixFree OutputPolicy.discriminant_injective)
  exact (hparts a.semantics b.semantics bytes bytes [] [] ((encodeSemantics_parts a).symm.trans ha)
    ((encodeSemantics_parts b).symm.trans hb) rfl).1

theorem sourceId_ext {a b : SourceId} (h : a.text = b.text) : a = b := by
  cases a
  cases b
  cases h
  rfl

theorem strategyBinding_ext {a b : StrategyBinding} (hidentity : a.identity = b.identity)
    (hparams : a.paramsChecksum = b.paramsChecksum)
    (hdeclaration : a.declaration = b.declaration) : a = b := by
  cases a
  cases b
  cases hidentity
  cases hparams
  cases hdeclaration
  rfl

/-- Two accepted runs have the same canonical bytes just where they are the same run, wherever their
data are. -/
theorem run_identity_iff (hash : List UInt8 → Digest) (a b : RunConfig) (x y : EffectiveRunConfig)
    (hx : EffectiveRunConfig.resolve hash a = .ok x)
    (hy : EffectiveRunConfig.resolve hash b = .ok y) :
    x.canonicalSemantics = y.canonicalSemantics ↔ y = { x with dataRoot := y.dataRoot } := by
  obtain ⟨hcx, hhx⟩ := coherent_of_resolve hx
  obtain ⟨hcy, hhy⟩ := coherent_of_resolve hy
  refine ⟨fun hsame => ?_, fun hrun => by rw [hrun]⟩
  have hsemantics := semantics_eq_of_encoded hcx.canonical (hsame ▸ hcy.canonical)
  simp only [EffectiveRunConfig.semantics, Prod.mk.injEq, true_and] at hsemantics
  obtain ⟨⟨⟨⟨⟨⟨⟨⟨⟨⟨⟨⟨hsource, hdates⟩, hinstruments⟩, hcontracts⟩, hkinds⟩, hidentity⟩, hparams⟩,
      hpolicy⟩, -⟩, hreplay⟩, hsimulation⟩, heconomics⟩, -⟩ := hsemantics
  have hdeclaration : x.strategy.declaration = y.strategy.declaration := by
    rw [hcx.declaration, hcy.declaration, hinstruments, hkinds]
  have hchecksum : x.checksum = y.checksum := by rw [hhx, hhy, hsame]
  have hstrategy := strategyBinding_ext hidentity hparams hdeclaration
  exact EffectiveRunConfig.ext (sourceId_ext hsource).symm hdates.symm hinstruments.symm
    hcontracts.symm hkinds.symm hstrategy.symm rfl
    hpolicy.symm rfl hreplay.symm hsimulation.symm heconomics.symm rfl hsame.symm hchecksum.symm

end Identity

section Samples

def note : Text := ⟨[110], Eq.refl true⟩

def freeCharge : ChargeConfig :=
  ⟨.notionalRate, Decimal.zero, .buyAndSell, Decimal.zero, 0, .down, note⟩

def oneLot : Decimal := ⟨Signed.wrap 128 1000000000000000000⟩

def equityContract (symbol : Symbol) : InstrumentContractConfig :=
  ⟨⟨.twse, symbol⟩, .equity, none, .twseRegular, none⟩

def equityEconomics (symbol : Symbol) : InstrumentEconomicsConfig :=
  ⟨⟨.twse, symbol⟩, .share, Unsigned.wrap 64 1, .twd, oneLot, note⟩

def freeSimulation (instrumentCharges : List InstrumentChargeConfig) : SimulationConfig where
  executionPolicy := .subsequentEventV1
  scheduledExecution := none
  fillModel := ⟨.topOfBook, .observed⟩
  latency := ⟨0, 0⟩
  quantityAllocation := .acceptanceSequence
  slippageModel := .adverseFixedDelta Decimal.zero
  feeModel := freeCharge
  taxModel := freeCharge
  initialCash := ⟨.twd, oneLot⟩
  positionAccounting := .averageCostV1
  markingPolicy := .lastObservableV1 false
  instrumentCharges := instrumentCharges

/-- Two instruments on two dates, listed in one order or the other. -/
def sampleRun (tradingDates : List TradingDate) (symbols : List Symbol) : RunConfig where
  configVersion := configSchemaVersion
  source := sampleSource
  tradingDates := tradingDates
  universeInstruments := symbols.map fun symbol => ⟨.twse, symbol⟩
  instrumentContracts := symbols.map equityContract
  sessionKinds := [.regular]
  strategy :=
    ⟨sampleStrategyIdentity, sampleHash [],
      ⟨[⟨.twse, secondSymbol⟩, ⟨.twse, firstSymbol⟩], [.regular]⟩⟩
  dataRoot := [100]
  sourcePolicy := none
  cachePolicy := none
  replayDataPolicy := none
  simulation :=
    freeSimulation (symbols.map fun symbol => ⟨⟨.twse, symbol⟩, freeCharge, freeCharge, none⟩)
  instrumentEconomics := symbols.map equityEconomics
  outputPolicy := none

def listedRun : RunConfig := sampleRun [firstDay, secondDay] [firstSymbol, secondSymbol]

/-- The same run in another order, with a date twice. -/
def relistedRun : RunConfig :=
  sampleRun [secondDay, firstDay, secondDay] [secondSymbol, firstSymbol]

theorem listedRun_accepted : ∃ effective,
    EffectiveRunConfig.resolve sampleHash listedRun = .ok effective :=
  exists_of_isOk (by decide +kernel)

theorem relisted_sameRun : SameRun listedRun relistedRun where
  rest := rfl
  tradingDates date := by
    simp only [listedRun, relistedRun, sampleRun, List.mem_cons, List.not_mem_nil, or_false]
    tauto
  universeInstruments _ := (List.Perm.swap _ _ []).mem_iff
  instrumentContracts := .swap _ _ []
  sessionKinds _ := Iff.rfl
  simulation := ⟨rfl, .swap _ _ []⟩
  instrumentEconomics := .swap _ _ []

/-- A warrant on the index. -/
def indexWarrant : InstrumentContractConfig where
  instrument := ⟨.twse, firstSymbol⟩
  instrumentClass := .warrant
  shape := none
  sessionProfile := .twseRegular
  reference := some ⟨note, secondDay, oneLot, .call, .twd, oneLot, .share, Unsigned.wrap 64 1, note⟩

/-- A warrant and an equity. -/
def warrantRun : RunConfig :=
  { listedRun with instrumentContracts := [indexWarrant, equityContract secondSymbol] }

/-- The warrant is found with the economics of its reference. Nothing is found for another symbol.
-/
theorem warrantRun_covered : ∃ effective, EffectiveRunConfig.resolve sampleHash warrantRun =
    .ok effective ∧
    Coherent effective ∧
    (∃ contract economics, effective.contractFor ⟨.twse, firstSymbol⟩ = some contract ∧
      (effective.instrumentEconomics.find? fun value => value.instrument = ⟨.twse, firstSymbol⟩) =
        some economics ∧
      ∀ reference ∈ contract.reference, referenceAgrees economics reference = true) ∧
    ¬ ∃ contract economics, effective.contractFor sampleInstrument = some contract ∧
      (effective.instrumentEconomics.find? fun value => value.instrument = sampleInstrument) =
        some economics ∧
      ∀ reference ∈ contract.reference, referenceAgrees economics reference = true := by
  obtain ⟨effective, h⟩ : ∃ effective, EffectiveRunConfig.resolve sampleHash warrantRun =
      .ok effective :=
    exists_of_isOk (by decide +kernel)
  obtain ⟨hcoherent, hasked⟩ := accepted_run_covered sampleHash warrantRun effective h
  refine ⟨effective, h, hcoherent, (hasked _).1 (by decide), fun hfound => ?_⟩
  exact absurd ((hasked sampleInstrument).2 hfound) (by decide)

end Samples

end RunPlanner

end Osmium
