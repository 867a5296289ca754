import Osmium.Spec.RunConfig

/-! What a run configuration must be to be accepted, and what about it does not matter: the order of
its dates, instruments and sessions and how often it names them, and the order of the parts it lists
for each instrument. -/

namespace Osmium
open Machine Bytes Codec Result

namespace RunPlanner

section Lists
variable {α : Type} [Ord α] [Std.TransOrd α] [Std.LawfulEqOrd α] [DecidableEq α]
  {values values' l : List α} {e : ConfigError}

theorem canonicalNonEmpty_ok (h : canonicalNonEmpty values e = .ok l) :
    l ≠ [] ∧ (l.Pairwise fun a b => compare a b = .lt) ∧ ∀ a, a ∈ l ↔ a ∈ values := by
  simp only [canonicalNonEmpty, bind_eq_ok, ensure_eq_ok, pure_eq_ok] at h
  obtain ⟨-, hne, rfl⟩ := h
  refine ⟨fun hnil => ?_, Std.ExtTreeSet.ordered_toList, fun a => ?_⟩
  · rw [← Std.ExtTreeSet.isEmpty_toList, hnil] at hne
    cases hne
  · rw [Std.ExtTreeSet.mem_toList, Std.ExtTreeSet.mem_ofList, List.contains_iff_mem]

theorem canonicalNonEmpty_congr (h : ∀ a, a ∈ values ↔ a ∈ values') (e : ConfigError) :
    canonicalNonEmpty values e = canonicalNonEmpty values' e := by
  have hset : Std.ExtTreeSet.ofList values = Std.ExtTreeSet.ofList values' := by
    refine Std.ExtTreeSet.ext_mem fun a => ?_
    rw [Std.ExtTreeSet.mem_ofList, Std.ExtTreeSet.mem_ofList, List.contains_iff_mem,
      List.contains_iff_mem, h]
  rw [canonicalNonEmpty, hset, canonicalNonEmpty]

end Lists

section Contracts
variable {contracts contracts' accepted : List InstrumentContractConfig}
  {instruments : List InstrumentId}

theorem differs_isClash : Keyed.IsClash InstrumentContractConfig.instrument differs where
  symm a b h := by
    simp only [differs, Bool.and_eq_true, decide_eq_true_eq] at h ⊢
    exact ⟨h.1.symm, h.2.symm⟩
  same a b h := by
    simp only [differs, Bool.and_eq_true, decide_eq_true_eq] at h
    exact h.1
  alike a b c hkey hab hac := by
    simp only [differs, Bool.and_eq_true, decide_eq_true_eq, Bool.and_eq_false_iff,
      decide_eq_false_iff_not] at hab hac ⊢
    obtain rfl : a = b := by
      by_contra hne
      rcases hab with hab | hab
      · exact hab hkey
      · exact hab hne
    exact hac

/-- Without a clash an instrument has one contract. -/
theorem eq_of_unclashing (h : Keyed.firstClash InstrumentContractConfig.instrument differs
    (Keyed.sort InstrumentContractConfig.instrument contracts) = none) :
    ∀ a ∈ contracts, ∀ b ∈ contracts, a.instrument = b.instrument → a = b := by
  intro a ha b hb hkey
  by_contra hne
  have hapart := Keyed.firstClash_none differs_isClash (Keyed.sort_sorted _ _) h
  have hsymm : Std.Symm fun a b => differs a b = false := ⟨fun a b hab => by
    by_contra hba
    rw [differs_isClash.symm b a (Bool.eq_true_of_not_eq_false hba)] at hab
    cases hab⟩
  have hab := hapart.forall ((Keyed.mem_sort _).2 ha) ((Keyed.mem_sort _).2 hb) hne
  simp [differs, hkey, hne] at hab

theorem validateInstrumentContracts_perm (hperm : contracts.Perm contracts')
    (instruments : List InstrumentId) :
    validateInstrumentContracts contracts instruments =
      validateInstrumentContracts contracts' instruments := by
  have hclash := Keyed.firstClash_sort_perm differs_isClash hperm
  unfold validateInstrumentContracts
  cases h : Keyed.firstClash InstrumentContractConfig.instrument differs
    (Keyed.sort InstrumentContractConfig.instrument contracts) with
  | some instrument => simp only [← hclash, h]
  | none =>
    have hsort := Keyed.sort_eq_of_perm hperm (eq_of_unclashing h)
    simp only [← hsort, h]

theorem validateContracts_ok (instruments : List InstrumentId)
    (previous : Option InstrumentContractConfig)
    (h : validateContracts instruments previous accepted = .ok ()) :
    ∀ contract ∈ accepted, ∃ previous, contractInvalid instruments previous contract = false := by
  induction accepted generalizing previous with
  | nil => simp
  | cons contract rest ih =>
    simp only [validateContracts, bind_eq_ok, ensure_eq_ok] at h
    obtain ⟨-, hvalid, hrest⟩ := h
    exact List.forall_mem_cons.2 ⟨⟨previous, hvalid⟩, ih (some contract) hrest⟩

/-- What a contract must be, whatever stands before it. -/
structure ValidContract (contract : InstrumentContractConfig) : Prop where
  supported : supportsContract contract.sessionProfile contract.instrument.market
      contract.instrumentClass contract.shape = true
  shaped : contractShapeMatchesClass contract.instrumentClass contract.shape = true
  referenced : needsReference contract.instrumentClass = true → contract.reference.isSome = true
  reference : ∀ reference ∈ contract.reference, reference.isValid = true

theorem validContract_of_not_invalid {contract : InstrumentContractConfig}
    {previous : Option InstrumentContractConfig}
    (h : contractInvalid instruments previous contract = false) :
    contract.instrument ∈ instruments ∧ ValidContract contract := by
  simp only [contractInvalid, Bool.or_eq_false_iff, decide_eq_false_iff_not, not_not,
    Bool.not_eq_eq_eq_not, Bool.not_false,
    Bool.and_eq_false_iff, Option.isNone_eq_false_iff, Option.any_eq_false] at h
  obtain ⟨⟨⟨⟨⟨hmem, -⟩, hsupported⟩, hshaped⟩, hneeded⟩, hreference⟩ := h
  refine ⟨hmem, hsupported, hshaped, fun hneeds => ?_, fun reference hreference' => ?_⟩
  · rcases hneeded with hneeded | hneeded
    · rw [hneeds] at hneeded
      cases hneeded
    · exact hneeded
  · simpa using hreference reference hreference'

/-- An instrument of the universe has one contract, at its place. -/
theorem validateInstrumentContracts_ok
    (hinstruments : instruments.Pairwise fun a b => compare a b = .lt)
    (h : validateInstrumentContracts contracts instruments = .ok accepted) :
    accepted.map InstrumentContractConfig.instrument = instruments ∧
    (∀ contract ∈ accepted, contract ∈ contracts) ∧
      ∀ contract ∈ accepted, ValidContract contract := by
  unfold validateInstrumentContracts at h
  simp only at h
  split at h
  · simp at h
  · simp only [bind_eq_ok, ensure_eq_ok, pure_eq_ok] at h
    obtain ⟨-, hlength, ⟨⟩, hvalid, -, -, rfl⟩ := h
    have hascending := Keyed.firsts_ascending InstrumentContractConfig.instrument
      (Keyed.sort_sorted InstrumentContractConfig.instrument contracts)
    have hall := validateContracts_ok instruments none hvalid
    have hsubset : ∀ instrument ∈ (Keyed.firsts InstrumentContractConfig.instrument
        (Keyed.sort InstrumentContractConfig.instrument contracts)).map
          InstrumentContractConfig.instrument,
        instrument ∈ instruments := by
      intro instrument hmem
      obtain ⟨contract, hcontract, rfl⟩ := List.mem_map.1 hmem
      obtain ⟨_, hnot⟩ := hall contract hcontract
      exact (validContract_of_not_invalid hnot).1
    have hperm :=
      (hascending.nodup.subperm hsubset).perm_of_length_le (by rw [List.length_map, hlength])
    have hordered : Keyed.Ascending id instruments := hinstruments
    have hplaces := hascending.keys_eq hordered (by rwa [List.map_id])
    rw [List.map_id] at hplaces
    refine ⟨hplaces, fun contract hmem => ?_, fun contract hmem => ?_⟩
    · exact (Keyed.mem_sort _).1 ((Keyed.firsts_sublist _ _).mem hmem)
    · obtain ⟨_, hnot⟩ := hall contract hmem
      exact (validContract_of_not_invalid hnot).2

end Contracts

section Charges
variable {simulation simulation' accepted : SimulationConfig} {instruments : List InstrumentId}
  {tradingDates : List TradingDate}

theorem repeats_isClash : Keyed.IsClash InstrumentChargeConfig.instrument repeats where
  symm a b h := by
    simp only [repeats, decide_eq_true_eq] at h ⊢
    exact h.symm
  same a b h := by
    simpa [repeats] using h
  alike a b c hkey hab _ := by
    simp [repeats, hkey] at hab

theorem nodup_of_unclashing {charges : List InstrumentChargeConfig}
    (h : Keyed.firstClash InstrumentChargeConfig.instrument repeats
    (Keyed.sort InstrumentChargeConfig.instrument charges) = none) :
    (charges.map InstrumentChargeConfig.instrument).Nodup := by
  have hapart :=
    (Keyed.firstClash_none repeats_isClash (Keyed.sort_sorted _ _) h).perm repeats_isClash.symm
      (Keyed.sort_perm _ _)
  rw [List.Nodup, List.pairwise_map]
  refine hapart.imp fun {a b} hab => ?_
  simpa [repeats] using hab

/-- Simulations that list the charges of the instruments in different orders. -/
structure SameSimulation (a b : SimulationConfig) : Prop where
  rest : { a with instrumentCharges := b.instrumentCharges } = b
  charges : a.instrumentCharges.Perm b.instrumentCharges

theorem validateInstrumentCharges_same (h : SameSimulation simulation simulation')
    (instruments : List InstrumentId) (tradingDates : List TradingDate) :
    validateInstrumentCharges simulation instruments tradingDates =
      validateInstrumentCharges simulation' instruments tradingDates := by
  have hclash := Keyed.firstClash_sort_perm repeats_isClash h.charges
  unfold validateInstrumentCharges
  cases hnone : Keyed.firstClash InstrumentChargeConfig.instrument repeats
      (Keyed.sort InstrumentChargeConfig.instrument simulation.instrumentCharges) with
  | some instrument => simp only [← hclash, hnone]
  | none =>
    have hsame : ∀ a ∈ simulation.instrumentCharges, ∀ b ∈ simulation.instrumentCharges,
        a.instrument = b.instrument → a = b :=
      fun a ha b hb => List.inj_on_of_nodup_map (nodup_of_unclashing hnone) ha hb
    have hsort := Keyed.sort_eq_of_perm h.charges hsame
    simp only [← hsort, hnone]
    rw [← h.rest]

/-- What the charges of an instrument must be. -/
structure ValidCharges (instruments : List InstrumentId) (tradingDates : List TradingDate)
    (charges : InstrumentChargeConfig) : Prop where
  inside : charges.instrument ∈ instruments
  fee : validateCharge charges.fee .invalidFee = .ok ()
  tax : validateCharge charges.tax .invalidTax = .ok ()
  dayTrade : ∀ dayTrade ∈ charges.dayTradeTax, ¬ dayTradeInvalid charges dayTrade ∧
      validateCharge dayTrade.charge .invalidTax = .ok () ∧
    (dayTrade.eligibilityRequired = true → ∀ date ∈ tradingDates, dayTrade.isEligible date = true)

theorem validateChargesOf_ok {charges : InstrumentChargeConfig} :
    validateChargesOf instruments tradingDates charges = .ok () ↔
    ValidCharges instruments tradingDates charges := by
  simp only [validateChargesOf, bind_eq_ok, ensure_eq_ok]
  constructor
  · rintro ⟨-, hinside, ⟨⟩, hfee, ⟨⟩, htax, hrest⟩
    refine ⟨hinside, hfee, htax, fun dayTrade hdayTrade => ?_⟩
    rw [Option.mem_def] at hdayTrade
    simp only [hdayTrade, bind_eq_ok, ensure_eq_ok] at hrest
    obtain ⟨-, hvalid, ⟨⟩, hcharge, heligible⟩ := hrest
    exact ⟨hvalid, hcharge, heligible⟩
  · intro h
    refine ⟨(), h.inside, (), h.fee, (), h.tax, ?_⟩
    cases hdayTrade : charges.dayTradeTax with
    | none => rfl
    | some dayTrade =>
      obtain ⟨hvalid, hcharge, heligible⟩ := h.dayTrade dayTrade hdayTrade
      simp only [bind_eq_ok, ensure_eq_ok]
      exact ⟨(), hvalid, (), hcharge, heligible⟩

theorem validateInstrumentCharges_ok
    (h : validateInstrumentCharges simulation instruments tradingDates = .ok accepted) :
    SameSimulation simulation accepted ∧
    Keyed.Ascending InstrumentChargeConfig.instrument accepted.instrumentCharges ∧
      ∀ charges ∈ accepted.instrumentCharges, ValidCharges instruments tradingDates charges := by
  unfold validateInstrumentCharges at h
  simp only at h
  split at h
  · simp at h
  · rename_i hnone
    simp only [bind_eq_ok, pure_eq_ok] at h
    obtain ⟨⟨⟩, hvalid, rfl⟩ := h
    have hperm := Keyed.sort_perm InstrumentChargeConfig.instrument simulation.instrumentCharges
    refine ⟨⟨rfl, hperm.symm⟩, ?_, fun charges hmem =>
      validateChargesOf_ok.1 (forM_eq_ok.1 hvalid charges hmem)⟩
    exact Keyed.ascending_of_nodup (Keyed.sort_sorted _ _)
      ((hperm.map _).nodup_iff.2 (nodup_of_unclashing hnone))

end Charges

section Economics
variable {values values' accepted : List InstrumentEconomicsConfig}
  {instruments : List InstrumentId}

def ValidEconomics (instruments : List InstrumentId) (value : InstrumentEconomicsConfig) : Prop :=
  value.instrument ∈ instruments ∧
    validEconomicsTerms value.quantityUnit value.unitsPerTradingUnit value.multiplier
      value.provenance = true

theorem indexEconomics_iff {seen : List InstrumentEconomicsConfig}
    {m m' : Std.ExtTreeMap InstrumentId InstrumentEconomicsConfig}
    (hseen : Keyed.Indexes InstrumentEconomicsConfig.instrument seen m) :
    indexEconomics instruments values m = .ok m' ↔
      (∀ value ∈ values, ValidEconomics instruments value) ∧
      (values.map InstrumentEconomicsConfig.instrument).Nodup ∧
        (∀ value ∈ values, value.instrument ∉ seen.map InstrumentEconomicsConfig.instrument) ∧
        Keyed.Indexes InstrumentEconomicsConfig.instrument (values ++ seen) m' := by
  induction values generalizing seen m with
  | nil =>
    constructor
    · intro h
      obtain rfl := Except.ok.inj h
      exact ⟨by simp, by simp, by simp, hseen⟩
    · rintro ⟨-, -, -, hindex⟩
      rw [hseen.eq_of_mem_iff hindex fun _ => Iff.rfl]
      rfl
  | cons value rest ih =>
    have hmoved : ∀ other, other ∈ rest ++ value :: seen ↔ other ∈ value :: rest ++ seen := by
      intro other
      simp only [List.mem_append, List.mem_cons]
      tauto
    simp only [indexEconomics, bind_eq_ok, ensure_eq_ok, hseen.mem_iff]
    constructor
    · rintro ⟨-, hinside, -, hterms, -, hfresh, h⟩
      obtain ⟨hvalid, hnodup, hapart, hindex⟩ :=
        (ih (hseen.insert (mt (hseen.mem_iff _).1 hfresh))).1 h
      refine ⟨List.forall_mem_cons.2 ⟨⟨hinside, hterms⟩, hvalid⟩, ?_,
        List.forall_mem_cons.2 ⟨hfresh, fun other hother hmem => ?_⟩, hindex.congr hmoved⟩
      · rw [List.map_cons, List.nodup_cons]
        refine ⟨fun hmem => ?_, hnodup⟩
        obtain ⟨other, hother, hkey⟩ := List.mem_map.1 hmem
        exact hapart other hother (by rw [hkey]; exact List.mem_cons_self)
      · exact hapart other hother (List.mem_cons_of_mem _ hmem)
    · rintro ⟨hvalid, hnodup, hapart, hindex⟩
      obtain ⟨⟨hinside, hterms⟩, hvalid⟩ := List.forall_mem_cons.1 hvalid
      obtain ⟨hfresh, hapart⟩ := List.forall_mem_cons.1 hapart
      rw [List.map_cons, List.nodup_cons] at hnodup
      refine ⟨(), hinside, (), hterms, (), hfresh,
        (ih (hseen.insert (mt (hseen.mem_iff _).1 hfresh))).2
        ⟨hvalid, hnodup.2, fun other hother hmem => ?_, hindex.congr fun other =>
          (hmoved other).symm⟩⟩
      rcases List.mem_cons.1 hmem with hkey | hmem
      · exact hnodup.1 (List.mem_map.2 ⟨other, hother, hkey⟩)
      · exact hapart other hother hmem

/-- One economics for each instrument, and all of them valid. -/
structure EconomicsListed (instruments : List InstrumentId)
    (values : List InstrumentEconomicsConfig) : Prop where
  valid : ∀ value ∈ values, ValidEconomics instruments value
  distinct : (values.map InstrumentEconomicsConfig.instrument).Nodup
  complete : ∀ instrument ∈ instruments,
      instrument ∈ values.map InstrumentEconomicsConfig.instrument

theorem EconomicsListed.perm (hperm : values.Perm values')
    (h : EconomicsListed instruments values) :
    EconomicsListed instruments values' where
  valid value hmem := h.valid value (hperm.mem_iff.2 hmem)
  distinct := (hperm.map _).nodup_iff.1 h.distinct
  complete instrument hmem := (hperm.map _).mem_iff.1 (h.complete instrument hmem)

theorem validateEconomics_iff : validateEconomics values instruments = .ok accepted ↔
    EconomicsListed instruments values ∧
    ∃ m, Keyed.Indexes InstrumentEconomicsConfig.instrument values m ∧ accepted = m.values := by
  have hempty := Keyed.Indexes.empty InstrumentEconomicsConfig.instrument
  simp only [validateEconomics, bind_eq_ok, pure_eq_ok, indexEconomics_iff hempty, List.append_nil]
  constructor
  · rintro ⟨m, ⟨hvalid, hnodup, -, hindex⟩, ⟨⟩, hcomplete, rfl⟩
    refine ⟨⟨hvalid, hnodup, fun instrument hmem => (hindex.mem_iff _).1 ?_⟩, m, hindex, rfl⟩
    exact (ensure_eq_ok _ _ _).1 (forM_eq_ok.1 hcomplete instrument hmem)
  · rintro ⟨hlisted, m, hindex, rfl⟩
    refine ⟨m, ⟨hlisted.valid, hlisted.distinct, by simp, hindex⟩, (),
      forM_eq_ok.2 fun instrument hmem => ?_, rfl⟩
    exact (ensure_eq_ok _ _ _).2 ((hindex.mem_iff _).2 (hlisted.complete instrument hmem))

theorem validateEconomics_perm (hperm : values.Perm values')
    (h : validateEconomics values instruments = .ok accepted) :
    validateEconomics values' instruments = .ok accepted := by
  obtain ⟨hlisted, m, hindex, rfl⟩ := validateEconomics_iff.1 h
  exact validateEconomics_iff.2 ⟨hlisted.perm hperm, m, hindex.congr fun _ => hperm.mem_iff, rfl⟩

/-- An instrument of the universe has one economics, at its place. -/
theorem validateEconomics_ok (hinstruments : instruments.Pairwise fun a b => compare a b = .lt)
    (h : validateEconomics values instruments = .ok accepted) :
    accepted.map InstrumentEconomicsConfig.instrument = instruments ∧
    ∀ value ∈ accepted, ValidEconomics instruments value := by
  obtain ⟨hlisted, m, hindex, rfl⟩ := validateEconomics_iff.1 h
  have hascending := hindex.values_ascending
  have hordered : Keyed.Ascending id instruments := hinstruments
  have hnodup : instruments.Nodup := by simpa using hordered.nodup
  have hperm : (m.values.map InstrumentEconomicsConfig.instrument).Perm instruments := by
    refine (List.perm_ext_iff_of_nodup hascending.nodup hnodup).2 fun instrument =>
      ⟨fun hmem => ?_, fun hmem => ?_⟩
    · obtain ⟨value, hvalue, rfl⟩ := List.mem_map.1 hmem
      exact (hlisted.valid value ((hindex.mem_values value).1 hvalue)).1
    · obtain ⟨value, hvalue, rfl⟩ := List.mem_map.1 (hlisted.complete instrument hmem)
      exact List.mem_map.2 ⟨value, (hindex.mem_values value).2 hvalue, rfl⟩
  have hplaces := hascending.keys_eq hordered (by rwa [List.map_id])
  rw [List.map_id] at hplaces
  exact ⟨hplaces, fun value hmem => hlisted.valid value ((hindex.mem_values value).1 hmem)⟩

end Economics

end RunPlanner

end Osmium
