import Osmium.Spec.Strategy

/-! The numbers of the outputs of a callback. Three traversals of a sink number its indicators and
its cash charges: one for the charges alone, one for the records of an event, one for those of a
control. -/

namespace Osmium
open Machine Bytes Result

/-- What a charge asks for. -/
structure ChargeTerms where
  amount : Decimal
  category : Text
  reference : Text
deriving DecidableEq

def CashChargeRequest.terms (charge : CashChargeRequest) : ChargeTerms :=
  ⟨charge.amount, charge.category, charge.reference⟩

/-- The number and the terms of a charge among the records; none for an indicator. -/
def StrategyOutputRecord.numberedCharge : StrategyOutputRecord → Option (U32 × ChargeTerms)
  | .eventCashCharge _ _ _ outputSequence amount category reference
  | .controlCashCharge _ _ outputSequence amount category reference =>
    some (outputSequence, ⟨amount, category, reference⟩)
  | .eventIndicator _ _ _ _ _ _ | .finalizeIndicator _ _ _ | .controlIndicator _ _ _ _ _ => none

namespace StrategyOutputSink

section Records
variable {indicator : U32 → Text → IndicatorValue → StrategyOutputRecord}
  {charge : U32 → CashChargeRequest → StrategyOutputRecord}

theorem outputSequence_ok {count : ℕ} {sequence : U32} : outputSequence count = .ok sequence ↔
    sequence.val = count := by
  rw [outputSequence, okOr_eq_ok, Unsigned.ofNat?_eq_some]

theorem exists_outputSequence {count : ℕ} (h : count < 2 ^ 32) :
    ∃ sequence, outputSequence count = .ok sequence :=
  ⟨⟨count, h⟩, outputSequence_ok.2 rfl⟩

theorem numberCharges_ok {indicators index : ℕ} {charges : List CashChargeRequest}
    {numbered : List (U32 × CashChargeRequest)}
    (h : numberCharges indicators charges index = .ok numbered) :
    numbered.map Prod.snd = charges := by
  induction charges generalizing index numbered with
  | nil =>
    cases h
    rfl
  | cons charge rest ih =>
    obtain ⟨sequence, -, h⟩ := (bind_eq_ok _ _ _).1 h
    obtain ⟨later, hlater, heq⟩ := (bind_eq_ok _ _ _).1 h
    obtain rfl := (pure_eq_ok _ _).1 heq
    rw [List.map_cons, ih hlater]

/-- One record for each indicator. -/
theorem indicatorRecords_ok {pending : List (Text × IndicatorValue)} {index : ℕ}
    {records : List StrategyOutputRecord}
    (h : indicatorRecords indicator pending index = .ok records) :
    records.length = pending.length ∧
    ∀ record ∈ records, ∃ sequence name value, record = indicator sequence name value := by
  induction pending generalizing index records with
  | nil =>
    cases h
    exact ⟨rfl, by simp⟩
  | cons entry rest ih =>
    obtain ⟨sequence, -, h⟩ := (bind_eq_ok _ _ _).1 h
    obtain ⟨later, hlater, heq⟩ := (bind_eq_ok _ _ _).1 h
    obtain rfl := (pure_eq_ok _ _).1 heq
    obtain ⟨hlength, hall⟩ := ih hlater
    exact ⟨congrArg (· + 1) hlength,
      List.forall_mem_cons.2 ⟨⟨sequence, entry.1, entry.2, rfl⟩, hall⟩⟩

theorem exists_indicatorRecords {pending : List (Text × IndicatorValue)} {index : ℕ}
    (h : index + pending.length < 2 ^ 32) :
    ∃ records, indicatorRecords indicator pending index = .ok records := by
  induction pending generalizing index with
  | nil => exact ⟨[], rfl⟩
  | cons entry rest ih =>
    rw [List.length_cons] at h
    obtain ⟨sequence, hsequence⟩ := @exists_outputSequence (index + 1) (by omega)
    obtain ⟨later, hlater⟩ := @ih (index + 1) (by omega)
    refine ⟨indicator sequence entry.1 entry.2 :: later,
      (bind_eq_ok _ _ _).2 ⟨sequence, hsequence, ?_⟩⟩
    exact (bind_eq_ok _ _ _).2 ⟨later, hlater, rfl⟩

/-- The number a charge gets from the records before it is its place after the indicators. -/
theorem pushCharges_eq (charges : List CashChargeRequest) (records : List StrategyOutputRecord)
    (indicators index : ℕ)
    (hlength : records.length = indicators + index) : pushCharges charge charges records =
      (fun numbered => records ++ numbered.map fun entry => charge entry.1 entry.2) <$>
        numberCharges indicators charges index := by
  induction charges generalizing records index with
  | nil => simp [pushCharges, numberCharges]
  | cons request rest ih =>
    rw [pushCharges, numberCharges, hlength, add_assoc]
    cases outputSequence (indicators + (index + 1)) with
    | error e => rfl
    | ok sequence =>
      have hrest :=
        ih (records ++ [charge sequence request]) (index + 1) (by simp [hlength, add_assoc])
      change pushCharges charge rest (records ++ [charge sequence request]) = _
      rw [hrest]
      cases numberCharges indicators rest
        (index + 1) <;> simp [Functor.map, Except.map, bind, Except.bind, pure, Except.pure]

end Records

section Agreement
variable {sink : StrategyOutputSink}
  {indicator : U32 → Text → IndicatorValue → StrategyOutputRecord}
  {charge : U32 → CashChargeRequest → StrategyOutputRecord}

/-- The records of a callback: those of its indicators, and after them those of its charges. -/
def recordsOf (indicator : U32 → Text → IndicatorValue → StrategyOutputRecord)
    (charge : U32 → CashChargeRequest → StrategyOutputRecord) (sink : StrategyOutputSink) :
    Except StrategyOutputEncodingError (List StrategyOutputRecord) := do
  let records ← indicatorRecords indicator sink.pending 0
  pushCharges charge sink.cashCharges records

theorem recordsOf_ok
    (hindicator : ∀ sequence name value, (indicator sequence name value).numberedCharge = none)
    (hcharge : ∀ sequence request,
      (charge sequence request).numberedCharge = some (sequence, request.terms))
    {records : List StrategyOutputRecord} (h : recordsOf indicator charge sink = .ok records) :
    ∃ numbered, sink.cashChargesWithOutputSequences = .ok numbered ∧
      records.filterMap StrategyOutputRecord.numberedCharge = numbered.map fun entry =>
        (entry.1, entry.2.terms) := by
  obtain ⟨indicators, hindicators, h⟩ := (bind_eq_ok _ _ _).1 h
  have hlength : indicators.length = sink.pending.length + 0 := (indicatorRecords_ok hindicators).1
  have hnone : indicators.filterMap StrategyOutputRecord.numberedCharge = [] := by
    rw [List.filterMap_eq_nil_iff]
    intro record hrecord
    obtain ⟨sequence, name, value, rfl⟩ := (indicatorRecords_ok hindicators).2 record hrecord
    exact hindicator _ _ _
  rw [pushCharges_eq sink.cashCharges indicators sink.pending.length 0 hlength] at h
  obtain ⟨numbered, hnumbered, rfl⟩ := (map_eq_ok _ _ _).1 h
  refine ⟨numbered, hnumbered, ?_⟩
  rw [List.filterMap_append, hnone, List.nil_append, List.filterMap_map, ← List.filterMap_eq_map]
  exact List.filterMap_congr fun entry _ => hcharge entry.1 entry.2

/-- Where the charges can be numbered and there are some, everything before them can be. -/
theorem exists_recordsOf {numbered : List (U32 × CashChargeRequest)} (hne : sink.cashCharges ≠ [])
    (h : sink.cashChargesWithOutputSequences = .ok numbered) :
    ∃ records, recordsOf indicator charge sink = .ok records := by
  have hbound : 0 + sink.pending.length < 2 ^ 32 := by
    obtain ⟨first, rest, hcharges⟩ := List.exists_cons_of_ne_nil hne
    rw [cashChargesWithOutputSequences, hcharges] at h
    obtain ⟨sequence, hsequence, -⟩ := (bind_eq_ok _ _ _).1 h
    have hval := outputSequence_ok.1 hsequence
    have hlt := sequence.lt
    omega
  obtain ⟨indicators, hindicators⟩ := @exists_indicatorRecords indicator _ _ hbound
  have hlength : indicators.length = sink.pending.length + 0 := (indicatorRecords_ok hindicators).1
  have hpush := @pushCharges_eq charge sink.cashCharges indicators sink.pending.length 0 hlength
  rw [show numberCharges sink.pending.length sink.cashCharges 0 = .ok numbered from h] at hpush
  exact ⟨_, (bind_eq_ok _ _ _).2 ⟨indicators, hindicators, hpush⟩⟩

end Agreement

end StrategyOutputSink

/-- Every charge has one number, whether the charges are counted alone or among the records of an
event or of a control, and where there are charges all three traversals succeed or none does. -/
theorem output_sequences_agree (sink : StrategyOutputSink) (occurrence : EventOccurrence)
    (controlSequence : U64) (controlTime : MatchTime) :
    (∀ numbered, sink.cashChargesWithOutputSequences = .ok numbered →
      numbered.map Prod.snd = sink.cashCharges ∧
      (sink.cashCharges ≠ [] → (∃ records, sink.intoEventRecords occurrence = .ok records) ∧
        ∃ records, sink.intoControlRecords controlSequence controlTime = .ok records)) ∧
    (∀ records, sink.intoEventRecords occurrence = .ok records → ∃ numbered,
      sink.cashChargesWithOutputSequences = .ok numbered ∧
        records.filterMap StrategyOutputRecord.numberedCharge = numbered.map fun entry =>
          (entry.1, entry.2.terms)) ∧
    ∀ records, sink.intoControlRecords controlSequence controlTime = .ok records → ∃ numbered,
      sink.cashChargesWithOutputSequences = .ok numbered ∧
        records.filterMap StrategyOutputRecord.numberedCharge = numbered.map fun entry =>
          (entry.1, entry.2.terms) := by
  refine ⟨fun numbered h => ⟨StrategyOutputSink.numberCharges_ok h, fun hne => ⟨?_, ?_⟩⟩,
    fun records h => ?_, fun records h => ?_⟩
  · exact StrategyOutputSink.exists_recordsOf hne h
  · exact StrategyOutputSink.exists_recordsOf hne h
  · exact StrategyOutputSink.recordsOf_ok (fun _ _ _ => rfl) (fun _ _ => rfl) h
  · exact StrategyOutputSink.recordsOf_ok (fun _ _ _ => rfl) (fun _ _ => rfl) h

end Osmium
