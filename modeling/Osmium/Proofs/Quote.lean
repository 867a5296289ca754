import Osmium.Sanity.Quote
import Osmium.Sanity.Streams

/-! The normalizer of quotes keeps every record: each accepted record goes into one event, its deal
into the trades of that event, and the order of the lines matters only among prints of one match
time. -/

namespace Osmium
open Machine Bytes Result

namespace QuoteNormalizer

section Trades
variable {config : NormalizerConfig} {record : ValidatedRecord} {event : DomainEvent}

/-- What was traded, whatever kind of observation it is. -/
def dealOf (trade : ObservedTrade) : Price × Quantity := (trade.price, trade.quantity)

def tradesOf (event : DomainEvent) : List (Price × Quantity) :=
  match event.payload with
  | .quoteSnapshot snapshot => match snapshot.trade with
    | .set trade => [dealOf trade]
    | _ => []
  | .tradeBatch batch => batch.trades.map dealOf
  | .bookSnapshot _ | .indicativeAuction _ | .marketStatus _ => []

/-- The deal of a record that is not of a trial. -/
def firmDeals (record : ValidatedRecord) : List (Price × Quantity) :=
  if record.annotations.trial = true then [] else record.deal.toList.map dealOf

theorem trial_of_auctionPhase_some {phase : AuctionObservation}
    (h : auctionPhase config record = .ok (some phase)) :
    record.annotations.trial = true := by
  unfold auctionPhase at h
  by_cases htrial : record.annotations.trial = false
  · rw [if_pos htrial] at h
    cases h
  · simpa using htrial

theorem trialPhase_ne_none {opening closing : Bool} :
    trialPhase record opening closing ≠ .ok none := by
  cases opening <;> cases closing <;> simp [trialPhase]

theorem trial_of_auctionPhase_none (h : auctionPhase config record = .ok none) :
    record.annotations.trial = false := by
  unfold auctionPhase at h
  by_contra htrial
  rw [if_neg htrial] at h
  split_ifs at h
  · cases h
  · cases h
  · obtain ⟨openingWindowStart, -, h⟩ := (bind_eq_ok _ _ _).1 h
    obtain ⟨openingWindowEnd, -, h⟩ := (bind_eq_ok _ _ _).1 h
    obtain ⟨closingWindowStart, -, h⟩ := (bind_eq_ok _ _ _).1 h
    obtain ⟨closingWindowEnd, -, h⟩ := (bind_eq_ok _ _ _).1 h
    exact trialPhase_ne_none h

theorem trade_of_new {book : CompleteBookSnapshot} {trade : Observation ObservedTrade}
    {volume : Observation Volume} {annotations : MarketAnnotations} {snapshot : QuoteSnapshot}
    (h : QuoteSnapshot.new book trade volume annotations = .ok snapshot) :
    snapshot.trade = trade := by
  unfold QuoteSnapshot.new at h
  split at h
  · cases h
    rfl
  · cases h

theorem trades_of_new {trades : List ObservedTrade} {ordering : TradeBatchOrdering}
    {volume : Observation Volume} {annotations : MarketAnnotations} {batch : TradeBatch}
    (h : TradeBatch.new trades ordering volume annotations = .ok batch) :
    batch.trades = trades := by
  unfold TradeBatch.new at h
  split at h
  · cases h
    rfl
  · cases h

theorem tradesOf_auctionEvent {phase : AuctionObservation} {book : Observation CompleteBookSnapshot}
    (h : auctionEvent config record phase book = .ok event) : tradesOf event = [] := by
  obtain ⟨auction, -, heq⟩ := (bind_eq_ok _ _ _).1 h
  obtain rfl := (pure_eq_ok _ _).1 heq
  rfl

theorem tradesOf_snapshotEvent {book : CompleteBookSnapshot}
    (h : snapshotEvent config record book = .ok event) :
    tradesOf event = record.deal.toList.map dealOf := by
  obtain ⟨snapshot, hnew, heq⟩ := (bind_eq_ok _ _ _).1 h
  obtain rfl := (pure_eq_ok _ _).1 heq
  have htrade := trade_of_new ((mapError_eq_ok _ _ _).1 hnew)
  simp only [tradesOf, domainEvent, QuoteSnapshot.withMarketSignal, htrade]
  cases record.deal <;> rfl

theorem tradesOf_finalEvent (h : finalEvent config record = .ok event) :
    tradesOf event = firmDeals record := by
  unfold finalEvent at h
  by_cases hprint : record.intermediate = true
  · rw [if_pos hprint] at h
    cases h
  rw [if_neg hprint] at h
  by_cases hpause : isStatusOnlyPause record = true
  · rw [if_pos hpause] at h
    obtain ⟨observation, -, heq⟩ := (bind_eq_ok _ _ _).1 h
    obtain rfl := (pure_eq_ok _ _).1 heq
    have hnone : record.deal = none := by
      simp only [isStatusOnlyPause, Bool.and_eq_true, Option.isNone_iff_eq_none] at hpause
      exact hpause.1.2
    simp [firmDeals, hnone]
    rfl
  rw [if_neg hpause] at h
  obtain ⟨book, -, h⟩ := (bind_eq_ok _ _ _).1 h
  obtain ⟨phase, hphase, h⟩ := (bind_eq_ok _ _ _).1 h
  cases phase with
  | none =>
    rw [tradesOf_snapshotEvent h, firmDeals, if_neg (by simp [trial_of_auctionPhase_none hphase])]
  | some phase =>
    rw [tradesOf_auctionEvent h, firmDeals, if_pos (trial_of_auctionPhase_some hphase)]

theorem tradesOf_batchEvent {trades : List ObservedTrade} {volume : Volume}
    (h : batchEvent config record trades volume = .ok event) :
    tradesOf event = trades.map dealOf := by
  obtain ⟨batch, hnew, heq⟩ := (bind_eq_ok _ _ _).1 h
  obtain rfl := (pure_eq_ok _ _).1 heq
  have htrades := trades_of_new ((mapError_eq_ok _ _ _).1 hnew)
  simp only [tradesOf, domainEvent, TradeBatch.withMarketSignal, htrades]

theorem deals_of_intermediateTrades {prints : List ValidatedRecord} {trades : List ObservedTrade}
    (hfirm : ∀ record ∈ prints, record.annotations.trial = false)
    (h : prints.mapM intermediateTrade = .ok trades) :
    trades.map dealOf = prints.flatMap firmDeals := by
  induction prints generalizing trades with
  | nil =>
    cases h
    rfl
  | cons print prints ih =>
    rw [List.mapM_cons] at h
    obtain ⟨trade, htrade, h⟩ := (bind_eq_ok _ _ _).1 h
    obtain ⟨rest, hrest, heq⟩ := (bind_eq_ok _ _ _).1 h
    obtain rfl := (pure_eq_ok _ _).1 heq
    obtain ⟨deal, hdeal, heq⟩ := (bind_eq_ok _ _ _).1 htrade
    obtain rfl := (pure_eq_ok _ _).1 heq
    rw [List.forall_mem_cons] at hfirm
    rw [List.map_cons, List.flatMap_cons, ih hfirm.2 hrest, firmDeals, hfirm.1,
      (okOr_eq_ok _ _ _).1 hdeal]
    rfl

end Trades

section Made
variable {config : NormalizerConfig}

/-- An event and the records it is made of: a record with its book, a trial print, or all prints of
a group. -/
inductive Made (config : NormalizerConfig) : List ValidatedRecord → DomainEvent → Prop
  | final {record : ValidatedRecord} {event : DomainEvent}
      (made : finalEvent config record = .ok event) :
    Made config [record] event
  | print {record : ValidatedRecord} {event : DomainEvent} (trial : record.annotations.trial = true)
    (made : intermediateEvent config record = .ok event) : Made config [record] event
  | batch {first : ValidatedRecord} {rest : List ValidatedRecord} {event : DomainEvent}
    (firm : ∀ record ∈ first :: rest, record.annotations.trial = false)
    (made : intermediateBatchEvent config first rest = .ok event) :
    Made config (first :: rest) event

theorem Made.trades {sources : List ValidatedRecord} {event : DomainEvent}
    (h : Made config sources event) :
    tradesOf event = sources.flatMap firmDeals := by
  cases h with
  | final made => rw [tradesOf_finalEvent made, List.flatMap_singleton]
  | print trial made =>
    obtain ⟨trade, -, made⟩ := (bind_eq_ok _ _ _).1 made
    obtain ⟨phase, hphase, made⟩ := (bind_eq_ok _ _ _).1 made
    cases phase with
    | none => rw [trial_of_auctionPhase_none hphase] at trial; cases trial
    | some phase => rw [tradesOf_auctionEvent made, List.flatMap_singleton, firmDeals, if_pos trial]
  | batch firm made =>
    obtain ⟨trades, htrades, made⟩ := (bind_eq_ok _ _ _).1 made
    rw [tradesOf_batchEvent made, deals_of_intermediateTrades firm htrades]

/-- Events with the records they are made of, where the records make up a list. -/
structure Makes (config : NormalizerConfig) (records : List ValidatedRecord)
    (events : List DomainEvent) (made : List (List ValidatedRecord × DomainEvent)) : Prop where
  events : events.Perm (made.map Prod.snd)
  sources : (made.flatMap Prod.fst).Perm records
  made : ∀ pair ∈ made, Made config pair.1 pair.2

theorem Makes.append {records records' : List ValidatedRecord} {events events' : List DomainEvent}
    {made made' : List (List ValidatedRecord × DomainEvent)} (h : Makes config records events made)
    (h' : Makes config records' events' made') :
    Makes config (records ++ records') (events ++ events') (made ++ made') where
  events := by
    rw [List.map_append]
    exact h.events.append h'.events
  sources := by
    rw [List.flatMap_append]
    exact h.sources.append h'.sources
  made pair hpair := (List.mem_append.1 hpair).elim (h.made pair) (h'.made pair)

theorem Makes.one {sources : List ValidatedRecord} {event : DomainEvent}
    (h : Made config sources event) :
    Makes config sources [event] [(sources, event)] where
  events := .refl _
  sources := by simp
  made pair hpair := by
    obtain rfl := List.mem_singleton.1 hpair
    exact h

theorem Makes.trades {records : List ValidatedRecord} {events : List DomainEvent}
    {made : List (List ValidatedRecord × DomainEvent)} (h : Makes config records events made) :
    (events.flatMap tradesOf).Perm (records.flatMap firmDeals) := by
  have hpairs : (made.map Prod.snd).flatMap tradesOf =
      (made.flatMap Prod.fst).flatMap firmDeals := by
    rw [List.flatMap_map, List.flatMap_assoc]
    exact List.flatMap_congr fun pair hpair => (h.made pair hpair).trades
  exact (h.events.flatMap_right _).trans
    ((List.Perm.of_eq hpairs).trans (h.sources.flatMap_right _))

/-- Each record on its own. -/
theorem Makes.each {f : ValidatedRecord → Except NormalizationError DomainEvent}
    {records : List ValidatedRecord}
    (hf : ∀ record ∈ records, ∀ event, f record = .ok event → Made config [record] event)
    (hok : ∀ record ∈ records, (f record).isOk = true) :
    ∃ made,
      Makes config records (records.flatMap fun record => (f record).toOption.toList) made := by
  induction records with
  | nil => exact ⟨[], .refl _, .refl _, by simp⟩
  | cons record records ih =>
    rw [List.forall_mem_cons] at hf hok
    obtain ⟨made, hmade⟩ := ih hf.2 hok.2
    obtain ⟨event, hevent⟩ := exists_of_isOk hok.1
    rw [List.flatMap_cons, hevent]
    exact ⟨_, (Makes.one (hf.1 event hevent)).append hmade⟩

theorem auctionPhase_of_checkPhases {first : ValidatedRecord} {phase : Option AuctionObservation}
    {prints : List ValidatedRecord} (h : checkPhases config first phase prints = .ok ()) :
    ∀ print ∈ prints, auctionPhase config print = .ok phase := by
  induction prints with
  | nil => simp
  | cons print prints ih =>
    obtain ⟨own, hown, h⟩ := (bind_eq_ok _ _ _).1 h
    obtain ⟨_, hsame, h⟩ := (bind_eq_ok _ _ _).1 h
    rw [(ensure_eq_ok _ _ ()).1 hsame] at hown
    exact List.forall_mem_cons.2 ⟨hown, ih h⟩

/-- The records of a group, its prints and its final record, make its events. -/
theorem makes_groupEvents {first head final : ValidatedRecord} {tail : List ValidatedRecord}
    {events : List DomainEvent} (h : groupEvents config first head tail final = .ok events) :
    ∃ made, Makes config (head :: tail ++ [final]) events made := by
  obtain ⟨phase, hphase, h⟩ := (bind_eq_ok _ _ _).1 h
  obtain ⟨finalPhase, -, h⟩ := (bind_eq_ok _ _ _).1 h
  obtain ⟨_, hcheck, h⟩ := (bind_eq_ok _ _ _).1 h
  obtain ⟨_, -, h⟩ := (bind_eq_ok _ _ _).1 h
  have hphases := auctionPhase_of_checkPhases hcheck
  cases phase with
  | none =>
    rw [if_neg (by simp)] at h
    obtain ⟨expected, -, h⟩ := (bind_eq_ok _ _ _).1 h
    obtain ⟨_, -, h⟩ := (bind_eq_ok _ _ _).1 h
    obtain ⟨batch, hbatch, h⟩ := (bind_eq_ok _ _ _).1 h
    obtain ⟨event, hevent, heq⟩ := (bind_eq_ok _ _ _).1 h
    obtain rfl := (pure_eq_ok _ _).1 heq
    have hfirm := fun print hprint => trial_of_auctionPhase_none (hphases print hprint)
    exact ⟨_, (Makes.one (.batch hfirm hbatch)).append (Makes.one (.final hevent))⟩
  | some phase =>
    rw [if_pos Option.isSome_some] at h
    obtain ⟨prints, hprints, h⟩ := (bind_eq_ok _ _ _).1 h
    obtain ⟨event, hevent, heq⟩ := (bind_eq_ok _ _ _).1 h
    obtain rfl := (pure_eq_ok _ _).1 heq
    obtain ⟨hok, rfl⟩ := eq_of_mapM_ok hprints
    have htrial := fun print hprint => trial_of_auctionPhase_some (hphases print hprint)
    obtain ⟨made, hmade⟩ :=
      Makes.each (fun print hprint event => Made.print (htrial print hprint)) hok
    exact ⟨_, hmade.append (Makes.one (.final hevent))⟩

variable {records : List ValidatedRecord}

theorem makes_eventsAt {t : MatchTime} {events : List DomainEvent}
    (h : eventsAt config records t = some events) :
    ∃ made, Makes config (groupAt records t) events made := by
  rw [eventsAt_eq_groupOf] at h
  have hsplit := List.filter_append_perm (fun record : ValidatedRecord => record.intermediate)
    (groupAt records t)
  generalize (groupAt records t).filter (fun record => record.intermediate) = prints at h hsplit
  generalize (groupAt records t).filter (fun record => !record.intermediate) = finals at h hsplit
  rcases prints with _ | ⟨head, tail⟩
  · cases h
  · rcases finals with _ | ⟨final, _ | ⟨other, others⟩⟩
    · cases h
    · obtain ⟨made, hmade⟩ := makes_groupEvents ((toOption_eq_some _ _).1 h)
      exact ⟨made, hmade.events, hmade.sources.trans hsplit, hmade.made⟩
    · cases h

theorem makes_times {ts : List MatchTime}
    (h : ∀ t ∈ ts, (eventsAt config records t).isSome = true) :
    ∃ made, Makes config (ts.flatMap (groupAt records))
      (ts.flatMap fun t => (eventsAt config records t).getD []) made := by
  induction ts with
  | nil => exact ⟨[], .refl _, .refl _, by simp⟩
  | cons t ts ih =>
    rw [List.forall_mem_cons] at h
    obtain ⟨events, hevents⟩ := Option.isSome_iff_exists.1 h.1
    obtain ⟨made, hmade⟩ := makes_eventsAt hevents
    obtain ⟨rest, hrest⟩ := ih h.2
    rw [List.flatMap_cons, List.flatMap_cons, hevents]
    exact ⟨_, hmade.append hrest⟩

/-- The groups of the times of prints are the records that are taken. -/
theorem flatMap_groupAt_perm (records : List ValidatedRecord) :
    ((times records).flatMap (groupAt records)).Perm (records.filter (taken records)) := by
  have hblocks := Grouping.perm_flatMap_filter ValidatedRecord.matchTime
    (fun record => decide (record.format = .stockRealtime)) records (List.nodup_dedup
      ((records.filter realtimePrint).map ValidatedRecord.matchTime))
  refine hblocks.trans (List.Perm.of_eq (List.filter_congr fun record _ => ?_))
  have hmem : (decide (record.matchTime ∈ times records)) = hasPrint records record.matchTime := by
    rw [Bool.eq_iff_iff, decide_eq_true_eq, mem_times]
  rw [taken, ← hmem]
  rfl

theorem makes_normalizeGroups {events : List DomainEvent}
    (h : normalizeGroups config records = .ok events) :
    ∃ made, Makes config records events made := by
  obtain ⟨hgroups, hfree⟩ :=
    normalizeGroups_isOk.1 (by rw [h]; rfl : (normalizeGroups config records).isOk = true)
  obtain ⟨made, hmade⟩ := makes_times hgroups
  have hok : ∀ record ∈ records.filter fun record =>
      !taken records record, (finalEvent config record).isOk = true :=
    fun record hmem => by
      rw [List.mem_filter] at hmem
      exact hfree record hmem.1 (by simpa using hmem.2)
  obtain ⟨others, hothers⟩ := Makes.each (fun record _ event => Made.final) hok
  have hall := hmade.append hothers
  refine ⟨_, (normalizeGroups_perm h).trans hall.events, hall.sources.trans ?_, hall.made⟩
  exact ((flatMap_groupAt_perm records).append_right _).trans (List.filter_append_perm _ _)

end Made

section Normalized
variable {config : NormalizerConfig} {reader : QuoteReader} {lines lines' : List Text}

/-- An intermediate print of a match time. -/
def printAt (config : NormalizerConfig) (reader : QuoteReader) (t : MatchTime)
    (line : Text) : Bool :=
  (acceptedOf config reader line).any fun record => record.intermediate && record.matchTime = t

/-- The records of the lines, without their places, as one order of the lines has them and as
another does. -/
theorem rearranged_lines (hperm : lines.Perm lines')
    (hprints : ∀ t, lines.filter (printAt config reader t) =
      lines'.filter (printAt config reader t)) :
    Rearranged (lines.filterMap (acceptedOf config reader))
      (lines'.filterMap (acceptedOf config reader)) where
  perm := hperm.filterMap _
  prints t := by
    have hline : ∀ l : List Text,
        ((l.filter (printAt config reader t)).filterMap (acceptedOf config reader)).filter
        (fun record => record.format = .stockRealtime) =
          (l.filterMap (acceptedOf config reader)).filter fun record => record.intermediate &&
            realtimeAt t record := by
      intro l
      rw [List.filterMap_filter, List.filter_filterMap, List.filter_filterMap]
      refine List.filterMap_congr fun line _ => ?_
      cases haccepted : acceptedOf config reader line with
      | none => simp [printAt, haccepted]
      | some record =>
        by_cases hprint : record.intermediate = true
        · by_cases htime : record.matchTime = t <;>
            simp [printAt, haccepted, Option.filter_some, hprint, htime, realtimeAt]
        · simp [printAt, haccepted, Option.filter_some, hprint]
    rw [← hline, ← hline, hprints]

theorem normalizeJsonLines_isOk : (normalizeJsonLines config reader lines).isOk = true ↔
    (∀ line ∈ lines, (parseRecord config reader 0 line).isOk = true) ∧
      Normal config (lines.filterMap (acceptedOf config reader)) := by
  rw [← classifyLines_isOk lines 0, normalizeJsonLines]
  cases hclassified : classifyLines config reader lines 0 with
  | error e => simp [isOk_eq_isSome]
  | ok classified =>
    rw [← (classifies_classifyLines hclassified).accepted, normal_unnumbered,
      ← normalizeGroups_isOk]
    simp [isOk_eq_isSome]

theorem normalizeJsonLines_perm {report : NormalizationReport}
    (h : normalizeJsonLines config reader lines = .ok report) :
    report.events.Perm (parts config (lines.filterMap (acceptedOf config reader))) := by
  obtain ⟨classified, hclassified, h⟩ := (bind_eq_ok _ _ _).1 h
  obtain ⟨events, hevents, heq⟩ := (bind_eq_ok _ _ _).1 h
  obtain rfl := (pure_eq_ok _ _).1 heq
  rw [← (classifies_classifyLines hclassified).accepted, parts_unnumbered]
  exact normalizeGroups_perm hevents

theorem orderEvents_toOption_perm (hash : List UInt8 → Digest) {events events' : List DomainEvent}
    (h : events.Perm events') : (orderEvents hash events).toOption =
      (orderEvents hash events').toOption := by
  refine Option.ext fun ordered => ?_
  rw [toOption_eq_some, toOption_eq_some]
  exact ⟨orderEvents_perm h, orderEvents_perm h.symm⟩

/-- Every line is of one class, every record of an accepted line goes into one event and every firm
deal into one trade, and an order of the lines that keeps the prints of each match time in order
gives the same events. -/
theorem quote_normalization_conserves (config : NormalizerConfig) (reader : QuoteReader)
    (hash : List UInt8 → Digest) (lines : List Text) :
    (∀ report, normalizeJsonLines config reader lines = .ok report → ∃ classified made,
      classifyLines config reader lines 0 = .ok classified ∧ report.inputRecords = lines.length ∧
      report.inputRecords = classified.records.length + report.outsideReplayWindow.length +
        report.knownSkipped.length ∧
      classified.records.map unnumbered = lines.filterMap (acceptedOf config reader) ∧
      report.outsideReplayWindow = lines.filterMap (outsideOf config reader) ∧
      report.knownSkipped = lines.filterMap (skippedOf config reader) ∧
      (classified.records.map ValidatedRecord.recordNumber).Nodup ∧
      Makes config classified.records report.events made ∧
      (report.events.flatMap tradesOf).Perm
        ((lines.filterMap (acceptedOf config reader)).flatMap firmDeals) ∧
      ((report.events.flatMap tradesOf).map fun deal => deal.2.value.val).sum =
        (((lines.filterMap (acceptedOf config reader)).flatMap firmDeals).map fun deal =>
          deal.2.value.val).sum) ∧
    ∀ lines', lines.Perm lines' →
      (∀ t, lines.filter (printAt config reader t) = lines'.filter (printAt config reader t)) →
      (normalizeJsonLines config reader lines).isOk =
        (normalizeJsonLines config reader lines').isOk ∧
      ∀ report report', normalizeJsonLines config reader lines = .ok report →
        normalizeJsonLines config reader lines' = .ok report' →
          report.events.Perm report'.events ∧
            (orderEvents hash report.events).toOption =
              (orderEvents hash report'.events).toOption := by
  refine ⟨fun report h => ?_, fun lines' hperm hprints => ?_⟩
  · obtain ⟨classified, hclassified, h⟩ := (bind_eq_ok _ _ _).1 h
    obtain ⟨events, hevents, heq⟩ := (bind_eq_ok _ _ _).1 h
    obtain rfl := (pure_eq_ok _ _).1 heq
    have hlines := classifies_classifyLines hclassified
    obtain ⟨made, hmade⟩ := makes_normalizeGroups hevents
    have hnumbers : (classified.records.map ValidatedRecord.recordNumber).Nodup :=
      List.pairwise_map.2 (hlines.increasing.imp fun hlt => hlt.ne)
    -- the deals of a record do not depend on its number
    have hdeals : classified.records.flatMap firmDeals =
        (lines.filterMap (acceptedOf config reader)).flatMap firmDeals := by
      rw [← hlines.accepted, List.flatMap_map]
      rfl
    have htrades := hmade.trades
    rw [hdeals] at htrades
    exact ⟨classified, made, hclassified, hlines.counted, hlines.counted.trans hlines.conserved,
      hlines.accepted,
      hlines.outside, hlines.skipped, hnumbers, hmade, htrades, (htrades.map _).sum_eq⟩
  · have hrearranged := rearranged_lines hperm hprints
    refine ⟨?_, fun report report' h h' => ?_⟩
    · rw [Bool.eq_iff_iff, normalizeJsonLines_isOk, normalizeJsonLines_isOk, hrearranged.normal_iff]
      simp only [hperm.mem_iff]
    · have hevents := (normalizeJsonLines_perm h).trans
        (hrearranged.parts_perm.trans (normalizeJsonLines_perm h').symm)
      exact ⟨hevents, orderEvents_toOption_perm hash hevents⟩

end Normalized

end QuoteNormalizer

end Osmium
