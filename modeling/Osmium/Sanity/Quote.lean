import Osmium.Spec.Quote

/-! The groups of the quote normalizer as parts of its records: which records a group takes, and the
events that come of the groups and of the records outside of them, whatever the order they are
emitted in. -/

namespace Osmium
open Machine Bytes Result

namespace QuoteNormalizer

section Positions
variable {records : List ValidatedRecord} {t : MatchTime}

def realtimeAt (t : MatchTime) (record : ValidatedRecord) : Bool :=
  record.format = .stockRealtime && record.matchTime = t

/-- The realtime records of a match time, in their order. -/
def groupAt (records : List ValidatedRecord) (t : MatchTime) : List ValidatedRecord :=
  records.filter (realtimeAt t)

def positionsAt (records : List ValidatedRecord) (t : MatchTime) : List ℕ :=
  (records.zipIdx.filter fun entry => realtimeAt t entry.1).map Prod.snd

theorem mem_positionsAt {index : ℕ} :
    index ∈ positionsAt records t ↔
    ∃ record, records[index]? = some record ∧ realtimeAt t record = true := by
  simp only [positionsAt, List.mem_map, List.mem_filter]
  refine ⟨?_, fun ⟨record, found, hat⟩ =>
    ⟨(record, index), ⟨List.mem_zipIdx_iff_getElem?.2 found, hat⟩, rfl⟩⟩
  rintro ⟨⟨record, position⟩, ⟨hmem, hat⟩, rfl⟩
  exact ⟨record, List.mem_zipIdx_iff_getElem?.1 hmem, hat⟩

theorem filterMap_positionsAt (records : List ValidatedRecord) (t : MatchTime) :
    ((positionsAt records t).filterMap fun index => records[index]?) = groupAt records t := by
  have hfst : (records.zipIdx.filter fun entry => realtimeAt t entry.1).map Prod.fst =
      groupAt records t := by
    have hmap := List.filter_map (p := realtimeAt t) (f := Prod.fst) (l := records.zipIdx)
    rw [List.zipIdx_map_fst] at hmap
    exact hmap.symm
  rw [positionsAt, List.filterMap_map, ← hfst, ← List.filterMap_eq_map]
  refine List.filterMap_congr fun entry hentry => ?_
  exact List.mem_zipIdx_iff_getElem?.1 (List.mem_filter.1 hentry).1

/-- The positions that are collected for the match times. -/
theorem toList_realtimeGroups (records : List ValidatedRecord) :
    (realtimeGroups records).toList.map Prod.snd =
      (realtimeGroups records).keys.map (positionsAt records) := by
  rw [← Std.ExtTreeMap.map_fst_toList_eq_keys, List.map_map]
  refine List.map_congr_left fun entry hentry => ?_
  obtain ⟨k, v⟩ := entry
  rw [Std.ExtTreeMap.mem_toList_iff_getElem?_eq_some] at hentry
  have hcollected :=
    Grouping.getD_collect (fun entry : ValidatedRecord × ℕ => entry.1.format = .stockRealtime)
    (fun entry => entry.1.matchTime) Prod.snd records.zipIdx ∅ k
  change (realtimeGroups records)[k]?.getD [] = _ at hcollected
  rw [hentry] at hcollected
  simpa [positionsAt, realtimeAt] using hcollected

theorem mem_realtimeGroups : t ∈ (realtimeGroups records).keys ↔
    ∃ record ∈ records, realtimeAt t record = true := by
  rw [Std.ExtTreeMap.mem_keys, realtimeGroups, Grouping.mem_collect]
  refine ⟨?_, fun ⟨record, hmem, hat⟩ => ?_⟩
  · rintro (hnone | ⟨⟨record, index⟩, hmem, hformat, htime⟩)
    · exact absurd hnone Std.ExtTreeMap.not_mem_empty
    · refine ⟨record, List.mem_of_getElem? (List.mem_zipIdx_iff_getElem?.1 hmem), ?_⟩
      simpa [realtimeAt] using And.intro (of_decide_eq_true hformat) htime
  · obtain ⟨index, hindex⟩ := List.getElem?_of_mem hmem
    have hparts : record.format = .stockRealtime ∧ record.matchTime = t := by
      simpa [realtimeAt] using hat
    exact .inr
      ⟨(record, index), List.mem_zipIdx_iff_getElem?.2 hindex, decide_eq_true hparts.1, hparts.2⟩

theorem eq_of_mem_positionsAt {t' : MatchTime} {index : ℕ} (h : index ∈ positionsAt records t)
    (h' : index ∈ positionsAt records t') : t' = t := by
  obtain ⟨record, hfound, hat⟩ := mem_positionsAt.1 h
  obtain ⟨record', hfound', hat'⟩ := mem_positionsAt.1 h'
  obtain rfl : record = record' := Option.some.inj (hfound.symm.trans hfound')
  simp only [realtimeAt, Bool.and_eq_true, decide_eq_true_eq] at hat hat'
  rw [← hat.2, ← hat'.2]

theorem lt_of_mem_positionsAt {index : ℕ} (h : index ∈ positionsAt records t) :
    index < records.length := by
  obtain ⟨record, hfound, -⟩ := mem_positionsAt.1 h
  exact (List.getElem?_eq_some_iff.1 hfound).1

end Positions

section Grouped
variable {config : NormalizerConfig} {records : List ValidatedRecord} {t : MatchTime}

def hasPrint (records : List ValidatedRecord) (t : MatchTime) : Bool :=
  (groupAt records t).any fun record => record.intermediate

/-- The events of the group of a match time, when it can be normalized. -/
def eventsAt (config : NormalizerConfig) (records : List ValidatedRecord) (t : MatchTime) :
    Option (List DomainEvent) :=
  match groupAt records t with
  | [] => none
  | first :: rest => (normalizeIntermediateGroup config first rest).toOption

def GroupedEvents.take (grouped : GroupedEvents) (indices : List ℕ) (events : List DomainEvent) :
    GroupedEvents :=
  ⟨grouped.events.insert (indices.min?.getD 0) events,
    indices.foldl (fun consumed index => consumed.set index true) grouped.consumed⟩

theorem groupIntermediates_skip (h : hasPrint records t = false) (rest : List (List ℕ))
    (grouped : GroupedEvents) :
    groupIntermediates config records (positionsAt records t :: rest) grouped =
      groupIntermediates config records rest grouped := by
  rw [groupIntermediates, filterMap_positionsAt]
  cases hgroup : groupAt records t with
  | nil => rfl
  | cons first others =>
    rw [hasPrint, hgroup] at h
    simp only [if_pos h]

theorem groupIntermediates_take (h : hasPrint records t = true) (rest : List (List ℕ))
    (grouped : GroupedEvents) :
    (groupIntermediates config records (positionsAt records t :: rest) grouped).toOption =
      (eventsAt config records t).bind fun events =>
        (groupIntermediates config records rest
          (grouped.take (positionsAt records t) events)).toOption := by
  rw [groupIntermediates, filterMap_positionsAt, eventsAt]
  cases hgroup : groupAt records t with
  | nil => simp [hasPrint, hgroup] at h
  | cons first others =>
    rw [hasPrint, hgroup] at h
    have hany : ¬ ((first :: others).any fun record => record.intermediate) = false := by simp [h]
    simp only [if_neg hany, toOption_bind]
    rfl

theorem foldl_set_true (indices : List ℕ) (consumed : List Bool) :
    (indices.foldl (fun consumed index => consumed.set index true) consumed).length =
      consumed.length ∧
      ∀ i, (indices.foldl (fun consumed index => consumed.set index true) consumed)[i]?.getD
        false = true ↔
        consumed[i]?.getD false = true ∨ i ∈ indices ∧ i < consumed.length := by
  induction indices generalizing consumed with
  | nil => simp
  | cons index indices ih =>
    obtain ⟨hlength, hset⟩ := ih (consumed.set index true)
    rw [List.length_set] at hlength hset
    refine ⟨hlength, fun i => ?_⟩
    rw [List.foldl_cons, hset, List.getElem?_set, List.mem_cons]
    by_cases heq : index = i
    · subst heq
      by_cases hlt : index < consumed.length
      · simp [hlt]
      · simp [hlt]
    · simp [heq, Ne.symm heq]

/-- The first position of a group with a print. -/
theorem anchor_mem (h : hasPrint records t = true) :
    (positionsAt records t).min?.getD 0 ∈ positionsAt records t := by
  have hne : positionsAt records t ≠ [] := by
    intro hnone
    rw [hasPrint, ← filterMap_positionsAt, hnone] at h
    simp at h
  obtain ⟨index, hmin⟩ := Option.isSome_iff_exists.1 (List.isSome_min?_of_ne_nil hne)
  rw [hmin]
  exact List.min?_mem hmin

/-- What the groups of the match times left: the records they took, and their events, each at the
first position of its group. -/
structure Collected (config : NormalizerConfig) (records : List ValidatedRecord)
    (done : List MatchTime) (grouped : GroupedEvents) : Prop where
  consumed : ∀ index, grouped.consumed[index]?.getD false = true ↔
    ∃ t ∈ done, hasPrint records t = true ∧ index ∈ positionsAt records t
  length : grouped.consumed.length = records.length
  vacant : ∀ index, (∀ t ∈ done, index ∉ positionsAt records t) → grouped.events[index]? = none
  events : ((List.range records.length).flatMap fun index => grouped.events[index]?.getD []).Perm
    ((done.filter (hasPrint records)).flatMap fun t => (eventsAt config records t).getD [])

theorem Collected.start : Collected config records [] ⟨∅, List.replicate records.length false⟩ where
  consumed index := by
    by_cases h : index < records.length <;> simp [h]
  length := List.length_replicate
  vacant index _ := by simp
  events := by simp

theorem Collected.skip {done : List MatchTime} {grouped : GroupedEvents}
    (h : Collected config records done grouped)
    (hprint : hasPrint records t = false) : Collected config records (t :: done) grouped where
  consumed index := by simp [h.consumed, hprint]
  length := h.length
  vacant index hindex := h.vacant index fun t' ht' => hindex t' (List.mem_cons_of_mem _ ht')
  events := by simpa [hprint] using h.events

theorem Collected.take {done : List MatchTime} {grouped : GroupedEvents}
    (h : Collected config records done grouped)
    (hnew : t ∉ done) (hprint : hasPrint records t = true) {events : List DomainEvent}
    (hevents : eventsAt config records t = some events) :
    Collected config records (t :: done) (grouped.take (positionsAt records t) events) where
  consumed index := by
    rw [GroupedEvents.take, (foldl_set_true _ _).2, h.consumed, h.length, List.exists_mem_cons_iff]
    constructor
    · rintro (hbefore | ⟨hmem, -⟩)
      · exact .inr hbefore
      · exact .inl ⟨hprint, hmem⟩
    · rintro (⟨-, hmem⟩ | hbefore)
      · exact .inr ⟨hmem, lt_of_mem_positionsAt hmem⟩
      · exact .inl hbefore
  length := by rw [GroupedEvents.take, (foldl_set_true _ _).1, h.length]
  vacant index hindex := by
    have hanchor := anchor_mem hprint
    have hne : (positionsAt records t).min?.getD 0 ≠ index :=
      fun heq => hindex t List.mem_cons_self (heq ▸ hanchor)
    rw [GroupedEvents.take, Std.ExtTreeMap.getElem?_insert, if_neg fun heq =>
      hne (Std.LawfulEqCmp.eq_of_compare heq)]
    exact h.vacant index fun t' ht' => hindex t' (List.mem_cons_of_mem _ ht')
  events := by
    have hanchor := anchor_mem hprint
    have hvacant : grouped.events[(positionsAt records t).min?.getD 0]? = none :=
      h.vacant _ fun t' ht' hmem => by
      rw [eq_of_mem_positionsAt hanchor hmem] at ht'
      exact hnew ht'
    rw [List.filter_cons, if_pos hprint, List.flatMap_cons, hevents]
    have hfill := @Grouping.perm_flatMap_fill _ DomainEvent _ _ _
      (List.mem_range.2 (lt_of_mem_positionsAt hanchor))
      List.nodup_range (fun index => grouped.events[index]?.getD [])
      (fun index => (grouped.take (positionsAt records t) events).events[index]?.getD [])
      (fun index hne => by simp [GroupedEvents.take, Std.ExtTreeMap.getElem?_insert, Ne.symm hne])
        (by simp [hvacant])
    refine hfill.trans ?_
    simp only [GroupedEvents.take, Std.ExtTreeMap.getElem?_insert_self, Option.getD_some]
    exact h.events.append_left _

/-- Every group is collected that can be normalized, and all groups with prints must be. -/
theorem groupIntermediates_collects {ts done : List MatchTime} {grouped : GroupedEvents}
    (h : Collected config records done grouped) (hnodup : ts.Nodup) (hnew : ∀ t ∈ ts, t ∉ done) :
    (∀ result, groupIntermediates config records (ts.map (positionsAt records)) grouped =
      .ok result →
      ∃ all, all.Perm (ts ++ done) ∧ Collected config records all result) ∧
    ((groupIntermediates config records (ts.map (positionsAt records)) grouped).isOk = true ↔
      ∀ t ∈ ts, hasPrint records t = true → (eventsAt config records t).isSome = true) := by
  induction ts generalizing done grouped with
  | nil => exact ⟨fun result hresult =>
      ⟨done, .refl _, by cases hresult; exact h⟩, by simp [groupIntermediates]; rfl⟩
  | cons t ts ih =>
    obtain ⟨hnotin, hrest⟩ := List.nodup_cons.1 hnodup
    have hapart : ∀ t' ∈ ts, t' ∉ t :: done := by
      intro t' ht' hmem
      rcases List.mem_cons.1 hmem with rfl | hdone
      · exact hnotin ht'
      · exact hnew t' (List.mem_cons_of_mem _ ht') hdone
    have hnotin' := hnew t List.mem_cons_self
    have hmove : (ts ++ t :: done).Perm (t :: ts ++ done) := List.perm_middle
    rw [List.map_cons, List.forall_mem_cons]
    by_cases hprint : hasPrint records t = true
    · have htake :=
        @groupIntermediates_take config records t hprint (ts.map (positionsAt records)) grouped
      cases hevents : eventsAt config records t with
      | none =>
        rw [hevents, Option.bind_none] at htake
        refine ⟨fun result hresult => ?_, by rw [isOk_eq_isSome, htake]; simp [hprint]⟩
        rw [hresult] at htake
        cases htake
      | some events =>
        rw [hevents, Option.bind_some] at htake
        obtain ⟨hcollects, hok⟩ := ih (h.take hnotin' hprint hevents) hrest hapart
        refine ⟨fun result hresult => ?_, ?_⟩
        · rw [hresult] at htake
          obtain ⟨all, hperm, hall⟩ := hcollects result ((toOption_eq_some _ _).1 htake.symm)
          exact ⟨all, hperm.trans hmove, hall⟩
        · rw [isOk_eq_isSome, htake, ← isOk_eq_isSome, hok]
          simp
    · have hnone : hasPrint records t = false := by simpa using hprint
      rw [groupIntermediates_skip hnone]
      obtain ⟨hcollects, hok⟩ := ih (h.skip hnone) hrest hapart
      refine ⟨fun result hresult => ?_, hok.trans (by simp [hnone])⟩
      obtain ⟨all, hperm, hall⟩ := hcollects result hresult
      exact ⟨all, hperm.trans hmove, hall⟩

end Grouped

section Emitted
variable {config : NormalizerConfig} {grouped : GroupedEvents}

/-- The group at each position, and the event of each record that no group took. -/
theorem emitEvents_perm {entries : List (ValidatedRecord × ℕ)} {events : List DomainEvent}
    (h : emitEvents config grouped entries = .ok events) :
    events.Perm ((entries.flatMap fun entry => grouped.events[entry.2]?.getD []) ++
      ((entries.filter fun entry => !(grouped.consumed[entry.2]?.getD false)).flatMap fun entry =>
        (finalEvent config entry.1).toOption.toList)) := by
  induction entries generalizing events with
  | nil =>
    cases h
    exact .refl _
  | cons entry entries ih =>
    obtain ⟨record, index⟩ := entry
    rw [emitEvents] at h
    rw [List.flatMap_cons, List.filter_cons, List.append_assoc]
    by_cases hconsumed : grouped.consumed[index]?.getD false = true
    · rw [if_pos hconsumed] at h
      obtain ⟨later, hlater, heq⟩ := (bind_eq_ok _ _ _).1 h
      obtain rfl := (pure_eq_ok _ _).1 heq
      simpa [hconsumed] using (ih hlater).append_left _
    · rw [if_neg hconsumed] at h
      obtain ⟨event, hevent, h⟩ := (bind_eq_ok _ _ _).1 h
      obtain ⟨later, hlater, heq⟩ := (bind_eq_ok _ _ _).1 h
      obtain rfl := (pure_eq_ok _ _).1 heq
      refine List.Perm.append_left _ ?_
      simp only [hconsumed, Bool.not_false, if_true, List.flatMap_cons, hevent, toOption_ok,
        Option.toList_some, List.singleton_append]
      exact ((ih hlater).cons _).trans List.perm_middle.symm

theorem emitEvents_isOk (entries : List (ValidatedRecord × ℕ)) :
    (emitEvents config grouped entries).isOk = true ↔
      ∀ entry ∈ entries, ¬ grouped.consumed[entry.2]?.getD false = true →
      (finalEvent config entry.1).isOk = true := by
  induction entries with
  | nil => simp [emitEvents]; rfl
  | cons entry entries ih =>
    obtain ⟨record, index⟩ := entry
    rw [List.forall_mem_cons, ← ih, emitEvents, isOk_eq_isSome, isOk_eq_isSome, isOk_eq_isSome]
    by_cases hconsumed : grouped.consumed[index]?.getD false = true
    · simp [hconsumed]
    · rw [if_neg hconsumed, toOption_bind]
      cases (finalEvent config record).toOption <;> simp [hconsumed]

end Emitted

section Parts
variable {config : NormalizerConfig} {records : List ValidatedRecord} {t : MatchTime}

def realtimePrint (record : ValidatedRecord) : Bool :=
  record.format = .stockRealtime && record.intermediate

/-- The match times with an intermediate print. -/
def times (records : List ValidatedRecord) : List MatchTime :=
  ((records.filter realtimePrint).map ValidatedRecord.matchTime).dedup

/-- A record of a group with a print. -/
def taken (records : List ValidatedRecord) (record : ValidatedRecord) : Bool :=
  record.format = .stockRealtime && hasPrint records record.matchTime

/-- All groups with prints, and the records outside of them. -/
def parts (config : NormalizerConfig) (records : List ValidatedRecord) : List DomainEvent :=
  ((times records).flatMap fun t => (eventsAt config records t).getD []) ++
    (records.filter fun record => !taken records record).flatMap fun record =>
      (finalEvent config record).toOption.toList

/-- All groups and records can be normalized. -/
def Normal (config : NormalizerConfig) (records : List ValidatedRecord) : Prop :=
  (∀ t ∈ times records, (eventsAt config records t).isSome = true) ∧
    ∀ record ∈ records, taken records record = false → (finalEvent config record).isOk = true

theorem hasPrint_iff : hasPrint records t = true ↔
    ∃ record ∈ records, realtimeAt t record = true ∧ record.intermediate = true := by
  simp [hasPrint, groupAt]

theorem mem_times : t ∈ times records ↔ hasPrint records t = true := by
  rw [times, List.mem_dedup, List.mem_map, hasPrint_iff]
  simp only [List.mem_filter, realtimePrint, realtimeAt, Bool.and_eq_true, decide_eq_true_eq]
  exact ⟨fun ⟨record, ⟨hmem, hformat, hprint⟩, htime⟩ => ⟨record, hmem, ⟨hformat, htime⟩, hprint⟩,
    fun ⟨record, hmem, ⟨hformat, htime⟩, hprint⟩ => ⟨record, ⟨hmem, hformat, hprint⟩, htime⟩⟩

theorem mem_keys_of_hasPrint (h : hasPrint records t = true) :
    t ∈ (realtimeGroups records).keys := by
  obtain ⟨record, hmem, hat, -⟩ := hasPrint_iff.1 h
  exact mem_realtimeGroups.2 ⟨record, hmem, hat⟩

/-- The groups with prints are those of the times of prints. -/
theorem keys_filter_perm (records : List ValidatedRecord) :
    ((realtimeGroups records).keys.filter (hasPrint records)).Perm (times records) := by
  have hkeys : ((realtimeGroups records).keys.filter (hasPrint records)).Nodup :=
    .filter _ Std.ExtTreeMap.nodup_keys
  have htimes : (times records).Nodup := List.nodup_dedup _
  refine (List.perm_ext_iff_of_nodup hkeys htimes).2 fun t => ?_
  rw [List.mem_filter, mem_times]
  exact ⟨fun h => h.2, fun h => ⟨mem_keys_of_hasPrint h, h⟩⟩

/-- Groups take the records of their match times. -/
theorem Collected.consumed_iff_taken {done : List MatchTime} {grouped : GroupedEvents}
    (h : Collected config records done grouped) (hdone : done.Perm (realtimeGroups records).keys)
    {entry : ValidatedRecord × ℕ} (hentry : entry ∈ records.zipIdx) :
    grouped.consumed[entry.2]?.getD false = taken records entry.1 := by
  have hfound := List.mem_zipIdx_iff_getElem?.1 hentry
  rw [Bool.eq_iff_iff, h.consumed, taken, Bool.and_eq_true, decide_eq_true_eq]
  constructor
  · rintro ⟨t, -, hprint, hmem⟩
    obtain ⟨record, hrecord, hat⟩ := mem_positionsAt.1 hmem
    obtain rfl : record = entry.1 := Option.some.inj (hrecord.symm.trans hfound)
    simp only [realtimeAt, Bool.and_eq_true, decide_eq_true_eq] at hat
    exact ⟨hat.1, hat.2 ▸ hprint⟩
  · rintro ⟨hformat, hprint⟩
    exact ⟨entry.1.matchTime, hdone.mem_iff.2 (mem_keys_of_hasPrint hprint), hprint,
      mem_positionsAt.2 ⟨entry.1, hfound, by simp [realtimeAt, hformat]⟩⟩

theorem normalizeGroups_collects : (∀ grouped, groupIntermediates config records
    ((realtimeGroups records).toList.map Prod.snd) ⟨∅, List.replicate records.length false⟩ =
      .ok grouped →
      ∃ done, done.Perm (realtimeGroups records).keys ∧ Collected config records done grouped) ∧
    ((groupIntermediates config records ((realtimeGroups records).toList.map Prod.snd)
      ⟨∅, List.replicate records.length false⟩).isOk = true ↔
        ∀ t ∈ times records, (eventsAt config records t).isSome = true) := by
  rw [toList_realtimeGroups]
  have hstart : Collected config records [] ⟨∅, List.replicate records.length false⟩ := .start
  have hnodup : (realtimeGroups records).keys.Nodup := Std.ExtTreeMap.nodup_keys
  have hrun := groupIntermediates_collects hstart hnodup fun t _ => List.not_mem_nil
  rw [List.append_nil] at hrun
  refine ⟨hrun.1, hrun.2.trans ⟨fun h t ht => ?_, fun h t _ hprint => h t (mem_times.2 hprint)⟩⟩
  exact h t (mem_keys_of_hasPrint (mem_times.1 ht)) (mem_times.1 ht)

theorem normalizeGroups_perm {events : List DomainEvent}
    (h : normalizeGroups config records = .ok events) :
    events.Perm (parts config records) := by
  obtain ⟨grouped, hgrouped, hemit⟩ := (bind_eq_ok _ _ _).1 h
  obtain ⟨done, hdone, hcollected⟩ := normalizeGroups_collects.1 grouped hgrouped
  refine (emitEvents_perm hemit).trans (List.Perm.append ?_ (List.Perm.of_eq ?_))
  · have hrange : (records.zipIdx.flatMap fun entry => grouped.events[entry.2]?.getD []) =
        (List.range records.length).flatMap fun index => grouped.events[index]?.getD [] := by
      rw [List.range_eq_range', ← List.zipIdx_map_snd, List.flatMap_map]
    rw [hrange]
    exact hcollected.events.trans
      (((hdone.filter _).trans (keys_filter_perm records)).flatMap_right _)
  · have hfilter : (records.zipIdx.filter fun entry => !(grouped.consumed[entry.2]?.getD false)) =
        records.zipIdx.filter ((fun record => !taken records record) ∘ Prod.fst) :=
      List.filter_congr fun entry hentry => by
        rw [hcollected.consumed_iff_taken hdone hentry]
        rfl
    have hmap := List.filter_map (p := fun record => !taken records record) (f := Prod.fst)
      (l := records.zipIdx)
    rw [List.zipIdx_map_fst] at hmap
    rw [hfilter, hmap, List.flatMap_map]

theorem normalizeGroups_isOk : (normalizeGroups config records).isOk = true ↔
    Normal config records := by
  rw [Normal, ← normalizeGroups_collects.2, normalizeGroups]
  cases hgrouped : groupIntermediates config records ((realtimeGroups records).toList.map Prod.snd)
    ⟨∅, List.replicate records.length false⟩ with
  | error e => simp [isOk_eq_isSome]
  | ok grouped =>
    obtain ⟨done, hdone, hcollected⟩ := normalizeGroups_collects.1 grouped hgrouped
    rw [isOk_eq_isSome, toOption_bind, toOption_ok, Option.bind_some, ← isOk_eq_isSome,
      emitEvents_isOk]
    refine ⟨fun h => ⟨rfl, fun record hmem hfree => ?_⟩, fun ⟨_, h⟩ entry hentry hfree => ?_⟩
    · obtain ⟨index, hindex⟩ := List.getElem?_of_mem hmem
      have hentry : (record, index) ∈ records.zipIdx := List.mem_zipIdx_iff_getElem?.2 hindex
      refine h _ hentry ?_
      rw [hcollected.consumed_iff_taken hdone hentry, hfree]
      exact Bool.false_ne_true
    · refine h entry.1 (List.mem_of_getElem? (List.mem_zipIdx_iff_getElem?.1 hentry)) ?_
      rw [hcollected.consumed_iff_taken hdone hentry] at hfree
      simpa using hfree

end Parts

section Unnumbered
variable {config : NormalizerConfig}

/-- A record without its place in the input, which only errors tell of. -/
def unnumbered (record : ValidatedRecord) : ValidatedRecord := { record with recordNumber := 0 }

theorem sessionTime_unnumbered (record : ValidatedRecord) (time : List UInt8) :
    (sessionTime config (unnumbered record) time).toOption =
      (sessionTime config record time).toOption := by
  rw [sessionTime, sessionTime, toOption_mapError, toOption_mapError]

theorem trialPhase_unnumbered (record : ValidatedRecord) (opening closing : Bool) :
    (trialPhase (unnumbered record) opening closing).toOption =
      (trialPhase record opening closing).toOption := by
  cases opening <;> cases closing <;> rfl

theorem auctionPhase_unnumbered (record : ValidatedRecord) :
    (auctionPhase config (unnumbered record)).toOption = (auctionPhase config record).toOption := by
  refine toOption_ite_congr rfl
    (toOption_ite_congr rfl (toOption_ite_congr rfl (toOption_ite_congr rfl ?_)))
  refine toOption_bind_congr (sessionTime_unnumbered _ _) fun openingWindowStart => ?_
  refine toOption_bind_congr (sessionTime_unnumbered _ _) fun openingWindowEnd => ?_
  refine toOption_bind_congr (sessionTime_unnumbered _ _) fun closingWindowStart => ?_
  refine toOption_bind_congr (sessionTime_unnumbered _ _) fun closingWindowEnd => ?_
  exact trialPhase_unnumbered record _ _

theorem auctionEvent_unnumbered (record : ValidatedRecord) (observation : AuctionObservation)
    (book : Observation CompleteBookSnapshot) :
    (auctionEvent config (unnumbered record) observation book).toOption =
      (auctionEvent config record observation book).toOption := by
  refine toOption_bind_congr ?_ fun auction => rfl
  rw [toOption_mapError, toOption_mapError]
  rfl

theorem batchEvent_unnumbered (record : ValidatedRecord) (trades : List ObservedTrade)
    (volume : Volume) :
    (batchEvent config (unnumbered record) trades volume).toOption =
      (batchEvent config record trades volume).toOption := by
  refine toOption_bind_congr ?_ fun auction => rfl
  rw [toOption_mapError, toOption_mapError]
  rfl

theorem snapshotEvent_unnumbered (record : ValidatedRecord) (book : CompleteBookSnapshot) :
    (snapshotEvent config (unnumbered record) book).toOption =
      (snapshotEvent config record book).toOption := by
  refine toOption_bind_congr ?_ fun snapshot => rfl
  rw [toOption_mapError, toOption_mapError]
  rfl

theorem finalEvent_unnumbered (record : ValidatedRecord) :
    (finalEvent config (unnumbered record)).toOption = (finalEvent config record).toOption := by
  refine toOption_ite_congr rfl (toOption_ite_congr ?_ ?_)
  · refine toOption_bind_congr ?_ fun observation => rfl
    rw [toOption_okOr, toOption_okOr]
    rfl
  · refine toOption_bind_congr ?_ fun book =>
      toOption_bind_congr (auctionPhase_unnumbered record) fun phase => ?_
    · rw [toOption_okOr, toOption_okOr]
      rfl
    cases phase with
    | none => exact snapshotEvent_unnumbered _ _
    | some phase => exact auctionEvent_unnumbered _ _ _

theorem intermediateTrade_unnumbered (record : ValidatedRecord) :
    (intermediateTrade (unnumbered record)).toOption = (intermediateTrade record).toOption := by
  simp [intermediateTrade, unnumbered]

theorem intermediateEvent_unnumbered (record : ValidatedRecord) :
    (intermediateEvent config (unnumbered record)).toOption =
      (intermediateEvent config record).toOption := by
  refine toOption_bind_congr (intermediateTrade_unnumbered record) fun trade =>
    toOption_bind_congr (auctionPhase_unnumbered record) fun phase => ?_
  cases phase with
  | none => exact batchEvent_unnumbered _ _ _
  | some phase => exact auctionEvent_unnumbered _ _ _

theorem checkPhases_unnumbered (first first' : ValidatedRecord) (phase : Option AuctionObservation)
    (l : List ValidatedRecord) :
    (checkPhases config first' phase (l.map unnumbered)).toOption =
      (checkPhases config first phase l).toOption := by
  induction l with
  | nil => rfl
  | cons record rest ih =>
    refine toOption_bind_congr (auctionPhase_unnumbered record) fun own =>
      toOption_bind_congr ?_ fun _ => ih
    rw [toOption_ensure, toOption_ensure]

theorem getLast_unnumbered (head : ValidatedRecord) (tail : List ValidatedRecord) :
    (unnumbered head :: tail.map unnumbered).getLast (by simp) =
      unnumbered ((head :: tail).getLast (by simp)) :=
  List.getLast_map (f := unnumbered) (l := head :: tail) (by simp)

theorem expectedFinal_unnumbered (first first' last final : ValidatedRecord) :
    (expectedFinal first' (unnumbered last) (unnumbered final)).toOption =
      (expectedFinal first last final).toOption := by
  unfold expectedFinal
  have hdeal : (unnumbered final).deal = final.deal := rfl
  rw [hdeal]
  cases final.deal with
  | none => exact toOption_ite_congr rfl rfl
  | some trade =>
    simp only [toOption_okOr]
    rfl

theorem groupEvents_unnumbered (first first' head : ValidatedRecord) (tail : List ValidatedRecord)
    (final : ValidatedRecord) :
    (groupEvents config first' (unnumbered head) (tail.map unnumbered)
      (unnumbered final)).toOption =
      (groupEvents config first head tail final).toOption := by
  refine toOption_bind_congr (auctionPhase_unnumbered head) fun phase =>
    toOption_bind_congr (auctionPhase_unnumbered final) fun finalPhase =>
    toOption_bind_congr (checkPhases_unnumbered first first' phase (head :: tail)) fun _ =>
    toOption_bind_congr ?_ fun _ => toOption_ite_congr ?_ ?_
  · rw [toOption_ensure, toOption_ensure]
  · exact toOption_bind_congr (toOption_mapM_congr intermediateEvent_unnumbered (head :: tail))
      fun events =>
      toOption_bind_congr (finalEvent_unnumbered final) fun event => rfl
  · rw [getLast_unnumbered]
    refine toOption_bind_congr (expectedFinal_unnumbered _ _ _ _) fun expected =>
      toOption_bind_congr ?_ fun _ => toOption_bind_congr ?_ fun batch =>
      toOption_bind_congr (finalEvent_unnumbered final) fun event => rfl
    · rw [toOption_ensure, toOption_ensure]
      rfl
    · refine toOption_bind_congr (toOption_mapM_congr intermediateTrade_unnumbered (head :: tail))
        fun trades => ?_
      rw [getLast_unnumbered]
      exact batchEvent_unnumbered _ _ _

/-- The events of a group by its prints and its other records. -/
def groupOf (config : NormalizerConfig) : (prints finals : List ValidatedRecord) →
    Option (List DomainEvent)
  | head :: tail, [final] => (groupEvents config final head tail final).toOption
  | _, _ => none

theorem groupEvents_first (first first' head : ValidatedRecord) (tail : List ValidatedRecord)
    (final : ValidatedRecord) :
    (groupEvents config first head tail final).toOption =
      (groupEvents config first' head tail final).toOption := by
  rw [← groupEvents_unnumbered first first, ← groupEvents_unnumbered first' first]

theorem eventsAt_eq_groupOf (records : List ValidatedRecord) (t : MatchTime) :
    eventsAt config records t =
      groupOf config ((groupAt records t).filter fun record => record.intermediate)
      ((groupAt records t).filter fun record => !record.intermediate) := by
  unfold eventsAt
  cases groupAt records t with
  | nil => rfl
  | cons first rest =>
    simp only [normalizeIntermediateGroup]
    generalize (first :: rest).filter (fun record => record.intermediate) = prints
    generalize (first :: rest).filter (fun record => !record.intermediate) = finals
    rcases prints with _ | ⟨head, tail⟩
    · rfl
    · rcases finals with _ | ⟨final, _ | ⟨other, others⟩⟩
      · rfl
      · exact groupEvents_first first final head tail final
      · rfl

theorem groupOf_unnumbered (prints finals : List ValidatedRecord) :
    groupOf config (prints.map unnumbered) (finals.map unnumbered) =
      groupOf config prints finals := by
  rcases prints with _ | ⟨head, tail⟩
  · rfl
  · rcases finals with _ | ⟨final, _ | ⟨other, others⟩⟩
    · rfl
    · exact groupEvents_unnumbered final (unnumbered final) head tail final
    · rfl

/-- Of records other than prints a group has one or is refused. -/
theorem groupOf_perm (prints : List ValidatedRecord) {finals finals' : List ValidatedRecord}
    (h : finals.Perm finals') :
    groupOf config prints finals = groupOf config prints finals' := by
  rcases prints with _ | ⟨head, tail⟩
  · rfl
  · rcases finals with _ | ⟨final, _ | ⟨other, others⟩⟩
    · rw [h.nil_eq]
    · rw [List.singleton_perm.1 h]
    · rcases finals' with _ | ⟨final', _ | ⟨other', others'⟩⟩
      · rfl
      · simpa using h.length_eq
      · rfl

end Unnumbered

section Rearranged
variable {config : NormalizerConfig} {records records' : List ValidatedRecord}

theorem groupAt_unnumbered (t : MatchTime) :
    groupAt (records.map unnumbered) t = (groupAt records t).map unnumbered :=
  List.filter_map

theorem times_unnumbered : times (records.map unnumbered) = times records := by
  rw [times, List.filter_map, List.map_map]
  rfl

theorem hasPrint_unnumbered (t : MatchTime) :
    hasPrint (records.map unnumbered) t = hasPrint records t := by
  rw [hasPrint, groupAt_unnumbered, List.any_map]
  rfl

theorem eventsAt_unnumbered (t : MatchTime) :
    eventsAt config (records.map unnumbered) t = eventsAt config records t := by
  rw [eventsAt_eq_groupOf, eventsAt_eq_groupOf, groupAt_unnumbered, List.filter_map,
    List.filter_map]
  exact groupOf_unnumbered _ _

theorem taken_unnumbered (record : ValidatedRecord) :
    taken (records.map unnumbered) (unnumbered record) = taken records record := by
  rw [taken, hasPrint_unnumbered]
  rfl

theorem parts_unnumbered : parts config (records.map unnumbered) = parts config records := by
  have hfree : ((fun record => !taken (records.map unnumbered) record) ∘ unnumbered) =
      fun record => !taken records record :=
    funext fun record => congrArg not (taken_unnumbered record)
  rw [parts, parts, times_unnumbered, List.filter_map, hfree, List.flatMap_map]
  simp only [eventsAt_unnumbered, finalEvent_unnumbered]

theorem normal_unnumbered : Normal config (records.map unnumbered) ↔ Normal config records := by
  rw [Normal, Normal, times_unnumbered, List.forall_mem_map]
  simp only [eventsAt_unnumbered, isOk_eq_isSome, finalEvent_unnumbered, taken_unnumbered]

/-- The same records, where the prints of a match time keep their order. -/
structure Rearranged (records records' : List ValidatedRecord) : Prop where
  perm : records.Perm records'
  prints : ∀ t, (records.filter fun record => record.intermediate && realtimeAt t record) =
    records'.filter fun record => record.intermediate && realtimeAt t record

theorem Rearranged.hasPrint_eq (h : Rearranged records records') (t : MatchTime) :
    hasPrint records t = hasPrint records' t := by
  rw [Bool.eq_iff_iff, hasPrint_iff, hasPrint_iff]
  simp only [h.perm.mem_iff]

theorem Rearranged.eventsAt_eq (h : Rearranged records records') (t : MatchTime) :
    eventsAt config records t = eventsAt config records' t := by
  have hprints := h.prints t
  rw [← List.filter_filter, ← List.filter_filter] at hprints
  rw [eventsAt_eq_groupOf, eventsAt_eq_groupOf, groupAt, groupAt, hprints]
  exact groupOf_perm _ ((h.perm.filter _).filter _)

theorem Rearranged.taken_eq (h : Rearranged records records') (record : ValidatedRecord) :
    taken records record = taken records' record := by
  rw [taken, taken, h.hasPrint_eq]

theorem Rearranged.times_perm (h : Rearranged records records') :
    (times records).Perm (times records') :=
  ((h.perm.filter _).map _).dedup

theorem Rearranged.parts_perm (h : Rearranged records records') :
    (parts config records).Perm (parts config records') := by
  simp only [parts, h.eventsAt_eq, h.taken_eq]
  exact (h.times_perm.flatMap_right _).append ((h.perm.filter _).flatMap_right _)

theorem Rearranged.normal_iff (h : Rearranged records records') : Normal config records ↔
    Normal config records' := by
  simp only [Normal, h.eventsAt_eq, h.taken_eq, h.times_perm.mem_iff, h.perm.mem_iff]

end Rearranged

section Lines
variable {config : NormalizerConfig} {reader : QuoteReader} {number number' : ℕ}
  {context : RecordContext}

theorem parseBookPrice_number (raw : Text) :
    (parseBookPrice number context raw).toOption =
      (parseBookPrice number' context raw).toOption := by
  refine toOption_bind_congr (by rw [toOption_mapError, toOption_mapError]) fun price =>
    toOption_ite_congr rfl ?_
  exact toOption_bind_congr (by rw [toOption_mapError, toOption_mapError]) fun price => rfl

theorem parseLevels_number (wireLevels : List WireLevel) (index : ℕ) :
    (parseLevels number context wireLevels index).toOption =
      (parseLevels number' context wireLevels index).toOption := by
  induction wireLevels generalizing index with
  | nil => rfl
  | cons wire rest ih =>
    refine toOption_bind_congr (by rw [toOption_mapError, toOption_mapError]) fun quantity =>
      toOption_bind_congr (parseBookPrice_number wire.price) fun price => ?_
    cases price with
    | none =>
      refine toOption_bind_congr (by rw [toOption_ensure, toOption_ensure]) fun _ => ?_
      exact toOption_bind_congr (ih _) fun _ => rfl
    | some price => exact toOption_bind_congr (ih _) fun _ => rfl

theorem parseSide_number (kind : BookSideKind) (wireLevels : List WireLevel) :
    (parseSide number context kind wireLevels).toOption =
      (parseSide number' context kind wireLevels).toOption :=
  toOption_bind_congr (parseLevels_number wireLevels 0) fun _ => by simp only [toOption_mapError]

theorem parseBook_number (bids asks : List WireLevel) :
    (parseBook number context bids asks).toOption =
      (parseBook number' context bids asks).toOption :=
  toOption_bind_congr (parseSide_number .bid bids) fun _ =>
    toOption_bind_congr (parseSide_number .ask asks) fun _ => by
    simp only [toOption_mapError]

theorem parseDeal_number (raw : Text) :
    (parseDeal number context reader raw).toOption =
      (parseDeal number' context reader raw).toOption := by
  refine toOption_ite_congr rfl ?_
  refine toOption_bind_congr (by rw [toOption_mapError, toOption_mapError]) fun wire => ?_
  refine toOption_bind_congr (by simp only [parsePrice, toOption_mapError]) fun price =>
    toOption_ite_congr rfl ?_
  exact toOption_bind_congr (by rw [toOption_mapError, toOption_mapError]) fun quantity => rfl

theorem recordBook_number (format : WireFormat) (wire : WireQuote) (deal : Option ObservedTrade) :
    (recordBook number context format wire deal).toOption =
      (recordBook number' context format wire deal).toOption := by
  refine toOption_ite_congr ?_ (toOption_bind_congr (parseBook_number _ _) fun book => rfl)
  simp only [toOption_bind, toOption_ensure]

def withoutNumber : ClassifiedRecord → ClassifiedRecord
  | .accepted record warnings => .accepted (unnumbered record) warnings
  | .outsideReplayWindow context => .outsideReplayWindow context
  | .knownSkipped skipped => .knownSkipped skipped

theorem parseQuote_number (json : Text) (envelope : WireEnvelope) (format : WireFormat)
    (matchTime : MatchTime) :
    (withoutNumber <$>
      parseQuote number context config reader json envelope format matchTime).toOption =
      (parseQuote 0 context config reader json envelope format matchTime).toOption := by
  simp only [parseQuote, map_bind]
  refine toOption_bind_congr (by rw [toOption_mapError, toOption_mapError]) fun wire => ?_
  refine toOption_bind_congr (by rw [toOption_ensure, toOption_ensure]) fun _ => ?_
  refine toOption_bind_congr (parseDeal_number wire.deal) fun deal => ?_
  refine toOption_bind_congr (by rw [toOption_ensure, toOption_ensure]) fun _ => ?_
  refine toOption_bind_congr (recordBook_number format wire deal.1) fun book => ?_
  exact toOption_bind_congr (by rw [toOption_mapError, toOption_mapError]) fun sourceFormat => rfl

theorem parseRecord_number (number : ℕ) (line : Text) :
    (withoutNumber <$> parseRecord config reader number line).toOption =
      (parseRecord config reader 0 line).toOption := by
  simp only [parseRecord, map_bind]
  refine toOption_bind_congr (by rw [toOption_mapError, toOption_mapError]) fun envelope => ?_
  refine toOption_bind_congr (by simp only [validateIdentity, toOption_ensure]) fun _ => ?_
  refine toOption_bind_congr (by simp only [validateIdentity, toOption_ensure]) fun _ => ?_
  refine toOption_bind_congr (by simp only [validateIdentity, toOption_ensure]) fun _ => ?_
  refine toOption_bind_congr (by rw [toOption_mapError, toOption_mapError]) fun matchTime => ?_
  refine toOption_bind_congr (by rw [toOption_mapError, toOption_mapError]) fun _ => ?_
  cases wireFormat config.profile envelope.format with
  | none =>
    simp only [apply_ite (Functor.map withoutNumber)]
    exact toOption_ite_congr rfl rfl
  | some format =>
    simp only [apply_ite (Functor.map withoutNumber)]
    exact toOption_ite_congr rfl (parseQuote_number _ _ _ _)

theorem recordNumber_of_parseRecord {line : Text} {record : ValidatedRecord}
    {warnings : List NormalizationWarning}
    (h : parseRecord config reader number line = .ok (.accepted record warnings)) :
    record.recordNumber = number := by
  obtain ⟨envelope, -, h⟩ := (bind_eq_ok _ _ _).1 h
  obtain ⟨_, -, h⟩ := (bind_eq_ok _ _ _).1 h
  obtain ⟨_, -, h⟩ := (bind_eq_ok _ _ _).1 h
  obtain ⟨_, -, h⟩ := (bind_eq_ok _ _ _).1 h
  obtain ⟨matchTime, -, h⟩ := (bind_eq_ok _ _ _).1 h
  obtain ⟨_, -, h⟩ := (bind_eq_ok _ _ _).1 h
  cases hformat : wireFormat config.profile envelope.format with
  | none =>
    simp only [hformat] at h
    split_ifs at h
    cases h
  | some format =>
    simp only [hformat] at h
    split_ifs at h
    · cases h
    · obtain ⟨wire, -, h⟩ := (bind_eq_ok _ _ _).1 h
      obtain ⟨_, -, h⟩ := (bind_eq_ok _ _ _).1 h
      obtain ⟨deal, -, h⟩ := (bind_eq_ok _ _ _).1 h
      obtain ⟨_, -, h⟩ := (bind_eq_ok _ _ _).1 h
      obtain ⟨book, -, h⟩ := (bind_eq_ok _ _ _).1 h
      obtain ⟨sourceFormat, -, h⟩ := (bind_eq_ok _ _ _).1 h
      cases h
      rfl

/-- The record a line is accepted as, whatever its place. -/
def acceptedOf (config : NormalizerConfig) (reader : QuoteReader) (line : Text) :
    Option ValidatedRecord :=
  match parseRecord config reader 0 line with
  | .ok (.accepted record _) => some record
  | _ => none

def outsideOf (config : NormalizerConfig) (reader : QuoteReader) (line : Text) :
    Option RecordContext :=
  match parseRecord config reader 0 line with
  | .ok (.outsideReplayWindow context) => some context
  | _ => none

def skippedOf (config : NormalizerConfig) (reader : QuoteReader) (line : Text) :
    Option KnownSkipped :=
  match parseRecord config reader 0 line with
  | .ok (.knownSkipped skipped) => some skipped
  | _ => none

/-- What becomes of the lines from an index on: each is of one class, and each class stands in line
order. -/
structure Classifies (config : NormalizerConfig) (reader : QuoteReader)
    (lines : List Text) (index : ℕ) (classified : ClassifiedLines) : Prop where
  counted : classified.inputRecords = lines.length
  conserved : lines.length =
    classified.records.length + classified.outsideReplayWindow.length +
      classified.knownSkipped.length
  later : ∀ record ∈ classified.records, index < record.recordNumber
  increasing : classified.records.Pairwise fun a b => a.recordNumber < b.recordNumber
  accepted : classified.records.map unnumbered = lines.filterMap (acceptedOf config reader)
  outside : classified.outsideReplayWindow = lines.filterMap (outsideOf config reader)
  skipped : classified.knownSkipped = lines.filterMap (skippedOf config reader)

theorem classifies_classifyLines {lines : List Text} {index : ℕ} {classified : ClassifiedLines}
    (h : classifyLines config reader lines index = .ok classified) :
    Classifies config reader lines index classified := by
  induction lines generalizing index classified with
  | nil =>
    cases h
    exact ⟨rfl, rfl, by simp, .nil, rfl, rfl, rfl⟩
  | cons line lines ih =>
    obtain ⟨record, hrecord, h⟩ := (bind_eq_ok _ _ _).1 h
    obtain ⟨later, hlater, heq⟩ := (bind_eq_ok _ _ _).1 h
    obtain rfl := (pure_eq_ok _ _).1 heq
    have hrest := ih hlater
    have hunnumbered := @parseRecord_number config reader (index + 1) line
    rw [hrecord] at hunnumbered
    have hzero := (toOption_eq_some _ _).1 hunnumbered.symm
    have hgrown : ∀ record ∈ later.records, index < record.recordNumber := fun record hmem => by
      have := hrest.later record hmem
      omega
    cases record with
    | accepted record warnings =>
      have hnumber := recordNumber_of_parseRecord hrecord
      refine ⟨congrArg (· + 1) hrest.counted, ?_, List.forall_mem_cons.2 ⟨by omega, hgrown⟩,
        List.pairwise_cons.2 ⟨fun other hother => ?_, hrest.increasing⟩, ?_, ?_, ?_⟩
      · have := hrest.conserved
        simp only [ClassifiedLines.add, List.length_cons]
        omega
      · have := hrest.later other hother
        omega
      · rw [List.filterMap_cons, acceptedOf, hzero]
        exact congrArg _ hrest.accepted
      · rw [List.filterMap_cons, outsideOf, hzero]
        exact hrest.outside
      · rw [List.filterMap_cons, skippedOf, hzero]
        exact hrest.skipped
    | outsideReplayWindow context =>
      refine ⟨congrArg (· + 1) hrest.counted, ?_, hgrown, hrest.increasing, ?_, ?_, ?_⟩
      · have := hrest.conserved
        simp only [ClassifiedLines.add, List.length_cons]
        omega
      · rw [List.filterMap_cons, acceptedOf, hzero]
        exact hrest.accepted
      · rw [List.filterMap_cons, outsideOf, hzero]
        exact congrArg _ hrest.outside
      · rw [List.filterMap_cons, skippedOf, hzero]
        exact hrest.skipped
    | knownSkipped skipped =>
      refine ⟨congrArg (· + 1) hrest.counted, ?_, hgrown, hrest.increasing, ?_, ?_, ?_⟩
      · have := hrest.conserved
        simp only [ClassifiedLines.add, List.length_cons]
        omega
      · rw [List.filterMap_cons, acceptedOf, hzero]
        exact hrest.accepted
      · rw [List.filterMap_cons, outsideOf, hzero]
        exact hrest.outside
      · rw [List.filterMap_cons, skippedOf, hzero]
        exact congrArg _ hrest.skipped

theorem classifyLines_isOk (lines : List Text) (index : ℕ) :
    (classifyLines config reader lines index).isOk = true ↔
    ∀ line ∈ lines, (parseRecord config reader 0 line).isOk = true := by
  induction lines generalizing index with
  | nil => simp [classifyLines]; rfl
  | cons line lines ih =>
    have hline : (parseRecord config reader (index + 1) line).isOk =
        (parseRecord config reader 0 line).isOk := by
      rw [isOk_eq_isSome, isOk_eq_isSome, ← parseRecord_number (index + 1), toOption_map,
        Option.isSome_map]
    rw [List.forall_mem_cons, ← ih (index + 1), ← hline, classifyLines, isOk_eq_isSome,
      isOk_eq_isSome, isOk_eq_isSome, toOption_bind]
    cases (parseRecord config reader (index + 1) line).toOption <;> simp

end Lines

end QuoteNormalizer

end Osmium
