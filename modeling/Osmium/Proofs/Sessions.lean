import Osmium.Proofs.Replay
import Osmium.Sanity.Sessions

/-! Planner, replay core and runner derive the windows of the trading sessions each on its own. They
mean the same sessions at every match time. -/

namespace Osmium
open Machine Bytes Result

section Acceptance
variable {plans : List SessionPlan} {instrument : InstrumentId}

theorem map_tradingDate {hash : List UInt8 → Digest} {profile : SessionProfileId}
    {requests : List (TradingDate × List SessionKind)}
    (h : List.Forall₂ (fun request plan =>
      SessionPlan.withProfile hash instrument request.1 profile request.2 = .ok plan)
      requests plans) :
    plans.map SessionPlan.tradingDate = requests.map Prod.fst ∧
    ∀ plan ∈ plans, plan.instrument = instrument ∧ plan.Sound := by
  induction h with
  | nil => exact ⟨rfl, by simp⟩
  | cons hplan _ ih =>
    obtain ⟨hinstrument, hdate, hsound⟩ := withProfile_ok hplan
    refine ⟨by rw [List.map_cons, List.map_cons, hdate, ih.1], ?_⟩
    simp only [List.mem_cons, forall_eq_or_imp]
    exact ⟨⟨hinstrument, hsound⟩, ih.2⟩

instance : Std.Total MultiSessionSchedule.segmentBefore :=
  ⟨fun a b => le_total a.openTime b.openTime⟩

instance : IsTrans SessionSegment MultiSessionSchedule.segmentBefore := ⟨fun _ _ _ => le_trans⟩

/-- Lists that say the same are apart in the same way. -/
theorem contexts_apart {contexts : List ReplayContextWindow} (hsound : ∀ plan ∈ plans, plan.Sound)
    (hdates : (plans.map SessionPlan.tradingDate).Nodup)
    (hcontexts : contexts.map ReplayContextWindow.content =
      (allWindows plans).map SessionWindow.coreContent) :
    contexts.Pairwise
      (Intervals.Apart ReplayContextWindow.start ReplayContextWindow.endExclusive) := by
  have hcontent : (contexts.map ReplayContextWindow.content).Pairwise
      (Intervals.Apart Prod.fst fun content => content.2.1) := by
    rw [hcontexts, List.pairwise_map]
    exact (allWindows_apart hsound hdates).imp (Or.imp le_of_lt le_of_lt)
  exact (List.pairwise_map (f := ReplayContextWindow.content)).1 hcontent

/-- The replay core takes the windows of the plans. -/
theorem core_accepts (instrument : InstrumentId) {contexts : List ReplayContextWindow}
    (hsound : ∀ plan ∈ plans, plan.Sound) (hdates : (plans.map SessionPlan.tradingDate).Nodup)
    (hcontexts : contexts.map ReplayContextWindow.content =
      (allWindows plans).map SessionWindow.coreContent)
    (reducer : MarketStateReducer) (context : ReducerContext) : ∃ core,
      ReplayCore.newMultiWithSchedules [MarketState.new instrument context.tradingDate]
      [(instrument, reducer)]
        [(instrument, context)] [(instrument, contexts)] = .ok core ∧
      core.reducerContextWindows[instrument]? =
        some (contexts.insertionSort ReplayCore.windowBefore) := by
  have hperm := contexts.perm_insertionSort ReplayCore.windowBefore
  have hordered := Intervals.ordered_of_sorted (contexts_apart hsound hdates hcontexts) hperm
    (List.pairwise_insertionSort ReplayCore.windowBefore contexts) ReplayContextWindow.positive
  have hadjacent : anyAdjacent (fun a b => b.start < a.endExclusive)
      (contexts.insertionSort ReplayCore.windowBefore) = false :=
    anyAdjacent_eq_false (hordered.imp fun h => decide_eq_false (not_lt.2 h))
  refine ⟨⟨(∅ : Std.ExtTreeMap InstrumentId MarketState).insert instrument
    (MarketState.new instrument context.tradingDate),
    .ofList [(instrument, reducer)], .ofList [(instrument, context)],
    (∅ : Std.ExtTreeMap InstrumentId (List ReplayContextWindow)).insert instrument
      (contexts.insertionSort ReplayCore.windowBefore), .unstarted, none, none, .new, none⟩, ?_, ?_⟩
  · have hstate : (MarketState.new instrument context.tradingDate).instrument = instrument := rfl
    have hdate : (MarketState.new instrument context.tradingDate).tradingDate =
        context.tradingDate := rfl
    simp [ReplayCore.newMultiWithSchedules, ReplayCore.indexStates, ReplayCore.indexSchedules,
      ensure, hadjacent, hstate, hdate, Std.ExtTreeMap.size_insert, Std.ExtTreeMap.getElem?_insert]
  · exact Std.ExtTreeMap.getElem?_insert_self

theorem segments_apart {segments : List SessionSegment} (hsound : ∀ plan ∈ plans, plan.Sound)
    (hdates : (plans.map SessionPlan.tradingDate).Nodup)
    (hsegments : segments.map SessionSegment.content =
      (allWindows plans).map SessionWindow.segmentContent) :
    segments.Pairwise (Intervals.Apart (fun segment => segment.openTime.key - 300000000)
      fun segment => segment.closeTime.key + 300000000) := by
  have hcontent : (segments.map SessionSegment.content).Pairwise
      (Intervals.Apart (fun content => content.1.key - 300000000) fun content =>
        content.2.1.key + 300000000) := by
    rw [hsegments, List.pairwise_map]
    refine (allWindows_apart hsound hdates).imp_of_mem ?_
    intro a b ha hb h
    obtain ⟨-, htimeda⟩ := mem_allWindows hsound ha
    obtain ⟨-, htimedb⟩ := mem_allWindows hsound hb
    simp only [MatchTime.lt_iff, htimeda.start, htimeda.finish, htimedb.start, htimedb.finish] at h
    exact h.imp le_of_lt le_of_lt
  exact (List.pairwise_map (f := SessionSegment.content)).1 hcontent

/-- The schedule takes the segments of the plans, if there are any. -/
theorem schedule_accepts (instrument : InstrumentId) {segments : List SessionSegment}
    (hsound : ∀ plan ∈ plans, plan.Sound) (hnonempty : segments ≠ [])
    (hdates : (plans.map SessionPlan.tradingDate).Nodup)
    (hsegments : segments.map SessionSegment.content =
      (allWindows plans).map SessionWindow.segmentContent) :
    ∃ sessions, MultiSessionSchedule.new [(instrument, segments)] = .ok sessions ∧
      sessions.segmentsOf[instrument]? =
        some (segments.insertionSort MultiSessionSchedule.segmentBefore) := by
  have hperm := segments.perm_insertionSort MultiSessionSchedule.segmentBefore
  have hsorted : (segments.insertionSort MultiSessionSchedule.segmentBefore).Pairwise
      fun a b => a.openTime.key - 300000000 ≤ b.openTime.key - 300000000 := by
    refine (List.pairwise_insertionSort MultiSessionSchedule.segmentBefore segments).imp ?_
    intro a b h
    have hle : a.openTime.key ≤ b.openTime.key := h
    omega
  have hordered :=
    Intervals.ordered_of_sorted (segments_apart hsound hdates hsegments) hperm hsorted ?_
  · have hadjacent : anyAdjacent (fun a b => b.openTime ≤ a.closeTime)
        (segments.insertionSort MultiSessionSchedule.segmentBefore) = false := by
      refine anyAdjacent_eq_false (hordered.imp fun {a b} h => decide_eq_false (not_le.2 ?_))
      rw [MatchTime.lt_iff]
      omega
    refine ⟨⟨(∅ : Std.ExtTreeMap InstrumentId (List SessionSegment)).insert instrument
      (segments.insertionSort MultiSessionSchedule.segmentBefore)⟩, ?_,
      Std.ExtTreeMap.getElem?_insert_self⟩
    simp [MultiSessionSchedule.new, MultiSessionSchedule.addEntries, ensure, hadjacent, hnonempty]
  · intro segment
    have hopen : segment.openTime.key < segment.closeTime.key := segment.window
    omega

end Acceptance

section Choice
variable {plans : List SessionPlan} (hsound : ∀ plan ∈ plans, plan.Sound)
  (hdates : (plans.map SessionPlan.tradingDate).Nodup)
include hsound hdates

/-- At most one session replays a time. -/
theorem contains_unique {matchTime : MatchTime} {a b : SessionWindow} (ha : a ∈ allWindows plans)
    (hb : b ∈ allWindows plans)
    (hta : a.contains matchTime = true) (htb : b.contains matchTime = true) : a = b := by
  simp only [SessionWindow.contains, Bool.and_eq_true, decide_eq_true_eq] at hta htb
  have hapart : (allWindows plans).Pairwise
      (Intervals.Apart SessionWindow.replayStart SessionWindow.replayEndExclusive) :=
    (allWindows_apart hsound hdates).imp (Or.imp le_of_lt le_of_lt)
  exact Intervals.eq_of_mem hapart ha hb hta htb

theorem find?_contains_eq_some (matchTime : MatchTime) (window : SessionWindow) :
    (allWindows plans).find? (SessionWindow.contains matchTime) = some window ↔
      window ∈ allWindows plans ∧ window.contains matchTime = true := by
  refine ⟨fun h => ⟨List.mem_of_find?_eq_some h, List.find?_some h⟩, fun ⟨hmem, hcontains⟩ => ?_⟩
  obtain ⟨other, hother⟩ :=
    Option.isSome_iff_exists.1 (List.find?_isSome.2 ⟨window, hmem, hcontains⟩)
  rw [hother, contains_unique hsound hdates (List.mem_of_find?_eq_some hother) hmem
    (List.find?_some hother) hcontains]

/-- The replay core finds the session of a time. -/
theorem contexts_find? {contexts sorted : List ReplayContextWindow} (hperm : sorted.Perm contexts)
    (hcontexts : contexts.map ReplayContextWindow.content =
      (allWindows plans).map SessionWindow.coreContent)
    (matchTime : MatchTime) :
    (sorted.find? fun window => window.start ≤ matchTime && matchTime < window.endExclusive).map
      ReplayContextWindow.context =
      ((allWindows plans).find? (SessionWindow.contains matchTime)).map
        fun window => sessionContext window.tradingDate window.kind := by
  have hsame : (sorted.map ReplayContextWindow.content).Perm
      ((allWindows plans).map SessionWindow.coreContent) := by
    rw [← hcontexts]
    exact hperm.map _
  let p (content : MatchTime × MatchTime × ReducerContext) : Bool :=
    content.1 ≤ matchTime && matchTime < content.2.1
  have hfind := Intervals.find?_of_perm (p := p) hsame fun a ha b hb hta htb =>
    contains_unique hsound hdates ha hb hta htb
  have hcontext := congrArg (Option.map fun content => content.2.2) hfind
  rw [Option.map_map, Option.map_map] at hcontext
  exact hcontext

/-- The schedule finds the session of a time. -/
theorem segments_find? {segments sorted : List SessionSegment} (hperm : sorted.Perm segments)
    (hsegments : segments.map SessionSegment.content =
      (allWindows plans).map SessionWindow.segmentContent)
    (matchTime : MatchTime) :
    (sorted.find? fun segment => (segment.phase matchTime).isOk).map
      (fun segment => (segment.kind, segment.tradingDate)) =
      ((allWindows plans).find? (SessionWindow.contains matchTime)).map
        fun window => (window.kind, window.tradingDate) := by
  have hmargin : ∀ window ∈ allWindows plans,
      withinMargin matchTime window.segmentContent = window.contains matchTime :=
    fun window hwindow => (mem_allWindows hsound hwindow).2.withinMargin_eq matchTime
  have hsame : (sorted.map SessionSegment.content).Perm
      ((allWindows plans).map SessionWindow.segmentContent) := by
    rw [← hsegments]
    exact hperm.map _
  have hfind := Intervals.find?_of_perm (p := withinMargin matchTime) hsame fun a ha b hb hta htb =>
    contains_unique hsound hdates ha hb ((hmargin a ha).symm.trans hta)
      ((hmargin b hb).symm.trans htb)
  have hsession := congrArg (Option.map fun content => content.2.2) hfind
  have hwindows : (allWindows plans).find? (withinMargin matchTime ∘ SessionWindow.segmentContent) =
      (allWindows plans).find? (SessionWindow.contains matchTime) := List.find?_congr hmargin
  have hphase : sorted.find? (withinMargin matchTime ∘ SessionSegment.content) =
      sorted.find? fun segment => (segment.phase matchTime).isOk :=
    List.find?_congr fun segment _ => (phase_isOk segment matchTime).symm
  rw [Option.map_map, Option.map_map, hwindows, hphase] at hsession
  exact hsession

end Choice

/-- Planner, replay core and runner mean the same sessions. The plans are those of one instrument
and profile, one for each of its trading dates, with any kinds of session the planner takes. -/
theorem session_windows_agree (hash : List UInt8 → Digest) (instrument : InstrumentId)
    (profile : SessionProfileId) (reducer : MarketStateReducer) (context : ReducerContext)
    (requests : List (TradingDate × List SessionKind))
    (plans : List SessionPlan) (hrequests : requests ≠ []) (hdates : (requests.map Prod.fst).Nodup)
    (hplans : List.Forall₂ (fun request plan =>
      SessionPlan.withProfile hash instrument request.1 profile request.2 = .ok plan)
      requests plans) :
    ((allWindows plans).Pairwise fun a b => (a.Before b ∧ a.replayEndExclusive ≤ b.replayStart) ∨
      (b.Before a ∧ b.replayEndExclusive ≤ a.replayStart)) ∧
    ∃ contexts core sessions, planContextWindows plans = .ok contexts ∧
      ReplayCore.newMultiWithSchedules [MarketState.new instrument context.tradingDate]
      [(instrument, reducer)]
        [(instrument, context)] [(instrument, contexts)] = .ok core ∧
      schedule (plans.map SessionPlan.partition) = .ok sessions ∧
      ∀ matchTime, ∃ session : Option SessionWindow,
        (∀ window, session = some window ↔
          window ∈ allWindows plans ∧ window.contains matchTime = true) ∧
        core.contextForEvent instrument matchTime =
          session.map (fun window => sessionContext window.tradingDate window.kind) ∧
        (sessions.segmentFor instrument matchTime).map
          (fun segment => (segment.kind, segment.tradingDate)) =
          session.map fun window => (window.kind, window.tradingDate) := by
  obtain ⟨hmap, hsound⟩ := map_tradingDate hplans
  rw [← hmap] at hdates
  have hplan : ∀ plan ∈ plans, plan.Sound := fun plan h => (hsound plan h).2
  have hne : plans ≠ [] := by
    rintro rfl
    cases hplans
    exact hrequests rfl
  refine ⟨?_, ?_⟩
  · refine (allWindows_ordered hplan hdates).imp_of_mem ?_
    intro a b ha hb h
    obtain ⟨hbusinessa, htimeda⟩ := mem_allWindows hplan ha
    obtain ⟨hbusinessb, htimedb⟩ := mem_allWindows hplan hb
    exact h.imp (fun hab => ⟨hab, (htimeda.disjoint htimedb hbusinessa hab).le⟩)
      fun hba => ⟨hba, (htimedb.disjoint htimeda hbusinessb hba).le⟩
  obtain ⟨contexts, hcontexts, hcontext⟩ := planContextWindows_ok hplan
  obtain ⟨core, hcore, hwindows⟩ := core_accepts instrument hplan hdates hcontext reducer context
  obtain ⟨segments, hentries, hsegment⟩ := planEntries_ok hsound ∅ hne
  have hsegments : segments ≠ [] := by
    rintro rfl
    obtain ⟨plan, rest, rfl⟩ := List.exists_cons_of_ne_nil hne
    have hwindows := (hplan plan List.mem_cons_self).nonempty
    rw [List.map_nil, eq_comm, List.map_eq_nil_iff, allWindows, List.flatMap_cons,
      List.append_eq_nil_iff] at hsegment
    exact hwindows hsegment.1
  obtain ⟨sessions, hsessions, hsorted⟩ :=
    schedule_accepts instrument hplan hsegments hdates hsegment
  refine ⟨contexts, core, sessions, hcontexts, hcore, ?_, fun matchTime => ?_⟩
  · rw [schedule, hentries]
    exact congrArg (Except.mapError CommandError.schedule) hsessions
  refine ⟨_, find?_contains_eq_some hplan hdates matchTime, ?_, ?_⟩
  · rw [ReplayCore.contextForEvent, hwindows]
    exact contexts_find? hplan hdates (contexts.perm_insertionSort _) hcontext matchTime
  · rw [MultiSessionSchedule.segmentFor, hsorted]
    exact segments_find? hplan hdates (segments.perm_insertionSort _) hsegment matchTime

/-- Both sessions of a Friday and of the Monday after it, whose after-hours session opens on the
Friday. -/
theorem weekend_windows_agree : ∃ plans contexts core sessions,
    List.Forall₂ (fun request plan =>
      SessionPlan.withProfile sampleHash sampleInstrument request.1 .taifexIndexFutures
        request.2 = .ok plan)
      [(firstDay, [.regular, .afterHours]), (secondDay, [.afterHours, .regular])] plans ∧
    planContextWindows plans = .ok contexts ∧
    ReplayCore.newMultiWithSchedules [MarketState.new sampleInstrument firstDay]
    [(sampleInstrument, sampleReducer)]
      [(sampleInstrument, sampleContext firstDay)] [(sampleInstrument, contexts)] = .ok core ∧
    schedule (plans.map SessionPlan.partition) = .ok sessions ∧
    ∀ matchTime, (core.contextForEvent sampleInstrument matchTime).isSome =
      (sessions.segmentFor sampleInstrument matchTime).isSome := by
  obtain ⟨friday, hfriday⟩ :=
    exists_of_isOk (x := SessionPlan.withProfile sampleHash sampleInstrument firstDay
    .taifexIndexFutures [.regular, .afterHours]) (by decide +kernel)
  obtain ⟨monday, hmonday⟩ :=
    exists_of_isOk (x := SessionPlan.withProfile sampleHash sampleInstrument secondDay
    .taifexIndexFutures [.afterHours, .regular]) (by decide +kernel)
  have hplans : List.Forall₂ (fun request plan =>
      SessionPlan.withProfile sampleHash sampleInstrument request.1 .taifexIndexFutures
        request.2 = .ok plan)
      [(firstDay, [.regular, .afterHours]), (secondDay, [.afterHours, .regular])]
      [friday, monday] :=
    .cons hfriday (.cons hmonday .nil)
  obtain ⟨-, contexts, core, sessions, hcontexts, hcore, hsessions, hagree⟩ :=
    session_windows_agree sampleHash sampleInstrument
    .taifexIndexFutures sampleReducer (sampleContext firstDay) _ _ (List.cons_ne_nil _ _)
      (by decide +kernel) hplans
  refine ⟨_, contexts, core, sessions, hplans, hcontexts, hcore, hsessions, fun matchTime => ?_⟩
  obtain ⟨session, -, hcontext, hsegment⟩ := hagree matchTime
  have hsome := congrArg Option.isSome hsegment
  rw [Option.isSome_map, Option.isSome_map] at hsome
  rw [hcontext, Option.isSome_map, hsome]

end Osmium
