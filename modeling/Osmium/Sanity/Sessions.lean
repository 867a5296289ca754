import Osmium.Lib.Intervals
import Osmium.Spec.Sessions

/-! The times of a session window in microseconds, read back from the text they are parsed from, and
the order of the windows of different dates. -/

namespace Osmium
open Machine Bytes Result Calendar

section Timestamps

/-- A numeral at its place. -/
theorem parseDigits_at {bytes : List UInt8} {start width n : ℕ} (before rest : List UInt8)
    (hbytes : bytes = before ++ (padded width n ++ rest)) (hstart : before.length = start)
    (h : n < 10 ^ width) :
    parseDigits bytes start width = some n := by
  subst hbytes hstart
  exact parseDigits_padded h before rest

/-- A local time of Taipei in text. -/
def localText (year month day hour minute second : ℕ) : List UInt8 :=
  padded 4 year ++ [45] ++ padded 2 month ++ [45] ++ padded 2 day ++ [84] ++
    clockText hour minute second ++ taipeiOffset

theorem parseOffset_localText (year month day hour minute second : ℕ) :
    parseOffset (localText year month day hour minute second) = .ok (19, 28800) := by
  have hdrop : (localText year month day hour minute second).drop 19 = taipeiOffset := by
    rw [localText, List.drop_left']
    simp [clockText, length_padded]
  have hget : ∀ k, (localText year month day hour minute second)[19 + k]? = taipeiOffset[k]? := by
    intro k
    rw [← List.getElem?_drop, hdrop]
  have hlength : (localText year month day hour minute second).length = 25 := by
    simp [localText, clockText, length_padded, taipeiOffset]
  have hdigits :
      ∀ k length, parseDigits (localText year month day hour minute second) (19 + k) length =
      parseDigits taipeiOffset k length := by
    intro k length
    simp only [parseDigits, ← List.drop_drop, hdrop]
  have hindex : taipeiOffset.findIdx? (fun byte => byte = 90 || byte = 43 || byte = 45) =
      some 0 := by decide
  unfold parseOffset
  rw [hdrop, hindex]
  simp only [okOr, bind, Except.bind, Nat.zero_add]
  have h₀ := hget 0
  have h₃ := hget 3
  simp only [Nat.add_zero] at h₀
  rw [h₀, h₃, hlength, hdigits 1, hdigits 4]
  decide

/-- What a local time parses to, when it parses. -/
theorem parse_localText {year month day hour minute second : ℕ} {time : MatchTime}
    (hyear : year ≤ 9999) (hmonth : month ≤ 12)
    (hday : day ≤ 31) (hclock : hour ≤ 23 ∧ minute ≤ 59 ∧ second ≤ 59)
    (h : MatchTime.parse (localText year month day hour minute second) = .ok time) :
    time.key = (daysFromCivil year month day * 86400 +
      (hour * 3600 + minute * 60 + second - 28800)) * 1000000 := by
  have hy : parseDigits (localText year month day hour minute second) 0 4 = some year :=
    parseDigits_at [] ([45] ++ padded 2 month ++ [45] ++ padded 2 day ++ [84] ++
      clockText hour minute second ++ taipeiOffset)
      (by simp [localText]) rfl (by omega)
  have hmo : parseDigits (localText year month day hour minute second) 5 2 = some month :=
    parseDigits_at (padded 4 year ++ [45])
      ([45] ++ padded 2 day ++ [84] ++ clockText hour minute second ++ taipeiOffset)
      (by simp [localText]) (by simp [length_padded]) (by omega)
  have hd : parseDigits (localText year month day hour minute second) 8 2 = some day :=
    parseDigits_at (padded 4 year ++ [45] ++ padded 2 month ++ [45])
      ([84] ++ clockText hour minute second ++ taipeiOffset)
      (by simp [localText]) (by simp [length_padded]) (by omega)
  have hh : parseDigits (localText year month day hour minute second) 11 2 = some hour :=
    parseDigits_at (padded 4 year ++ [45] ++ padded 2 month ++ [45] ++ padded 2 day ++ [84])
      ([58] ++ padded 2 minute ++ [58] ++ padded 2 second ++ taipeiOffset)
        (by simp [localText, clockText])
      (by simp [length_padded]) (by omega)
  have hmi : parseDigits (localText year month day hour minute second) 14 2 = some minute :=
    parseDigits_at (padded 4 year ++ [45] ++ padded 2 month ++ [45] ++ padded 2 day ++ [84] ++
      padded 2 hour ++ [58])
      ([58] ++ padded 2 second ++ taipeiOffset) (by simp [localText, clockText])
        (by simp [length_padded]) (by omega)
  have hs : parseDigits (localText year month day hour minute second) 17 2 = some second :=
    parseDigits_at (padded 4 year ++ [45] ++ padded 2 month ++ [45] ++ padded 2 day ++ [84] ++
      padded 2 hour ++ [58] ++
      padded 2 minute ++ [58]) taipeiOffset (by simp [localText, clockText])
        (by simp [length_padded]) (by omega)
  simp only [MatchTime.parse, hy, hmo, hd, hh, hmi, hs, parseOffset_localText, parseFraction,
    if_true, bind_eq_ok, okOr_eq_ok,
    Option.some.injEq, pure_eq_ok, Option.bind_eq_some_iff, Option.bind_eq_bind,
    Signed.ofInt?_eq_some, Except.ok.injEq, exists_eq_left'] at h
  obtain ⟨_, -, _, -, _, -, localSeconds, ⟨days, hdays, hours, hhours, minutes, hminutes, hlocal⟩,
      utc, hutc, micros, ⟨scaled, hscaled, hmicros⟩, rfl⟩ := h
  change micros.val = _
  rw [hmicros, hscaled, hutc, hlocal, hminutes, hhours, hdays]
  ring

/-- Midnight of a date in Taipei, in seconds. -/
def localMidnight (date : TradingDate) : ℤ := date.epochDays.val * 86400 - 28800

theorem parseLocalTime_key {date : TradingDate} {hour minute second : ℕ} {time : MatchTime}
    (hclock : hour ≤ 23 ∧ minute ≤ 59 ∧ second ≤ 59)
    (h : parseLocalTime date (clockText hour minute second) = .ok time) :
    time.key = (localMidnight date + (hour * 3600 + minute * 60 + second)) * 1000000 := by
  obtain ⟨year, month, day, limit, hcivil, hyear, hmonth, -, -, hlimit, hbound⟩ :=
    civilFromDays_valid date.inRange
  have hback := daysFromCivil_civilFromDays date.epochDays.val
  rw [hcivil] at hback
  rw [parseLocalTime, TradingDate.display, hcivil, mapError_eq_ok] at h
  have hkey := parse_localText hyear hmonth (by omega : day ≤ 31) hclock h
  rw [hback] at hkey
  rw [hkey, localMidnight]
  ring

end Timestamps

section Calendar

theorem isWeekend_eq_false (date : TradingDate) :
    isWeekend date = false ↔ (date.epochDays.val + 4) % 7 ≠ 0 ∧
    (date.epochDays.val + 4) % 7 ≠ 6 := by
  simp [isWeekend]

/-- The search stops at the last day that is no weekend. -/
theorem previousBusinessDateFrom_ok {steps : ℕ} {epochDays : I32} {date : TradingDate}
    (h : previousBusinessDateFrom steps epochDays = .ok date) :
    date.epochDays.val ≤ epochDays.val ∧ isWeekend date = false ∧
      ∀ other : TradingDate, isWeekend other = false → other.epochDays.val ≤ epochDays.val →
        other.epochDays.val ≤ date.epochDays.val := by
  induction steps generalizing epochDays with
  | zero => cases h
  | succ steps ih =>
    simp only [previousBusinessDateFrom, bind_eq_ok, mapError_eq_ok,
      TradingDate.fromEpochDays_eq_ok] at h
    obtain ⟨candidate, rfl, h⟩ := h
    by_cases hweekend : isWeekend candidate = false
    · rw [if_pos hweekend, pure_eq_ok] at h
      subst h
      exact ⟨le_refl _, hweekend, fun _ _ hle => hle⟩
    · rw [if_neg hweekend] at h
      simp only [bind_eq_ok, okOr_eq_ok, Signed.checkedSub_eq_some] at h
      obtain ⟨earlier, hearlier, h⟩ := h
      have hone : (Signed.wrap 32 1).val = 1 := by decide
      rw [hone] at hearlier
      obtain ⟨hle, hbusiness, hlast⟩ := ih h
      refine ⟨by omega, hbusiness, fun other hother hbefore => hlast other hother ?_⟩
      have hne : other.epochDays.val ≠ candidate.epochDays.val := by
        intro heq
        rw [TradingDate.ext (Signed.ext heq)] at hother
        exact hweekend hother
      omega

/-- The steps back to a business day: two from a Saturday, three from a Sunday, the day itself
counted. -/
def businessSteps (epochDays : I32) : ℕ :=
  if (epochDays.val + 4) % 7 = 0 then 3 else if (epochDays.val + 4) % 7 = 6 then 2 else 1

theorem previousBusinessDateFrom_agree {m n : ℕ} {epochDays : I32}
    (hm : businessSteps epochDays ≤ m) (hn : businessSteps epochDays ≤ n) :
    previousBusinessDateFrom m epochDays = previousBusinessDateFrom n epochDays := by
  have hpositive : 1 ≤ businessSteps epochDays := by
    unfold businessSteps
    split_ifs <;> omega
  induction m generalizing n epochDays with
  | zero => omega
  | succ m ih =>
    obtain ⟨n, rfl⟩ : ∃ k, n = k + 1 := ⟨n - 1, by omega⟩
    rcases hdate : TradingDate.fromEpochDays epochDays with e | candidate
    · simp only [previousBusinessDateFrom, hdate, Except.mapError]
      rfl
    obtain rfl := (TradingDate.fromEpochDays_eq_ok _ _).1 hdate
    simp only [previousBusinessDateFrom, hdate, Except.mapError, bind, Except.bind]
    by_cases hweekend : isWeekend candidate = false
    · rw [if_pos hweekend, if_pos hweekend]
    rw [if_neg hweekend, if_neg hweekend]
    rcases hearlier : candidate.epochDays.checkedSub (Signed.wrap 32 1) with _ | earlier
    · rfl
    -- the day before needs one step less
    have hone : (Signed.wrap 32 1).val = 1 := by decide
    rw [Signed.checkedSub_eq_some, hone] at hearlier
    rw [isWeekend_eq_false] at hweekend
    have hless : 1 ≤ businessSteps earlier ∧
        businessSteps earlier + 1 ≤ businessSteps candidate.epochDays := by
      unfold businessSteps
      rw [hearlier]
      split_ifs <;> omega
    exact ih (by omega) (by omega) hless.1

/-- The days of a weekend are two, so the loop of the source ends within the steps the model takes.
-/
theorem previousBusinessDateFrom_steps {steps : ℕ} (h : 7 ≤ steps) (epochDays : I32) :
    previousBusinessDateFrom steps epochDays = previousBusinessDateFrom 7 epochDays := by
  have hbound : businessSteps epochDays ≤ 3 := by
    unfold businessSteps
    split_ifs <;> omega
  exact previousBusinessDateFrom_agree (by omega) (by omega)

theorem previousBusinessDate_ok {date previous : TradingDate}
    (h : previousBusinessDate date = .ok previous) :
    previous.epochDays.val < date.epochDays.val ∧ isWeekend previous = false ∧
      ∀ other : TradingDate, isWeekend other = false → other.epochDays.val < date.epochDays.val →
        other.epochDays.val ≤ previous.epochDays.val := by
  simp only [previousBusinessDate, bind_eq_ok, okOr_eq_ok, Signed.checkedSub_eq_some] at h
  obtain ⟨yesterday, hyesterday, h⟩ := h
  have hone : (Signed.wrap 32 1).val = 1 := by decide
  rw [hone] at hyesterday
  obtain ⟨hle, hbusiness, hlast⟩ := previousBusinessDateFrom_ok h
  exact ⟨by omega, hbusiness, fun other hother hbefore => hlast other hother (by omega)⟩

end Calendar

section Windows

/-- When the sessions of a date trade: the regular session within its day, the after-hours session
from the afternoon of the business day before to the early morning. The margin is added on both
sides. -/
structure SessionWindow.Timed (window : SessionWindow) : Prop where
  start : window.replayStart.key = window.openTime.key - 300000000
  finish : window.replayEndExclusive.key = window.closeTime.key + 300000000
  regular : window.kind = .regular →
      (localMidnight window.tradingDate + 31500) * 1000000 ≤ window.openTime.key ∧
    window.openTime.key < window.closeTime.key ∧
    window.closeTime.key ≤ (localMidnight window.tradingDate + 49500) * 1000000
  afterHours : window.kind = .afterHours →
      ∃ previous, previousBusinessDate window.tradingDate = .ok previous ∧
    (localMidnight previous + 54000) * 1000000 ≤ window.openTime.key ∧
    window.openTime.key ≤ (localMidnight previous + 62700) * 1000000 ∧
    window.closeTime.key = (localMidnight window.tradingDate + 18000) * 1000000

theorem sessionTimes_regular {profile : SessionProfileId} {date : TradingDate}
    {times : TradingDate × List UInt8 × TradingDate × List UInt8}
    (h : sessionTimes profile .regular date = .ok times) :
    times = (date, clockText 9 0 0, date, clockText 13 30 0) ∨
    times = (date, clockText 8 45 0, date, clockText 13 45 0) := by
  cases profile <;> cases h
  all_goals first | exact Or.inl rfl | exact Or.inr rfl

theorem sessionTimes_afterHours {profile : SessionProfileId} {date : TradingDate}
    {times : TradingDate × List UInt8 × TradingDate × List UInt8}
    (h : sessionTimes profile .afterHours date = .ok times) :
    ∃ previous, previousBusinessDate date = .ok previous ∧
    (times = (previous, clockText 15 0 0, date, clockText 5 0 0) ∨
      times = (previous, clockText 17 25 0, date, clockText 5 0 0)) := by
  cases profile <;> simp only [sessionTimes, bind_eq_ok, pure_eq_ok, reduceCtorEq] at h
  all_goals
    obtain ⟨previous, hprevious, rfl⟩ := h
    exact ⟨previous, hprevious, by simp⟩

theorem buildWindow_ok {profile : SessionProfileId} {kind : SessionKind} {date : TradingDate}
    {window : SessionWindow} (h : buildWindow profile kind date = .ok window) :
    window.kind = kind ∧ window.tradingDate = date ∧ window.Timed := by
  simp only [buildWindow, bind_eq_ok, okOr_eq_ok, Signed.checkedSub_eq_some,
    Signed.checkedAdd_eq_some, pure_eq_ok] at h
  obtain ⟨⟨openDate, openText, closeDate, closeText⟩, htimes, openTime, hopen, closeTime, hclose,
      start, hstart, finish, hfinish, rfl⟩ := h
  have hmargin : replayMarginMicroseconds.val = 300000000 := by decide
  rw [hmargin] at hstart hfinish
  dsimp only at hopen hclose
  refine ⟨rfl, rfl, hstart, hfinish, ?_, ?_⟩
  · intro hkind
    change kind = .regular at hkind
    subst hkind
    change (localMidnight date + 31500) * 1000000 ≤ openTime.key ∧ openTime.key < closeTime.key ∧
      closeTime.key ≤ (localMidnight date + 49500) * 1000000
    rcases sessionTimes_regular htimes with heq | heq <;> cases heq
    · rw [parseLocalTime_key (by decide) hopen, parseLocalTime_key (by decide) hclose]
      omega
    · rw [parseLocalTime_key (by decide) hopen, parseLocalTime_key (by decide) hclose]
      omega
  · intro hkind
    change kind = .afterHours at hkind
    subst hkind
    obtain ⟨previous, hprevious, heq⟩ := sessionTimes_afterHours htimes
    refine ⟨previous, hprevious, ?_⟩
    change _ ≤ openTime.key ∧ openTime.key ≤ _ ∧
        closeTime.key = (localMidnight date + 18000) * 1000000
    rcases heq with heq | heq <;> cases heq
    · rw [parseLocalTime_key (by decide) hopen, parseLocalTime_key (by decide) hclose]
      omega
    · rw [parseLocalTime_key (by decide) hopen, parseLocalTime_key (by decide) hclose]
      omega

/-- Sessions in the order they are traded in: by date, and on a date the after-hours session first.
-/
def SessionWindow.Before (a b : SessionWindow) : Prop :=
  a.tradingDate.epochDays.val < b.tradingDate.epochDays.val ∨
    (a.tradingDate = b.tradingDate ∧ a.kind = .afterHours ∧ b.kind = .regular)

theorem SessionWindow.Timed.open_lt_close {window : SessionWindow} (h : window.Timed) :
    window.openTime.key < window.closeTime.key := by
  rcases hkind : window.kind with _ | _
  · exact (h.regular hkind).2.1
  · obtain ⟨previous, hprevious, -, hopen, hclose⟩ := h.afterHours hkind
    have hday := (previousBusinessDate_ok hprevious).1
    simp only [localMidnight] at hopen hclose
    omega

theorem SessionWindow.Timed.replay_nonempty {window : SessionWindow} (h : window.Timed) :
    window.replayStart < window.replayEndExclusive := by
  have hopen := h.open_lt_close
  have hstart := h.start
  have hfinish := h.finish
  rw [MatchTime.lt_iff]
  omega

/-- A session is over when the next one begins, the margins included. -/
theorem SessionWindow.Timed.disjoint {a b : SessionWindow} (ha : a.Timed) (hb : b.Timed)
    (hbusiness : isWeekend a.tradingDate = false) (h : a.Before b) :
    a.replayEndExclusive < b.replayStart := by
  rw [MatchTime.lt_iff, ha.finish, hb.start]
  -- both kinds of session close by the early afternoon of their date
  have hclose : a.closeTime.key ≤ (localMidnight a.tradingDate + 49500) * 1000000 := by
    rcases hkind : a.kind with _ | _
    · exact (ha.regular hkind).2.2
    · obtain ⟨_, -, -, -, hclose⟩ := ha.afterHours hkind
      omega
  rcases h with hdate | ⟨hdate, hkinda, hkindb⟩
  · rcases hkind : b.kind with _ | _
    · have hopen := (hb.regular hkind).1
      simp only [localMidnight] at hclose hopen
      omega
    -- the after-hours session opens on the business day before, which is no earlier than the other
    -- session's
    · obtain ⟨previous, hprevious, hopen, -, -⟩ := hb.afterHours hkind
      have hlast := (previousBusinessDate_ok hprevious).2.2 a.tradingDate hbusiness hdate
      simp only [localMidnight] at hclose hopen
      omega
  · obtain ⟨_, -, -, -, hmorning⟩ := ha.afterHours hkinda
    have hopen := (hb.regular hkindb).1
    rw [← hdate] at hopen
    omega

end Windows

section Plans
variable {hash : List UInt8 → Digest} {instrument : InstrumentId} {profile : SessionProfileId}

theorem buildWindows_ok {date : TradingDate} {kinds : List SessionKind}
    {windows : List SessionWindow} (h : buildWindows profile date kinds = .ok windows) :
    windows.map SessionWindow.kind = kinds ∧ ∀ window ∈ windows, window.tradingDate = date ∧
    window.Timed := by
  induction kinds generalizing windows with
  | nil =>
    cases h
    exact ⟨rfl, by simp⟩
  | cons kind kinds ih =>
    simp only [buildWindows, bind_eq_ok, pure_eq_ok] at h
    obtain ⟨first, hfirst, rest, hrest, rfl⟩ := h
    obtain ⟨hkind, hdate, htimed⟩ := buildWindow_ok hfirst
    obtain ⟨hkinds, hall⟩ := ih hrest
    refine ⟨by rw [List.map_cons, hkind, hkinds], ?_⟩
    simp only [List.mem_cons, forall_eq_or_imp]
    exact ⟨⟨hdate, htimed⟩, hall⟩

instance : Std.Total sessionKindBefore := ⟨fun a b => UInt8.le_total a.discriminant b.discriminant⟩

instance : IsTrans SessionKind sessionKindBefore := ⟨fun _ _ _ => UInt8.le_trans⟩

/-- What a plan holds when it could be made. -/
structure SessionPlan.Sound (plan : SessionPlan) : Prop where
  business : isWeekend plan.tradingDate = false
  nonempty : plan.windows ≠ []
  distinct : plan.windows.Pairwise fun a b => a.kind ≠ b.kind
  timed : ∀ window ∈ plan.windows, window.tradingDate = plan.tradingDate ∧ window.Timed

theorem withProfile_ok {date : TradingDate} {kinds : List SessionKind} {plan : SessionPlan}
    (h : SessionPlan.withProfile hash instrument date profile kinds = .ok plan) :
    plan.instrument = instrument ∧ plan.tradingDate = date ∧ plan.Sound := by
  simp only [SessionPlan.withProfile, bind_eq_ok, ensure_eq_ok] at h
  obtain ⟨_, hbusiness, _, hnonempty, h⟩ := h
  split at h
  · cases h
  simp only [bind_eq_ok, pure_eq_ok] at h
  obtain ⟨windows, hwindows, bytes, -, rfl⟩ := h
  obtain ⟨hkinds, htimed⟩ := buildWindows_ok hwindows
  have hnodup : ((kinds.insertionSort sessionKindBefore).destutter (· ≠ ·)).Nodup := by
    refine Intervals.nodup_of_isChain_ne (r := sessionKindBefore) ?_ ?_ (List.isChain_destutter _ _)
    · intro a b hab hba
      exact SessionKind.discriminant_injective (UInt8.le_antisymm hab hba)
    · exact (List.pairwise_insertionSort sessionKindBefore kinds).sublist
        (List.destutter_sublist _ _)
  rw [← hkinds] at hnodup hnonempty
  exact ⟨rfl, rfl, hbusiness, fun hnil =>
    hnonempty (List.map_eq_nil_iff.2 hnil), List.pairwise_map.1 hnodup, htimed⟩

/-- The windows of all plans of an instrument. -/
def allWindows (plans : List SessionPlan) : List SessionWindow := plans.flatMap SessionPlan.windows

theorem mem_allWindows {plans : List SessionPlan} (hsound : ∀ plan ∈ plans, plan.Sound)
    {window : SessionWindow}
    (h : window ∈ allWindows plans) : isWeekend window.tradingDate = false ∧ window.Timed := by
  obtain ⟨plan, hplan, hwindow⟩ := List.mem_flatMap.1 h
  obtain ⟨hdate, htimed⟩ := (hsound plan hplan).timed window hwindow
  rw [hdate]
  exact ⟨(hsound plan hplan).business, htimed⟩

theorem before_or_before {a b : SessionWindow}
    (h : a.tradingDate ≠ b.tradingDate ∨ a.kind ≠ b.kind) :
    a.Before b ∨ b.Before a := by
  by_cases hdate : a.tradingDate = b.tradingDate
  · have hkind := h.resolve_left (not_not.2 hdate)
    rcases ha : a.kind with _ | _ <;> rcases hb : b.kind with _ | _
    · exact absurd (ha.trans hb.symm) hkind
    · exact Or.inr (Or.inr ⟨hdate.symm, hb, ha⟩)
    · exact Or.inl (Or.inr ⟨hdate, ha, hb⟩)
    · exact absurd (ha.trans hb.symm) hkind
  · have hne : a.tradingDate.epochDays.val ≠ b.tradingDate.epochDays.val :=
      fun heq => hdate (TradingDate.ext (Signed.ext heq))
    rcases lt_or_gt_of_ne hne with hlt | hlt
    · exact Or.inl (Or.inl hlt)
    · exact Or.inr (Or.inl hlt)

/-- Of two sessions of an instrument one comes first. -/
theorem allWindows_ordered {plans : List SessionPlan} (hsound : ∀ plan ∈ plans, plan.Sound)
    (hdates : (plans.map SessionPlan.tradingDate).Nodup) :
    (allWindows plans).Pairwise fun a b => a.Before b ∨ b.Before a := by
  rw [allWindows, List.pairwise_flatMap]
  refine ⟨fun plan hplan => ?_, ?_⟩
  · exact (hsound plan hplan).distinct.imp fun hkind => before_or_before (Or.inr hkind)
  · refine (List.pairwise_map.1 hdates).imp_of_mem ?_
    intro p q hp hq hne a ha b hb
    rw [← ((hsound p hp).timed a ha).1, ← ((hsound q hq).timed b hb).1] at hne
    exact before_or_before (Or.inl hne)

theorem allWindows_apart {plans : List SessionPlan} (hsound : ∀ plan ∈ plans, plan.Sound)
    (hdates : (plans.map SessionPlan.tradingDate).Nodup) : (allWindows plans).Pairwise
      fun a b => a.replayEndExclusive < b.replayStart ∨ b.replayEndExclusive < a.replayStart := by
  refine (allWindows_ordered hsound hdates).imp_of_mem ?_
  intro a b ha hb hbefore
  obtain ⟨hbusinessa, htimeda⟩ := mem_allWindows hsound ha
  obtain ⟨hbusinessb, htimedb⟩ := mem_allWindows hsound hb
  exact hbefore.imp (htimeda.disjoint htimedb hbusinessa) (htimedb.disjoint htimeda hbusinessb)

end Plans

section Contexts

theorem anyAdjacent_eq_false {α : Type} {p : α → α → Bool} {l : List α}
    (h : l.Pairwise fun a b => p a b = false) :
    anyAdjacent p l = false := by
  induction l with
  | nil => rfl
  | cons a l ih =>
    rcases l with _ | ⟨b, l⟩
    · rfl
    · obtain ⟨hhead, htail⟩ := List.pairwise_cons.1 h
      rw [anyAdjacent, hhead b List.mem_cons_self, ih htail]
      rfl

/-- What a context window says. -/
def ReplayContextWindow.content (self : ReplayContextWindow) :
    MatchTime × MatchTime × ReducerContext :=
  (self.start, self.endExclusive, self.context)

/-- What the replay core is told of a session. -/
def SessionWindow.coreContent (self : SessionWindow) : MatchTime × MatchTime × ReducerContext :=
  (self.replayStart, self.replayEndExclusive, sessionContext self.tradingDate self.kind)

theorem contextWindows_ok {date : TradingDate} {windows : List SessionWindow}
    (h : ∀ window ∈ windows, window.tradingDate = date ∧ window.Timed) :
    ∃ contexts, contextWindows date windows = .ok contexts ∧
      contexts.map ReplayContextWindow.content = windows.map SessionWindow.coreContent := by
  induction windows with
  | nil => exact ⟨[], rfl, rfl⟩
  | cons window windows ih =>
    simp only [List.mem_cons, forall_eq_or_imp] at h
    obtain ⟨⟨hdate, htimed⟩, hrest⟩ := h
    obtain ⟨contexts, hcontexts, hcontent⟩ := ih hrest
    have hnonempty := htimed.replay_nonempty
    refine ⟨⟨window.replayStart, window.replayEndExclusive, sessionContext date window.kind,
      hnonempty⟩ :: contexts, ?_, ?_⟩
    · simp only [contextWindows, ReplayContextWindow.new, dif_pos hnonempty, hcontexts, bind,
        Except.bind, pure, Except.pure]
    · rw [List.map_cons, List.map_cons, hcontent, ReplayContextWindow.content,
        SessionWindow.coreContent, hdate]

theorem planContextWindows_ok {plans : List SessionPlan} (h : ∀ plan ∈ plans, plan.Sound) :
    ∃ contexts, planContextWindows plans = .ok contexts ∧
      contexts.map ReplayContextWindow.content =
        (allWindows plans).map SessionWindow.coreContent := by
  induction plans with
  | nil => exact ⟨[], rfl, rfl⟩
  | cons plan plans ih =>
    simp only [List.mem_cons, forall_eq_or_imp] at h
    obtain ⟨hplan, hrest⟩ := h
    obtain ⟨first, hfirst, hcontent⟩ := contextWindows_ok hplan.timed
    obtain ⟨contexts, hcontexts, hcontents⟩ := ih hrest
    refine ⟨first ++ contexts, ?_, ?_⟩
    · simp only [planContextWindows, hfirst, hcontexts, bind, Except.bind, pure, Except.pure]
    · rw [List.map_append, hcontent, hcontents, allWindows, allWindows, List.flatMap_cons,
        List.map_append]

end Contexts

section Segments

/-- What a segment of the schedule says. -/
def SessionSegment.content (self : SessionSegment) :
    MatchTime × MatchTime × SessionKind × TradingDate :=
  (self.openTime, self.closeTime, self.kind, self.tradingDate)

/-- What the schedule is told of a session. -/
def SessionWindow.segmentContent (self : SessionWindow) :
    MatchTime × MatchTime × SessionKind × TradingDate :=
  (self.openTime, self.closeTime, self.kind, self.tradingDate)

theorem val_warmUpMicroseconds : warmUpMicroseconds.val = 300000000 := by decide

/-- The schedule's margin is the planner's. -/
theorem SessionWindow.Timed.bounded {window : SessionWindow} (h : window.Timed) :
    window.openTime.unixMicroseconds.checkedSub warmUpMicroseconds =
      some window.replayStart.unixMicroseconds ∧
      window.closeTime.unixMicroseconds.checkedAdd warmUpMicroseconds =
        some window.replayEndExclusive.unixMicroseconds := by
  rw [Signed.checkedSub_eq_some, Signed.checkedAdd_eq_some, val_warmUpMicroseconds]
  exact ⟨h.start, h.finish⟩

theorem planSegments_ok {date : TradingDate} {windows : List SessionWindow}
    (h : ∀ window ∈ windows, window.tradingDate = date ∧ window.Timed) : ∃ segments,
      planSegments date (windows.map fun window =>
        (window.kind, window.openTime, window.closeTime)) = .ok segments ∧
      segments.map SessionSegment.content = windows.map SessionWindow.segmentContent := by
  induction windows with
  | nil => exact ⟨[], rfl, rfl⟩
  | cons window windows ih =>
    simp only [List.mem_cons, forall_eq_or_imp] at h
    obtain ⟨⟨hdate, htimed⟩, hrest⟩ := h
    obtain ⟨segments, hsegments, hcontent⟩ := ih hrest
    have hopen : window.openTime < window.closeTime := htimed.open_lt_close
    have hbounded : (window.openTime.unixMicroseconds.checkedSub warmUpMicroseconds).isSome = true ∧
        (window.closeTime.unixMicroseconds.checkedAdd warmUpMicroseconds).isSome = true := by
      rw [htimed.bounded.1, htimed.bounded.2]
      exact ⟨rfl, rfl⟩
    refine ⟨⟨segmentIdOf window.kind, window.kind, date, window.openTime, window.closeTime, hopen,
      hbounded⟩ :: segments, ?_, ?_⟩
    · simp only [List.map_cons, planSegments, SessionSegment.new, dif_pos hopen, dif_pos hbounded,
        hsegments, Except.mapError, bind, Except.bind, pure, Except.pure]
    · rw [List.map_cons, List.map_cons, hcontent, SessionSegment.content,
        SessionWindow.segmentContent, hdate]

/-- The segments of one instrument are collected under its name. -/
theorem planEntries_ok {instrument : InstrumentId} {plans : List SessionPlan}
    (h : ∀ plan ∈ plans, plan.instrument = instrument ∧ plan.Sound)
    (entries : Std.ExtTreeMap InstrumentId (List SessionSegment)) :
    plans ≠ [] → ∃ segments, planEntries (plans.map SessionPlan.partition) entries =
        .ok (entries.insert instrument ((entries[instrument]?).getD [] ++ segments)) ∧
      segments.map SessionSegment.content =
        (allWindows plans).map SessionWindow.segmentContent := by
  induction plans generalizing entries with
  | nil => exact fun hne => absurd rfl hne
  | cons plan plans ih =>
    intro _
    simp only [List.mem_cons, forall_eq_or_imp] at h
    obtain ⟨⟨hinstrument, hplan⟩, hrest⟩ := h
    obtain ⟨first, hfirst, hcontent⟩ := planSegments_ok hplan.timed
    simp only [List.map_cons, planEntries, SessionPlan.partition, hfirst, bind, Except.bind,
      hinstrument]
    by_cases hplans : plans = []
    · subst hplans
      exact ⟨first,
        rfl, by rw [hcontent, allWindows, List.flatMap_cons, List.flatMap_nil, List.append_nil]⟩
    obtain ⟨segments, hsegments, hcontents⟩ :=
      ih hrest (entries.insert instrument ((entries[instrument]?).getD [] ++ first)) hplans
    refine ⟨first ++ segments, ?_, ?_⟩
    · refine hsegments.trans ?_
      rw [Std.ExtTreeMap.getElem?_insert_self, Option.getD_some, List.append_assoc]
      refine congrArg Except.ok (Std.ExtTreeMap.ext_getElem? fun key => ?_)
      simp only [Std.ExtTreeMap.getElem?_insert]
      split_ifs <;> rfl
    · rw [List.map_append, hcontent, hcontents, allWindows, allWindows, List.flatMap_cons,
        List.map_append]

/-- A time lies between the open and close times, with the margin on both sides. -/
def withinMargin (matchTime : MatchTime)
    (content : MatchTime × MatchTime × SessionKind × TradingDate) : Bool :=
  content.1.key - 300000000 ≤ matchTime.key && matchTime.key < content.2.1.key + 300000000

theorem phase_isOk (segment : SessionSegment) (matchTime : MatchTime) :
    (segment.phase matchTime).isOk = withinMargin matchTime segment.content := by
  obtain ⟨start, hstart⟩ := Option.isSome_iff_exists.1 segment.bounded.1
  obtain ⟨finish, hfinish⟩ := Option.isSome_iff_exists.1 segment.bounded.2
  simp only [SessionSegment.phase, hstart, hfinish, okOr, bind, Except.bind, ensure]
  rw [Signed.checkedSub_eq_some, val_warmUpMicroseconds] at hstart
  rw [Signed.checkedAdd_eq_some, val_warmUpMicroseconds] at hfinish
  have hcontent : withinMargin matchTime segment.content =
      decide (start ≤ matchTime.unixMicroseconds ∧ matchTime.unixMicroseconds < finish) := by
    rw [withinMargin, Bool.eq_iff_iff, Bool.and_eq_true, decide_eq_true_eq, decide_eq_true_eq,
      decide_eq_true_eq, Signed.le_iff, Signed.lt_iff, hstart, hfinish]
    rfl
  rw [hcontent]
  by_cases hwithin : start ≤ matchTime.unixMicroseconds ∧ matchTime.unixMicroseconds < finish
  · rw [if_pos hwithin, decide_eq_true hwithin]
    rfl
  · rw [if_neg hwithin, decide_eq_false hwithin]
    rfl

/-- A time in the half-open replay window. -/
def SessionWindow.contains (matchTime : MatchTime) (self : SessionWindow) : Bool :=
  self.replayStart ≤ matchTime && matchTime < self.replayEndExclusive

theorem SessionWindow.Timed.withinMargin_eq {window : SessionWindow} (h : window.Timed)
    (matchTime : MatchTime) :
    withinMargin matchTime window.segmentContent = window.contains matchTime := by
  rw [withinMargin, SessionWindow.contains, Bool.eq_iff_iff, Bool.and_eq_true, Bool.and_eq_true,
    decide_eq_true_eq,
    decide_eq_true_eq, decide_eq_true_eq, decide_eq_true_eq, MatchTime.le_iff, MatchTime.lt_iff,
    h.start, h.finish]
  rfl

end Segments

end Osmium
