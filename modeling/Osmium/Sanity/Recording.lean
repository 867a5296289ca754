import Osmium.Lib.OrderedMap
import Osmium.Sanity.Depth
import Osmium.Spec.Scheduled

/-! Recording a sweep in the scheduled simulator. Each level is consumed and its fill recorded
before the fill's feedback is checked; the check can only fail on the time of the fill, and then the
level and the fill are already written. -/

namespace Osmium
open Machine Bytes Result Stateful ScheduledDepthSimulator

section Consumption

theorem consumedAt_setIfInBounds (consumed : Vector U64 bookDepth) (i : ℕ) (amount : U64)
    (hi : i < bookDepth) (k : ℕ) :
    consumedAt (consumed.setIfInBounds i amount) k = if k = i then amount.val else
      consumedAt consumed k := by
  unfold consumedAt
  rw [Vector.toList_setIfInBounds, List.getElem?_set]
  by_cases hk : k = i
  · subst hk
    simp [hi]
  · simp [hk, Ne.symm hk]

/-- The book after fills were taken from it: only the consumption of one side has grown, by what was
taken. -/
structure Consumes (side : OrderSide) (fills : List LevelFill)
    (book book' : VisibleBookState) : Prop where
  evidence : book'.evidence = book.evidence
  taken : ∀ k < bookDepth, consumedAt (book'.consumed side) k =
      consumedAt (book.consumed side) k + takenAt fills (k + 1)
  other : ∀ side', side' ≠ side → book'.consumed side' = book.consumed side'

theorem Consumes.refl (side : OrderSide) (book : VisibleBookState) : Consumes side [] book book :=
  ⟨rfl, fun k _ => by simp, fun _ _ => rfl⟩

theorem Consumes.cons {side : OrderSide} {fill : LevelFill} {fills : List LevelFill}
    {a b c : VisibleBookState} (h₁ : Consumes side [fill] a b) (h₂ : Consumes side fills b c) :
    Consumes side (fill :: fills) a c where
  evidence := h₂.evidence.trans h₁.evidence
  taken := fun k hk => by
    rw [h₂.taken k hk, h₁.taken k hk, takenAt_cons fill fills, takenAt_cons, takenAt_nil]
    ring
  other := fun side' h => (h₂.other side' h).trans (h₁.other side' h)

/-- What a side displays, once fills were taken from it. -/
structure Affords (book : VisibleBookState) (side : OrderSide) (fills : List LevelFill) : Prop where
  located : ∀ fill ∈ fills, 1 ≤ fill.levelIndex ∧ fill.levelIndex ≤ bookDepth ∧
    fill.levelIndex ≤ (book.evidence.book.opposite side).levels.length
  available : ∀ (k : ℕ) (level : BookLevel),
      (book.evidence.book.opposite side).levels[k]? = some level →
    consumedAt (book.consumed side) k + takenAt fills (k + 1) ≤ level.displayedQuantity.value.val

/-- Consumption within what is displayed, on both sides. -/
def VisibleBookState.Within (book : VisibleBookState) : Prop :=
  ∀ side, ConsumedWithin (book.evidence.book.opposite side).levels (book.consumed side)

theorem Affords.rest {book book' : VisibleBookState} {side : OrderSide} {fill : LevelFill}
    {fills : List LevelFill}
    (h : Affords book side (fill :: fills)) (hc : Consumes side [fill] book book') :
    Affords book' side fills where
  located := by
    rw [hc.evidence]
    exact (List.forall_mem_cons.1 h.located).2
  available := fun k level hlevel => by
    rw [hc.evidence] at hlevel
    have hle := h.available k level hlevel
    by_cases hk : k < bookDepth
    · rw [hc.taken k hk]
      rw [takenAt_cons] at hle
      rw [takenAt_cons, takenAt_nil]
      omega
    · -- a side has at most five levels, and consumption is not kept past them
      have hnone : ∀ v : Vector U64 bookDepth, consumedAt v k = 0 := fun v => by
        simp [consumedAt, List.getElem?_eq_none_iff.2 (show v.toList.length ≤ k by simp; omega)]
      rw [hnone] at hle ⊢
      rw [takenAt_cons] at hle
      omega

theorem levels_length (side : BookSide) : side.levels.length ≤ bookDepth := by
  have hle : ∀ slots : List (Option BookLevel), (levelsOf slots).length ≤ slots.length := by
    intro slots
    induction slots with
    | nil => simp [levelsOf]
    | cons slot rest ih =>
      cases slot with
      | none => simp [levelsOf]
      | some level => simpa [levelsOf] using ih
  simpa [BookSide.levels] using hle side.slots.toList

/-- Taking what a within-bounds side affords keeps the book within bounds. -/
theorem Consumes.within {side : OrderSide} {fills : List LevelFill} {book book' : VisibleBookState}
    (h : Consumes side fills book book') (hb : book.Within) (ha : Affords book side fills) :
    book'.Within := by
  intro side' k level hlevel
  rw [h.evidence] at hlevel
  by_cases hside : side' = side
  · subst hside
    have hk : k < bookDepth :=
      (List.getElem?_eq_some_iff.1 hlevel).1.trans_le (levels_length _)
    rw [h.taken k hk]
    exact ha.available k level hlevel
  · rw [h.other side' hside]
    exact hb side' k level hlevel

end Consumption

section Record
variable (hash : List UInt8 → Digest) {order : ScheduledOrder} {time : MatchTime}

/-- The quantity a list of fill records adds up to. -/
def recordTotal (records : List FillRecord) : ℕ :=
  (records.map fun record => record.quantity.value.val).sum

@[simp] theorem recordTotal_nil : recordTotal [] = 0 := rfl

theorem recordTotal_eq_zero (records : List FillRecord) : recordTotal records = 0 ↔
    records = [] := by
  cases records with
  | nil => simp
  | cons record rest =>
    have hpos := record.quantity.pos
    simp only [recordTotal, List.map_cons, List.sum_cons, reduceCtorEq, iff_false]
    omega

/-- Everything but books and fills is as it was. -/
structure SameOrders (s s' : ScheduledDepthSimulator) : Prop where
  configs : s'.configs = s.configs
  tradingStates : s'.tradingStates = s.tradingStates
  orders : s'.orders = s.orders
  clientOrders : s'.clientOrders = s.clientOrders
  sequence : s'.nextAcceptanceSequence = s.nextAcceptanceSequence

theorem SameOrders.trans {a b c : ScheduledDepthSimulator} (h₁ : SameOrders a b)
    (h₂ : SameOrders b c) : SameOrders a c :=
  ⟨h₂.configs.trans h₁.configs, h₂.tradingStates.trans h₁.tradingStates, h₂.orders.trans h₁.orders,
    h₂.clientOrders.trans h₁.clientOrders, h₂.sequence.trans h₁.sequence⟩

/-- The book of one instrument has given fills; the other books are as they were. -/
def BookGives (instrument : InstrumentId) (side : OrderSide) (fills : List LevelFill)
    (s s' : ScheduledDepthSimulator) :
    Prop :=
  ∃ book book', s.books[instrument]? = some book ∧ s'.books[instrument]? = some book' ∧
  Consumes side fills book book' ∧
    ∀ other, other ≠ instrument → s'.books[other]? = s.books[other]?

theorem BookGives.cons {instrument : InstrumentId} {side : OrderSide} {fill : LevelFill}
    {fills : List LevelFill}
    {a b c : ScheduledDepthSimulator} (h₁ : BookGives instrument side [fill] a b)
    (h₂ : BookGives instrument side fills b c) : BookGives instrument side (fill :: fills) a c := by
  obtain ⟨book, mid, hbook, hmid, hconsumed, hother⟩ := h₁
  obtain ⟨mid', book', hmid', hbook', hconsumed', hother'⟩ := h₂
  obtain rfl : mid = mid' := Option.some_inj.1 (hmid.symm.trans hmid')
  exact ⟨book, book', hbook, hbook', hconsumed.cons hconsumed', fun other h =>
    (hother' other h).trans (hother other h)⟩

/-- The feedback of a fill carries the order, its instrument and side, and the level and quantity
taken. -/
def Reports (order : ScheduledOrder) (fill : LevelFill) (feedback : ExecutionFillFeedback) : Prop :=
  feedback.orderId = order.id ∧ feedback.instrument = order.request.intent.instrument ∧
    feedback.side = order.request.intent.side ∧ feedback.levelIndex = fill.levelIndex ∧
    feedback.quantity = fill.quantity

/-- A recorded sweep. -/
structure Records (order : ScheduledOrder) (fills : List LevelFill) (s s' : ScheduledDepthSimulator)
    (records : List FillRecord) (feedbacks : List ExecutionFillFeedback) : Prop where
  same : SameOrders s s'
  recorded : s'.fills = s.fills ++ records
  reported : s'.executionFills = s.executionFills ++ feedbacks
  owned : ∀ record ∈ records, record.orderId = order.id
  total : recordTotal records = filledTotal fills
  reports : List.Forall₂ (Reports order) fills feedbacks
  book : BookGives order.request.intent.instrument order.request.intent.side fills s s'

/-- A recorded sweep leaves the fills as they were exactly when it takes nothing. -/
theorem Records.nothing_iff {fills : List LevelFill} {s s' : ScheduledDepthSimulator}
    {records : List FillRecord}
    {feedbacks : List ExecutionFillFeedback} (h : Records order fills s s' records feedbacks) :
    s'.fills = s.fills ↔ fills = [] := by
  rw [h.recorded, List.append_right_eq_self, ← recordTotal_eq_zero, h.total, filledTotal_eq_zero]

theorem consumeLevel_ok {instrument : InstrumentId} {side : OrderSide} {fill : LevelFill}
    {rest : List LevelFill} {s : ScheduledDepthSimulator} {book : VisibleBookState}
    (hbook : s.books[instrument]? = some book) (hafford : Affords book side (fill :: rest)) :
    ∃ s', consumeLevel instrument side fill s = .ok () s' ∧ BookGives instrument side [fill] s s' ∧
      s'.configs = s.configs ∧ s'.tradingStates = s.tradingStates ∧ s'.orders = s.orders ∧
      s'.clientOrders = s.clientOrders ∧ s'.nextAcceptanceSequence = s.nextAcceptanceSequence ∧
      s'.fills = s.fills ∧ s'.executionFills = s.executionFills := by
  obtain ⟨hone, hdepth, hlevels⟩ := (List.forall_mem_cons.1 hafford.located).1
  have hindex : fill.levelIndex - 1 < bookDepth := by omega
  obtain ⟨level, hlevel⟩ : ∃ level,
      (book.evidence.book.opposite side).levels[fill.levelIndex - 1]? = some level :=
    ⟨_, List.getElem?_eq_getElem (by omega)⟩
  have hroom := hafford.available _ level hlevel
  rw [takenAt_cons, Nat.sub_add_cancel hone, if_pos rfl] at hroom
  set amount := (book.consumed side)[fill.levelIndex - 1] with hamountDef
  have hsome : (book.consumed side)[fill.levelIndex - 1]? = some amount := by
    rw [Vector.getElem?_eq_getElem hindex]
  have hamount : consumedAt (book.consumed side) (fill.levelIndex - 1) = amount.val := by
    simp [consumedAt, hamountDef, hindex]
  have hlt := level.displayedQuantity.value.lt
  obtain ⟨next, hnext⟩ : ∃ next, amount.checkedAdd fill.quantity.value = some next :=
    ⟨⟨amount.val + fill.quantity.value.val, by omega⟩, by rw [Unsigned.checkedAdd_eq_some]⟩
  have hnextVal := (Unsigned.checkedAdd_eq_some _ _ _).1 hnext
  set book' := book.setConsumed side
    ((book.consumed side).setIfInBounds (fill.levelIndex - 1) next) with hbook'
  refine ⟨{ s with books := s.books.insert instrument book' }, ?_, ?_, rfl, rfl, rfl, rfl,
    rfl, rfl, rfl⟩
  · simp only [consumeLevel, bind_ok, get_ok, lift_ok, okOr_eq_ok, set_ok]
    exact ⟨s, s, ⟨rfl, rfl⟩, book, s, ⟨hbook, rfl⟩, amount, s, ⟨hsome, rfl⟩, next, s,
      ⟨hnext, rfl⟩, rfl⟩
  · refine ⟨book, book',
      hbook, by simp, ⟨?_, fun k hk => ?_, fun side' hside => ?_⟩, fun other hother => ?_⟩
    · cases side <;> rfl
    · have hconsumed : book'.consumed side =
          (book.consumed side).setIfInBounds (fill.levelIndex - 1) next := by
        cases side <;> rfl
      rw [hconsumed, consumedAt_setIfInBounds _ _ _ hindex, takenAt_cons, takenAt_nil]
      by_cases hk' : k = fill.levelIndex - 1
      · subst hk'
        rw [if_pos rfl, if_pos (by omega), hnextVal, hamount, add_zero]
      · rw [if_neg hk', if_neg (by omega), add_zero, add_zero]
    · cases side <;> cases side' <;> first | rfl | exact absurd rfl hside
    · simp only [Std.ExtTreeMap.getElem?_insert]
      rw [if_neg fun hcmp => hother (Std.LawfulEqCmp.eq_of_compare hcmp).symm]

theorem remainingQuantity_unit {quantity remaining : Quantity} {filled : U64}
    (h : remainingQuantity quantity filled = some remaining) : remaining.unit = quantity.unit := by
  unfold remainingQuantity at h
  cases hnew : Quantity.new (quantity.value.wrappingSub filled) quantity.unit with
  | error e =>
    rw [hnew] at h
    cases h
  | ok q =>
    rw [hnew] at h
    cases h
    exact ((Quantity.new_eq_ok _ _ _).1 hnew).2.symm

/-- The feedback check only ever fails on the time of the fill. -/
theorem fillFeedback_validate (order : ScheduledOrder) (fillId : FillId) (time : MatchTime)
    {levelIndex : ℕ} (price : Price) {quantity cumulative : Quantity} {remaining : Option Quantity}
    (hlevel : 1 ≤ levelIndex ∧ levelIndex ≤ 5) (hunit : quantity.unit = cumulative.unit)
    (hremaining : ∀ r ∈ remaining, r.unit = quantity.unit)
    (hle : quantity.value.val ≤ cumulative.value.val) :
    ExecutionFillFeedback.new
      (fillFeedback order fillId time levelIndex price quantity cumulative remaining) =
      if order.request.activateAt ≤ time then
        .ok (fillFeedback order fillId time levelIndex price quantity cumulative remaining)
      else .error .fillBeforeActivation := by
  simp only [ExecutionFillFeedback.new, ExecutionFillFeedback.validate, fillFeedback, ensure,
    hlevel, hunit, hle, and_self, if_true]
  by_cases htime : order.request.activateAt ≤ time
  · rw [hunit] at hremaining
    simp only [htime, if_true, true_and]
    rw [if_pos hremaining]
    rfl
  · simp only [htime, if_false]
    rfl

/-- The state one level leaves behind, and what came of it. -/
theorem recordLevelFill_outcome (controlSequence : U64) (time : MatchTime) {fill : LevelFill}
    {rest : List LevelFill} {cumulative : U64} {s : ScheduledDepthSimulator}
    {book : VisibleBookState} (hbook : s.books[order.request.intent.instrument]? = some book)
    (hafford : Affords book order.request.intent.side (fill :: rest))
    (hunit : fill.quantity.unit = order.request.intent.quantity.unit)
    (hroom : cumulative.val + fill.quantity.value.val ≤ order.request.intent.quantity.value.val) :
    ∃ m record, record.orderId = order.id ∧ record.quantity = fill.quantity ∧ SameOrders s m ∧
      BookGives order.request.intent.instrument order.request.intent.side [fill] s m ∧
      m.fills = s.fills ++ [record] ∧ m.executionFills = s.executionFills ∧
      (order.request.activateAt ≤ time →
        ∃ next feedback, next.val = cumulative.val + fill.quantity.value.val ∧
        Reports order fill feedback ∧
        recordLevelFill hash order controlSequence time fill cumulative s =
          .ok (next, feedback) { m with executionFills := m.executionFills ++ [feedback] }) ∧
      (time < order.request.activateAt →
        recordLevelFill hash order controlSequence time fill cumulative s =
        .error (.fillFeedback .fillBeforeActivation) m) := by
  obtain ⟨m, hm, hgives, hconfigs, hstates, horders, hclients, hsequence, hfills, hexecution⟩ :=
    consumeLevel_ok hbook hafford
  obtain ⟨hone, hdepth, -⟩ := (List.forall_mem_cons.1 hafford.located).1
  have hlt := order.request.intent.quantity.value.lt
  have hpos := fill.quantity.pos
  obtain ⟨next, hnext⟩ : ∃ next, cumulative.checkedAdd fill.quantity.value = some next :=
    ⟨⟨cumulative.val + fill.quantity.value.val, by omega⟩, by rw [Unsigned.checkedAdd_eq_some]⟩
  have hnextVal := (Unsigned.checkedAdd_eq_some _ _ _).1 hnext
  have hquantity : Quantity.new next order.request.intent.quantity.unit =
      .ok ⟨next, order.request.intent.quantity.unit, by omega⟩ := by
    rw [Quantity.new_eq_ok]
    exact ⟨rfl, rfl⟩
  set record :=
    FillRecord.fromControl order.id controlSequence time order.request.intent.side fill.price
      fill.quantity
  set feedback := fillFeedback order
    (fillId hash order.id controlSequence fill.levelIndex) time fill.levelIndex fill.price
    fill.quantity ⟨next, order.request.intent.quantity.unit, by omega⟩
    (remainingQuantity order.request.intent.quantity next) with hfeedback
  have hremaining : ∀ r ∈ remainingQuantity order.request.intent.quantity next,
      r.unit = fill.quantity.unit :=
    fun r hr => (remainingQuantity_unit hr).trans hunit.symm
  have hvalid := fillFeedback_validate order
    (fillId hash order.id controlSequence fill.levelIndex) time fill.price
    ⟨hone, hdepth⟩
    (show fill.quantity.unit =
      (Quantity.mk next order.request.intent.quantity.unit (by omega)).unit from hunit)
    hremaining (by simp only []; omega)
  refine ⟨{ m with fills := m.fills ++ [record] }, record, rfl, rfl,
    ⟨hconfigs, hstates, horders, hclients, hsequence⟩, hgives,
    by rw [hfills], hexecution, fun htime => ?_, fun htime => ?_⟩
  · refine ⟨next, feedback, hnextVal, ⟨rfl, rfl, rfl, rfl, rfl⟩, ?_⟩
    rw [if_pos htime] at hvalid
    simp only [recordLevelFill, bind_ok, lift_ok, okOr_eq_ok, modify_ok, mapError_eq_ok, pure_ok]
    exact ⟨(), m, hm, next, m, ⟨hnext, rfl⟩, _, m, ⟨hquantity, rfl⟩, (), _, rfl, feedback, _,
      ⟨hvalid, rfl⟩, (), _, rfl, rfl, rfl⟩
  · rw [if_neg (not_le.2 htime)] at hvalid
    simp only [recordLevelFill, bind_error, lift_error, lift_ok, okOr_eq_ok, modify_ok,
      mapError_eq_ok, mapError_eq_error]
    exact .inr
      ⟨(), m, hm, .inr ⟨next, m, ⟨hnext, rfl⟩, .inr ⟨_, m, ⟨hquantity, rfl⟩, .inr ⟨(), _, rfl,
      .inl ⟨⟨_, hvalid, rfl⟩, rfl⟩⟩⟩⟩⟩

theorem BookGives.nothing {instrument : InstrumentId} {side : OrderSide}
    {s : ScheduledDepthSimulator} {book : VisibleBookState} (h : s.books[instrument]? = some book) :
    BookGives instrument side [] s s :=
  ⟨book, book, h, h, Consumes.refl side book, fun _ _ => rfl⟩

/-- A sweep that is recorded in time is recorded completely. -/
theorem recordSweep_ok (controlSequence : U64) {fills : List LevelFill} {cumulative : U64}
    {s : ScheduledDepthSimulator} {book : VisibleBookState}
    (hbook : s.books[order.request.intent.instrument]? = some book)
    (hafford : Affords book order.request.intent.side fills)
    (hunit : ∀ fill ∈ fills, fill.quantity.unit = order.request.intent.quantity.unit)
    (hroom : cumulative.val + filledTotal fills ≤ order.request.intent.quantity.value.val)
    (htime : fills ≠ [] → order.request.activateAt ≤ time) :
    ∃ s' total records feedbacks, total.val = cumulative.val + filledTotal fills ∧
      Records order fills s s' records feedbacks ∧
      recordSweep hash order controlSequence time fills cumulative s =
        .ok (total, feedbacks) s' := by
  induction fills generalizing cumulative s book with
  | nil =>
    exact ⟨s, cumulative, [],
      [], by
        simp, ⟨⟨rfl, rfl, rfl, rfl, rfl⟩, by simp, by simp, by simp, rfl, .nil, .nothing hbook⟩,
      rfl⟩
  | cons fill rest ih =>
    rw [filledTotal_cons] at hroom
    obtain ⟨hunitFill, hunitRest⟩ := List.forall_mem_cons.1 hunit
    have hroomFill : cumulative.val + fill.quantity.value.val ≤
        order.request.intent.quantity.value.val := by omega
    obtain ⟨m, record, howner, hquantity, hsame, hgives, hfills, hexecution, hok, -⟩ :=
      recordLevelFill_outcome hash controlSequence time hbook hafford hunitFill hroomFill
    obtain ⟨next, feedback, hnext, hreport, hrun⟩ := hok (htime (by simp))
    obtain ⟨_, book', hbook', hmid, hconsumes, -⟩ := id hgives
    obtain rfl : book = _ := Option.some_inj.1 (hbook.symm.trans hbook')
    obtain ⟨s', total, records, feedbacks, htotal, hrecords, hrest⟩ :=
      @ih next { m with executionFills := m.executionFills ++ [feedback] } book' hmid
        (hafford.rest hconsumes) hunitRest
        (by omega) fun _ => htime (by simp)
    refine ⟨s', total, record :: records, feedback :: feedbacks, ?_, ?_, ?_⟩
    · rw [htotal, hnext, filledTotal_cons]
      omega
    · refine ⟨hsame.trans ⟨hrecords.same.configs, hrecords.same.tradingStates, hrecords.same.orders,
        hrecords.same.clientOrders, hrecords.same.sequence⟩, ?_, ?_, ?_, ?_,
        .cons hreport hrecords.reports, hgives.cons hrecords.book⟩
      · rw [hrecords.recorded, hfills, List.append_assoc, List.singleton_append]
      · rw [hrecords.reported, hexecution, List.append_assoc, List.singleton_append]
      · exact List.forall_mem_cons.2 ⟨howner, hrecords.owned⟩
      · have htail := hrecords.total
        simp only [recordTotal, List.map_cons, List.sum_cons, hquantity, filledTotal_cons]
          at htail ⊢
        omega
    · simp only [recordSweep, bind_ok, pure_ok]
      exact ⟨(next, feedback), _, hrun, (total, feedbacks), s', hrest, rfl, rfl⟩

/-- A sweep that is recorded too early writes its first level and fails. -/
theorem recordSweep_early (controlSequence : U64) {fill : LevelFill} {rest : List LevelFill}
    {cumulative : U64} {s : ScheduledDepthSimulator}
    {book : VisibleBookState} (hbook : s.books[order.request.intent.instrument]? = some book)
    (hafford : Affords book order.request.intent.side (fill :: rest))
    (hunit : fill.quantity.unit = order.request.intent.quantity.unit)
    (hroom : cumulative.val + fill.quantity.value.val ≤ order.request.intent.quantity.value.val)
    (htime : time < order.request.activateAt) :
    ∃ m record, SameOrders s m ∧
    BookGives order.request.intent.instrument order.request.intent.side [fill] s m ∧
      m.fills = s.fills ++ [record] ∧
      recordSweep hash order controlSequence time (fill :: rest) cumulative s =
        .error (.fillFeedback .fillBeforeActivation) m := by
  obtain ⟨m, record, -, -, hsame, hgives, hfills, -, -, herror⟩ :=
    recordLevelFill_outcome hash controlSequence time hbook hafford hunit hroom
  refine ⟨m, record, hsame, hgives, hfills, ?_⟩
  simp only [recordSweep, bind_error]
  exact .inl (herror htime)

end Record

end Osmium
