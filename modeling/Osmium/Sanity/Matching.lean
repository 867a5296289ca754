import Osmium.Sanity.Lifecycle

/-! What the matching operations of the scheduled simulator do in a sound state: activation and
auction matching either change nothing and fail, or make moves and succeed; a passive match that
comes before an order's activation is the one that fails with its first level already taken. -/

namespace Osmium
open Machine Bytes Result Stateful ScheduledDepthSimulator

structure Sound (s : ScheduledDepthSimulator) : Prop where
  wired : Wired s
  within : BooksWithin s

/-- The refusal of a sweep that finds more consumed than displayed. -/
def ScheduledSimulationError.overconsumed : ScheduledSimulationError → Bool
  | .depthSweep (.consumedQuantityExceedsDisplayed _) => true
  | _ => false

section Sweeps
variable {s s' : ScheduledDepthSimulator}

theorem remainingQuantity_some (quantity : Quantity) (filled : U64)
    (h : filled.val < quantity.value.val) :
    ∃ remaining, remainingQuantity quantity filled = some remaining ∧
      remaining.value.val = quantity.value.val - filled.val ∧ remaining.unit = quantity.unit := by
  have hval := Unsigned.val_wrappingSub quantity.value filled h.le
  set remaining : Quantity :=
    ⟨quantity.value.wrappingSub filled, quantity.unit, by omega⟩ with hremaining
  have hnew : Quantity.new (quantity.value.wrappingSub filled) quantity.unit = .ok remaining := by
    rw [Quantity.new_eq_ok]
    exact ⟨rfl, rfl⟩
  refine ⟨remaining, ?_, hval, rfl⟩
  rw [remainingQuantity, hnew]
  rfl

theorem remainingQuantity_none {quantity : Quantity} {filled : U64}
    (h : filled.val = quantity.value.val) :
    remainingQuantity quantity filled = none := by
  have hval := Unsigned.val_wrappingSub quantity.value filled h.le
  unfold remainingQuantity Quantity.new
  rw [dif_pos (by omega)]
  rfl

theorem visibleBook_eq_some {instrument : InstrumentId} {time : MatchTime} {book : VisibleBookState}
    (h : s.visibleBook instrument time = some book) :
    s.books[instrument]? = some book ∧ book.evidence.visibleAt ≤ time := by
  unfold visibleBook at h
  rw [Option.filter_eq_some_iff] at h
  exact ⟨h.1, by simpa using h.2⟩

/-- A sweep of a book that is within bounds: what the book affords, and no more than was asked. -/
structure SweepFits (book : VisibleBookState) (request : ScheduledOrderRequest)
    (requested : Quantity) (sweep : DepthSweepResult) : Prop where
  asked : sweep.requested = requested
  affords : Affords book request.intent.side sweep.fills
  unit : ∀ fill ∈ sweep.fills, fill.quantity.unit = requested.unit
  filled : sweep.filledValue.val = filledTotal sweep.fills
  total : filledTotal sweep.fills ≤ requested.value.val

theorem sweepBook_ok {profile : InstrumentProfile} {book : VisibleBookState}
    {request : ScheduledOrderRequest}
    {requested : Quantity} {sweep : DepthSweepResult} (hbook : book.Within)
    (h : sweepBook profile book request requested = .ok sweep) :
    SweepFits book request requested sweep := by
  simp only [sweepBook, bind_eq_ok, mapError_eq_ok, ensure_eq_ok, pure_eq_ok] at h
  obtain ⟨_, hsweep, -, -, rfl⟩ := h
  have hs := sweepMarketableDepthWithConsumed_ok (hbook request.intent.side) hsweep
  exact ⟨hs.asked, ⟨hs.located, hs.available⟩, hs.unit, hs.filled, hs.total⟩

theorem SweepFits.isComplete_iff {book : VisibleBookState} {request : ScheduledOrderRequest}
    {requested : Quantity} {sweep : DepthSweepResult} (h : SweepFits book request requested sweep) :
    sweep.isComplete = true ↔ filledTotal sweep.fills = requested.value.val := by
  rw [DepthSweepResult.isComplete, decide_eq_true_eq, ← h.filled, h.asked]
  exact ⟨fun heq => by rw [heq], Unsigned.ext⟩

theorem sweepBook_error {profile : InstrumentProfile} {book : VisibleBookState}
    {request : ScheduledOrderRequest}
    {requested : Quantity} {e : ScheduledSimulationError} (hbook : book.Within)
    (h : sweepBook profile book request requested = .error e) : e.overconsumed = false := by
  simp only [sweepBook, bind_eq_error, mapError_eq_error, ensure_eq_error, pure_eq_error, and_false,
    exists_false, or_false] at h
  rcases h with ⟨inner, hsweep, rfl⟩ | ⟨_, -, -, rfl⟩
  · have hne := sweepMarketableDepthWithConsumed_error (hbook request.intent.side) hsweep
    cases inner <;> first | rfl | exact absurd rfl (hne _)
  · rfl

theorem isStale_failsIn (model : ScheduledDepthModel) (book : VisibleBookState) (time : MatchTime) :
    Result.FailsIn (fun e => e.overconsumed = false) (isStale model book time) := by
  refine FailsIn.bind (FailsIn.okOr (by rfl)) fun _ => ?_
  refine FailsIn.bind (FailsIn.okOr (by rfl)) fun _ => ?_
  exact FailsIn.pure _

theorem depthAtActivation_error {request : ScheduledOrderRequest} {time : MatchTime}
    {e : ScheduledSimulationError}
    (hs : BooksWithin s) (h : s.depthAtActivation request time = .error e) :
    e.overconsumed = false := by
  simp only [depthAtActivation, bind_eq_error, okOr_eq_error] at h
  rcases h with ⟨-, rfl⟩ | ⟨profile, -, h⟩
  · rfl
  cases hbook : s.visibleBook request.intent.instrument time with
  | none =>
    rw [hbook] at h
    cases h
  | some book =>
    rw [hbook] at h
    rcases (bind_eq_error _ _ _).1 h with hstale | ⟨stale, -, h⟩
    · exact isStale_failsIn _ _ _ e hstale
    split_ifs at h
    · cases h
    · cases h
    · cases h
    · simp only [bind_eq_error, pure_eq_error, and_false, exists_false, or_false] at h
      exact sweepBook_error (hs _ _ (visibleBook_eq_some hbook).1) h

theorem passiveSweep_error {order : ScheduledOrder} {time : MatchTime}
    {e : ScheduledSimulationError}
    (hs : BooksWithin s) (h : s.passiveSweep order time = .error e) : e.overconsumed = false := by
  simp only [passiveSweep, bind_eq_error, okOr_eq_error] at h
  rcases h with ⟨-, rfl⟩ | ⟨profile, -, h⟩
  · rfl
  cases hbook : s.visibleBook order.request.intent.instrument time with
  | none =>
    rw [hbook] at h
    cases h
  | some book =>
    rw [hbook] at h
    rcases (bind_eq_error _ _ _).1 h with hstale | ⟨stale, -, h⟩
    · exact isStale_failsIn _ _ _ e hstale
    split_ifs at h
    · cases h
    · simp only [bind_eq_error, okOr_eq_error, pure_eq_error, and_false, exists_false, or_false]
        at h
      rcases h with ⟨-, rfl⟩ | ⟨_, -, h⟩
      · rfl
      · exact sweepBook_error (hs _ _ (visibleBook_eq_some hbook).1) h

/-- What an activation that sweeps has found. -/
theorem depthAtActivation_sweep {request : ScheduledOrderRequest} {time : MatchTime}
    {sweep : DepthSweepResult}
    (hs : BooksWithin s) (h : s.depthAtActivation request time = .ok (.sweep sweep)) :
    ∃ book, s.books[request.intent.instrument]? = some book ∧ book.evidence.visibleAt ≤ time ∧
      SweepFits book request request.intent.quantity sweep := by
  simp only [depthAtActivation, bind_eq_ok, okOr_eq_ok] at h
  obtain ⟨profile, -, h⟩ := h
  cases hbook : s.visibleBook request.intent.instrument time with
  | none =>
    rw [hbook] at h
    cases h
  | some book =>
    obtain ⟨hfound, hvisible⟩ := visibleBook_eq_some hbook
    rw [hbook] at h
    simp only [bind_eq_ok] at h
    obtain ⟨stale, -, h⟩ := h
    by_cases hstale : stale = true
    · rw [if_pos hstale] at h
      cases h
    rw [if_neg hstale] at h
    split_ifs at h with hmatching hentry
    · cases h
    · cases h
    · simp only [bind_eq_ok, pure_eq_ok, DepthDecision.sweep.injEq] at h
      obtain ⟨_, hsweep, rfl⟩ := h
      exact ⟨book, hfound, hvisible, sweepBook_ok (hs _ _ hfound) hsweep⟩

theorem passiveSweep_some {order : ScheduledOrder} {time : MatchTime} {sweep : DepthSweepResult}
    (hs : BooksWithin s)
    (hunfilled : order.filledValue.val = 0) (h : s.passiveSweep order time = .ok (some sweep)) :
    ∃ book requested, s.books[order.request.intent.instrument]? = some book ∧
    book.evidence.visibleAt ≤ time ∧
      requested.value.val = order.request.intent.quantity.value.val ∧
      requested.unit = order.request.intent.quantity.unit ∧
      SweepFits book order.request requested sweep := by
  simp only [passiveSweep, bind_eq_ok, okOr_eq_ok] at h
  obtain ⟨profile, -, h⟩ := h
  cases hbook : s.visibleBook order.request.intent.instrument time with
  | none =>
    rw [hbook] at h
    cases h
  | some book =>
    obtain ⟨hfound, hvisible⟩ := visibleBook_eq_some hbook
    rw [hbook] at h
    simp only [bind_eq_ok] at h
    obtain ⟨stale, -, h⟩ := h
    split_ifs at h with hidle
    · cases h
    · simp only [bind_eq_ok, okOr_eq_ok, pure_eq_ok, Option.some.injEq] at h
      obtain ⟨requested, hrequested, _, hsweep, rfl⟩ := h
      obtain ⟨remaining, hremaining, hval, hunit⟩ :=
        remainingQuantity_some order.request.intent.quantity
        order.filledValue (by rw [hunfilled]; exact order.request.intent.quantity.pos)
      obtain rfl : requested = remaining := Option.some_inj.1 (hrequested.symm.trans hremaining)
      exact ⟨book, requested, hfound,
        hvisible, by omega, hunit, sweepBook_ok (hs _ _ hfound) hsweep⟩

theorem BookGives.within {instrument : InstrumentId} {side : OrderSide} {fills : List LevelFill}
    {book : VisibleBookState} (h : BookGives instrument side fills s s') (hs : BooksWithin s)
    (hbook : s.books[instrument]? = some book)
    (hafford : Affords book side fills) : BooksWithin s' := by
  obtain ⟨before, after, hbefore, hafter, hconsumes, hother⟩ := h
  obtain rfl : book = before := Option.some_inj.1 (hbook.symm.trans hbefore)
  intro i b hb
  by_cases hi : i = instrument
  · subst hi
    obtain rfl : after = b := Option.some_inj.1 (hafter.symm.trans hb)
    exact hconsumes.within (hs _ _ hbook) hafford
  · rw [hother i hi] at hb
    exact hs i b hb

end Sweeps

section Activation
variable (hash : List UInt8 → Digest) {s s' : ScheduledDepthSimulator}
  {order : ScheduledOrder} {index : ℕ}
  {time : MatchTime}

/-- Reported depth fills, and what they took from the book. -/
def Takes (order : ScheduledOrder) (feedbacks : List ExecutionFillFeedback)
    (s s' : ScheduledDepthSimulator) : Prop :=
  (feedbacks = [] ∧ s'.books = s.books) ∨ ∃ fills, List.Forall₂ (Reports order) fills feedbacks ∧
    BookGives order.request.intent.instrument order.request.intent.side fills s s'

theorem failActivation_eq (s : ScheduledDepthSimulator) (index : ℕ) (order : ScheduledOrder)
    (reason : ExecutionFailureReason) (fills : List ExecutionFillFeedback)
    (h : order.filledValue.val < order.request.intent.quantity.value.val) :
    ∃ activation, activation.executionFills = fills ∧ failActivation order index reason fills s =
      .ok activation (s.setOrder index { order with status := .failed reason }) := by
  obtain ⟨remaining, hremaining, -⟩ :=
    remainingQuantity_some order.request.intent.quantity order.filledValue h
  refine ⟨⟨order.id, .failed reason, .executionFailed order.id reason
    (Quantity.new order.filledValue order.request.intent.quantity.unit).toOption remaining, fills⟩,
    rfl, ?_⟩
  simp only [failActivation, bind_ok, modify_ok, lift_ok, okOr_eq_ok, pure_ok]
  exact ⟨(), _, rfl, remaining, _, ⟨hremaining, rfl⟩, rfl, rfl⟩

/-- A complete fill in time is one move, and takes nothing from any book. -/
theorem fillCompletely_ok (record : FillRecord) (fillId : FillId) (price : Price)
    (found : s.orders[index]? = some order) (hu : order.Untouched)
    (htime : order.request.activateAt ≤ record.matchTime) (howner : record.orderId = order.id)
    (hquantity : record.quantity = order.request.intent.quantity) :
    ∃ activation s', fillCompletely order index record fillId price s = .ok activation s' ∧
    Shift s s' ∧
      s'.books = s.books ∧ ∀ i, i ≠ index → s'.orders[i]? = s.orders[i]? := by
  set quantity := order.request.intent.quantity with hq
  set feedback := fillFeedback order fillId record.matchTime 1 price quantity quantity none
  have hvalid : ExecutionFillFeedback.new feedback = .ok feedback := by
    have := fillFeedback_validate order fillId record.matchTime price (show 1 ≤ 1 ∧ 1 ≤ 5 by omega)
      (rfl : quantity.unit = quantity.unit)
      (by simp : ∀ r ∈ (none : Option Quantity), r.unit = quantity.unit) le_rfl
    rwa [if_pos htime] at this
  set filled : ScheduledOrder := { order with filledValue := quantity.value, status := .filled }
  refine ⟨⟨order.id, .filled, .filled order.id quantity, [feedback]⟩, { s with
    fills := s.fills ++ [record]
    executionFills := s.executionFills ++ [feedback]
    orders := s.orders.set index filled }, ?_,
    .move index order filled [record] found
      ⟨rfl, rfl, ?_, by simpa using howner, by simp [filled], .inr ⟨hu, ?_, ?_, ?_, ?_⟩⟩
      rfl rfl rfl rfl, rfl, fun i hi => List.getElem?_set_ne (Ne.symm hi)⟩
  · simp only [fillCompletely, bind_ok, modify_ok, lift_ok, mapError_eq_ok, pure_ok]
    exact ⟨(), _, rfl, feedback, _, ⟨hvalid, rfl⟩, (), _, rfl, (), _, rfl, rfl, rfl⟩
  · rcases hu with h | h <;> rw [h] <;> rfl
  · simp [filled, recordTotal, hquantity]
  · simp [recordTotal, hquantity, hq]
  · simp [filled, recordTotal, hquantity, hq]
  · simp [filled]

/-- The move of an untouched order whose sweep was recorded. -/
theorem Shift.swept {m : ScheduledDepthSimulator} {fills : List LevelFill}
    {records : List FillRecord}
    {feedbacks : List ExecutionFillFeedback} {total : U64} (status : ScheduledOrderStatus)
    (found : s.orders[index]? = some order) (hu : order.Untouched)
    (hrecords : Records order fills s m records feedbacks) (htotal : total.val = filledTotal fills)
    (hle : filledTotal fills ≤ order.request.intent.quantity.value.val)
    (hstatus : status = .filled ↔ filledTotal fills = order.request.intent.quantity.value.val)
    (hscheduled : status ≠ .scheduled) (hactive : status ≠ .active) :
    Shift s (m.setOrder index { order with filledValue := total, status := status }) := by
  refine .move index order { order with filledValue := total, status := status } records found
    ⟨rfl, rfl, ?_, hrecords.owned, hscheduled, .inr ⟨hu, ?_, ?_, ?_, hactive⟩⟩ ?_
      hrecords.same.clientOrders
    hrecords.recorded hrecords.same.configs
  · rcases hu with h | h <;> rw [h] <;> rfl
  · rw [hrecords.total]
    exact htotal
  · rw [hrecords.total]
    exact hle
  · rw [hrecords.total]
    exact hstatus
  · simp [setOrder, hrecords.same.orders]

theorem setOrder_setOrder (a b : ScheduledOrder) :
    (s.setOrder index a).setOrder index b = s.setOrder index b := by
  simp [setOrder, List.set_set]

/-- An activation that sweeps the book records what it takes and makes one move. -/
theorem activateAgainstDepth_sweep (controlSequence : U64) (hs : Sound s)
    (found : s.orders[index]? = some order)
    (hstatus : order.status = .scheduled) (htime : order.request.activateAt = time)
    {sweep : DepthSweepResult}
    (hdecision : s.depthAtActivation order.request time = .ok (.sweep sweep)) :
    ∃ activation s', activateAgainstDepth hash order index controlSequence time s =
        .ok activation s' ∧ Shift s s' ∧
        BooksWithin s' ∧ Takes order activation.executionFills s s' ∧
        (s'.fills = s.fills ↔ sweep.fills = []) := by
  have hu : order.Untouched := .inl hstatus
  obtain ⟨book, hbook, -, hfits⟩ := depthAtActivation_sweep hs.within hdecision
  have hcumulative : (0 : U64).val + filledTotal sweep.fills ≤
      order.request.intent.quantity.value.val := by
    rw [Unsigned.val_zero, zero_add]
    exact hfits.total
  obtain ⟨m, total, records, feedbacks, htotal, hrecords, hrun⟩ :=
    recordSweep_ok hash controlSequence hbook hfits.affords hfits.unit hcumulative
      fun _ => htime.le
  rw [Unsigned.val_zero, zero_add] at htotal
  have hwithin : BooksWithin m := hrecords.book.within hs.within hbook hfits.affords
  by_cases hcomplete : sweep.isComplete = true
  · have hequal := hfits.isComplete_iff.1 hcomplete
    refine ⟨⟨order.id, .filled, .filled order.id order.request.intent.quantity, feedbacks⟩,
      m.setOrder index { order with filledValue := total, status := .filled }, ?_,
      Shift.swept .filled found hu hrecords htotal hfits.total (by simpa using hequal) (by simp)
        (by simp), hwithin,
      .inr ⟨sweep.fills, hrecords.reports, hrecords.book⟩, hrecords.nothing_iff⟩
    simp only [activateAgainstDepth, bind_ok, get_ok, lift_ok]
    refine ⟨s, s, ⟨rfl, rfl⟩, _, s, ⟨hdecision, rfl⟩, ?_⟩
    simp only [bind_ok, modify_ok]
    refine ⟨(total, feedbacks), m, hrun, (), _, rfl, ?_⟩
    rw [if_pos hcomplete]
    simp only [bind_ok, modify_ok, pure_ok]
    exact ⟨(), _, setOrder_setOrder _ _, trivial, rfl⟩
  · have hless : filledTotal sweep.fills < order.request.intent.quantity.value.val :=
      lt_of_le_of_ne hfits.total fun heq => hcomplete (hfits.isComplete_iff.2 heq)
    set reason : ExecutionFailureReason :=
      if total.val = 0 ∧ order.request.intent.orderType ≠ .market then .priceNotMarketable else
        .insufficientVisibleDepth
    obtain ⟨activation, hfills, hfail⟩ :=
      failActivation_eq (m.setOrder index { order with filledValue := total }) index
      { order with filledValue := total } reason feedbacks (by simp only []; omega)
    refine ⟨activation,
      m.setOrder index { order with filledValue := total, status := .failed reason }, ?_,
      Shift.swept (.failed reason) found hu hrecords htotal hfits.total
        (by simpa using hless.ne) (by simp) (by simp),
      hwithin,
      .inr ⟨sweep.fills, by rw [hfills]; exact hrecords.reports, hrecords.book⟩,
      hrecords.nothing_iff⟩
    simp only [activateAgainstDepth, bind_ok, get_ok, lift_ok]
    refine ⟨s, s, ⟨rfl, rfl⟩, _, s, ⟨hdecision, rfl⟩, ?_⟩
    simp only [bind_ok, modify_ok]
    refine ⟨(total, feedbacks), m, hrun, (), _, rfl, ?_⟩
    rw [if_neg hcomplete]
    rw [setOrder_setOrder] at hfail
    exact hfail

/-- An activation against depth either fails without a trace or makes one move. -/
theorem activateAgainstDepth_outcome (controlSequence : U64) (hs : Sound s)
    (found : s.orders[index]? = some order)
    (hstatus : order.status = .scheduled) (htime : order.request.activateAt = time) :
    (∃ e, activateAgainstDepth hash order index controlSequence time s = .error e s ∧
        s.depthAtActivation order.request time = .error e) ∨
      ∃ activation s', activateAgainstDepth hash order index controlSequence time s =
        .ok activation s' ∧ Shift s s' ∧
        BooksWithin s' ∧ Takes order activation.executionFills s s' ∧ (s'.fills = s.fills ↔
          ∀ sweep, s.depthAtActivation order.request time = .ok (.sweep sweep) →
          sweep.fills = []) := by
  cases hdecision : s.depthAtActivation order.request time with
  | error e =>
    refine .inl ⟨e, ?_, rfl⟩
    simp only [activateAgainstDepth, bind_error, get_ok, get_error, lift_error, false_or]
    exact ⟨s, s, ⟨rfl, rfl⟩, .inl ⟨hdecision, rfl⟩⟩
  | ok decision =>
    right
    cases decision with
    | fail reason =>
      have hunfilled := hs.wired.unfilled order (List.mem_of_getElem? found) (.inl hstatus)
      have hpos := order.request.intent.quantity.pos
      have hlive : order.status.isTerminal = false := by rw [hstatus]; rfl
      obtain ⟨activation, hfills, hrun⟩ := failActivation_eq s index order reason [] (by omega)
      refine ⟨activation, _, ?_, Shift.status (.failed reason) found hlive (by simp) (by simp)
        (by simp), hs.within, .inl ⟨hfills, rfl⟩, iff_of_true rfl fun sweep h => by cases h⟩
      simp only [activateAgainstDepth, bind_ok, get_ok, lift_ok]
      exact ⟨s, s, ⟨rfl, rfl⟩, _, s, ⟨hdecision, rfl⟩, hrun⟩
    | sweep sweep =>
      obtain ⟨activation, s', hrun, hshift, hwithin, htakes, hnothing⟩ :=
        activateAgainstDepth_sweep hash controlSequence hs found hstatus htime hdecision
      refine ⟨activation, s', hrun, hshift, hwithin, htakes, hnothing.trans
        ⟨fun h other hsame => ?_, fun h => h sweep rfl⟩⟩
      cases hsame
      exact h

theorem checkActivation_ok {id : OrderId} (h : s.checkActivation id time = .ok (order, index)) :
    s.locate id = some (order, index) ∧ order.status = .scheduled ∧
    order.request.activateAt = time := by
  simp only [checkActivation, bind_eq_ok, okOr_eq_ok, ensure_eq_ok, pure_eq_ok] at h
  obtain ⟨⟨found, position⟩, hlocate, _, hstatus, _, htime, -, -, heq⟩ := h
  cases heq
  exact ⟨hlocate, hstatus, htime⟩

theorem checkActivation_failsIn (s : ScheduledDepthSimulator) (id : OrderId) (time : MatchTime) :
    Result.FailsIn (fun e => e.overconsumed = false) (s.checkActivation id time) := by
  refine FailsIn.bind (FailsIn.okOr (by rfl)) fun _ => ?_
  refine FailsIn.bind (FailsIn.ensure (by rfl)) fun _ => ?_
  refine FailsIn.bind (FailsIn.ensure (by rfl)) fun _ => ?_
  refine FailsIn.bind (FailsIn.ensure (by rfl)) fun _ => ?_
  exact FailsIn.pure _

/-- What an activation reports as taken from depth, by the policy of the order it finds. -/
def DepthTaken (order : ScheduledOrder) (activation : ScheduledActivation)
    (s s' : ScheduledDepthSimulator) : Prop :=
  if order.request.executionPolicy = .visibleDepthAtActivationV1 then
    Takes order activation.executionFills s s'
  else s'.books = s.books

/-- Activation fails without a trace or makes one move. -/
theorem activate_outcome (hs : Sound s) (id : OrderId) (controlSequence : U64) (time : MatchTime) :
    (∃ e, activate hash id controlSequence time s = .error e s ∧ e.overconsumed = false) ∨
      ∃ activation s' order index, activate hash id controlSequence time s = .ok activation s' ∧
        s.locate id = some (order, index) ∧ Shift s s' ∧ BooksWithin s' ∧
        DepthTaken order activation s s' := by
  cases hcheck : s.checkActivation id time with
  | error e =>
    refine .inl ⟨e, ?_, checkActivation_failsIn s id time e hcheck⟩
    rw [activate, get_bind, lift_bind_error hcheck]
  | ok entry =>
    obtain ⟨order, index⟩ := entry
    obtain ⟨hlocate, hstatus, htime⟩ := checkActivation_ok hcheck
    have found := (locate_eq_some hlocate).1
    have hu : order.Untouched := .inl hstatus
    have hlive : order.status.isTerminal = false := by rw [hstatus]; rfl
    have hunfilled := hs.wired.unfilled order (List.mem_of_getElem? found) hu
    have hpos := order.request.intent.quantity.pos
    rw [activate, get_bind, lift_bind hcheck]
    simp only []
    split_ifs with hblocked
    · obtain ⟨activation, hfills, hfail⟩ :=
        failActivation_eq s index order .newOrderEntryBlocked [] (by omega)
      refine .inr ⟨activation, _, order, index, hfail, hlocate,
        Shift.status (.failed .newOrderEntryBlocked) found hlive (by simp) (by simp) (by simp),
        hs.within, ?_⟩
      unfold DepthTaken
      split_ifs
      · exact .inl ⟨hfills, rfl⟩
      · rfl
    · cases hpolicy : order.request.executionPolicy with
      | visibleDepthUntilExpiryV1 | auctionCrossAtFirstMatchV1 =>
        refine .inr ⟨_, _, order, index, rfl, hlocate,
          Shift.status .active found hlive (by simp) (by simp) fun _ => hstatus, hs.within, ?_⟩
        simp [DepthTaken, hpolicy, setOrder]
      | settlementAtActivationV1 =>
        unfold settleAtActivation
        cases htype : order.request.intent.orderType with
        | market => exact .inl ⟨_, rfl, rfl⟩
        | limit price =>
          obtain ⟨activation, s', hfill, hshift, hbooks, -⟩ := fillCompletely_ok
            (.fromControl order.id controlSequence time order.request.intent.side price
              order.request.intent.quantity)
            (fillId hash order.id controlSequence 1) price found hu htime.le rfl rfl
          refine .inr ⟨activation, s', order, index, hfill, hlocate, hshift, ?_, ?_⟩
          · intro i b hb
            rw [hbooks] at hb
            exact hs.within i b hb
          · simp [DepthTaken, hpolicy, hbooks]
      | visibleDepthAtActivationV1 =>
        rcases activateAgainstDepth_outcome hash controlSequence hs found hstatus htime with
          ⟨e, herror, hdecision⟩ | ⟨activation, s', hok, hshift, hwithin, htakes, -⟩
        · exact .inl ⟨e, herror, depthAtActivation_error hs.within hdecision⟩
        · refine .inr ⟨activation, s', order, index, hok, hlocate, hshift, hwithin, ?_⟩
          simpa [DepthTaken, hpolicy] using htakes

end Activation

section Eligible
variable {s : ScheduledDepthSimulator} {eligible : ScheduledOrder → Bool}

theorem mem_eligibleOrders_iff {index : ℕ} :
    index ∈ s.eligibleOrders eligible ↔
    ∃ order, s.orders[index]? = some order ∧ eligible order = true := by
  simp only [eligibleOrders, List.mem_map, List.mem_insertionSort, List.mem_filter]
  refine ⟨?_, fun ⟨order, found, heligible⟩ =>
    ⟨(order, index), ⟨List.mem_zipIdx_iff_getElem?.2 found, heligible⟩, rfl⟩⟩
  rintro ⟨⟨order, position⟩, ⟨hmem, heligible⟩, rfl⟩
  exact ⟨order, List.mem_zipIdx_iff_getElem?.1 hmem, heligible⟩

theorem mem_eligibleOrders {index : ℕ} (h : index ∈ s.eligibleOrders eligible) :
    ∃ order, s.orders[index]? = some order ∧ eligible order = true :=
  mem_eligibleOrders_iff.1 h

theorem nodup_eligibleOrders : (s.eligibleOrders eligible).Nodup := by
  have hperm :=
    ((s.orders.zipIdx.filter fun entry => eligible entry.1).perm_insertionSort acceptedBefore).map
      Prod.snd
  unfold eligibleOrders
  rw [hperm.nodup_iff]
  apply List.Nodup.sublist (List.Sublist.map Prod.snd List.filter_sublist)
  rw [List.zipIdx_map_snd]
  exact List.nodup_range'

end Eligible

section Passive
variable (hash : List UInt8 → Digest) {s s' : ScheduledDepthSimulator}
  {order : ScheduledOrder} {index : ℕ}

theorem passiveOutcome_ok (total : U64) (hunfilled : order.filledValue.val = 0)
    (hle : total.val ≤ order.request.intent.quantity.value.val) :
    ∃ status feedback, passiveOutcome order (total.wrappingSub order.filledValue)
        (remainingQuantity order.request.intent.quantity total) = .ok (status, feedback) ∧
      (status = .filled ↔ total.val = order.request.intent.quantity.value.val) ∧
      status ≠ .scheduled ∧
      status ≠ .active := by
  have hnow : (total.wrappingSub order.filledValue).val = total.val := by
    rw [Unsigned.val_wrappingSub _ _ (by omega), hunfilled, Nat.sub_zero]
  by_cases hfull : total.val = order.request.intent.quantity.value.val
  · rw [remainingQuantity_none hfull]
    exact ⟨_, _, rfl, by simpa using hfull, by simp, by simp⟩
  · obtain ⟨remaining, hremaining, -⟩ :=
      remainingQuantity_some order.request.intent.quantity total (by omega)
    rw [hremaining]
    by_cases hsome : 0 < (total.wrappingSub order.filledValue).val
    · have hnew :
          Quantity.new (total.wrappingSub order.filledValue) order.request.intent.quantity.unit =
          .ok ⟨total.wrappingSub order.filledValue, order.request.intent.quantity.unit, hsome⟩ := by
        rw [Quantity.new_eq_ok]
        exact ⟨rfl, rfl⟩
      refine ⟨.partiallyFilled, .partiallyFilled order.id
        ⟨_, order.request.intent.quantity.unit, hsome⟩ remaining, ?_, by simpa using hfull, by simp,
        by simp⟩
      simp only [passiveOutcome, hsome, if_true, hnew]
      rfl
    · refine ⟨.matchAttempted, .matchAttempted order.id none remaining,
        ?_, by simpa using hfull, by simp, by simp⟩
      simp only [passiveOutcome, hsome, if_false]

/-- What comes of one passive match: the sweep decides, and a sweep that takes something before the
order's activation is the one that writes and fails. -/
inductive PassiveOutcome (s : ScheduledDepthSimulator) (order : ScheduledOrder) (index : ℕ)
    (time : MatchTime) :
    EStateM.Result ScheduledSimulationError ScheduledDepthSimulator
      (Option ScheduledActivation) → Prop
  | refused (e) (sweep : s.passiveSweep order time = .error e) :
      PassiveOutcome s order index time (.error e s)
  | idle (sweep : s.passiveSweep order time = .ok none) :
      PassiveOutcome s order index time (.ok none s)
  | matched (sweep) (activation) (s') (order')
      (swept : s.passiveSweep order time = .ok (some sweep))
      (shift : Shift s s') (within : BooksWithin s')
      (takes : Takes order activation.executionFills s s')
      (orders : s'.orders = s.orders.set index order') (left : order'.status ≠ .active)
      (recorded : ∃ records, s'.fills = s.fills ++ records ∧
        recordTotal records = filledTotal sweep.fills)
      (same : s'.configs = s.configs ∧ s'.tradingStates = s.tradingStates)
      (quiet : sweep.fills = [] → s'.books = s.books) :
      PassiveOutcome s order index time (.ok (some activation) s')
  | early (sweep) (m) (record) (swept : s.passiveSweep order time = .ok (some sweep))
      (some : sweep.fills ≠ [])
      (before : time < order.request.activateAt) (same : SameOrders s m) (within : BooksWithin m)
      (fills : m.fills = s.fills ++ [record]) :
      PassiveOutcome s order index time (.error (.fillFeedback .fillBeforeActivation) m)

theorem executePassiveOrder_outcome (hs : Sound s) (found : s.orders[index]? = some order)
    (hactive : order.status = .active) (controlSequence : U64) (time : MatchTime) :
    PassiveOutcome s order index time (executePassiveOrder hash index controlSequence time s) := by
  have hu : order.Untouched := .inr hactive
  have hunfilled := hs.wired.unfilled order (List.mem_of_getElem? found) hu
  rw [executePassiveOrder, get_bind, lift_bind ((okOr_eq_ok _ _ _).2 found)]
  cases hsweep : s.passiveSweep order time with
  | error e =>
    rw [lift_bind_error rfl]
    exact .refused e hsweep
  | ok decision =>
    rw [lift_bind rfl]
    cases decision with
    | none => exact .idle hsweep
    | some sweep =>
      obtain ⟨book, requested, hbook, -, hrequested, hunit, hfits⟩ :=
        passiveSweep_some hs.within hunfilled hsweep
      have hunits : ∀ fill ∈ sweep.fills, fill.quantity.unit = order.request.intent.quantity.unit :=
        fun fill hfill => (hfits.unit fill hfill).trans hunit
      have htotal := hfits.total
      rw [hrequested] at htotal
      have hroom : order.filledValue.val + filledTotal sweep.fills ≤
          order.request.intent.quantity.value.val := by omega
      by_cases hearly : sweep.fills ≠ [] ∧ time < order.request.activateAt
      · obtain ⟨hsome, hbefore⟩ := hearly
        obtain ⟨fill, rest, hfills⟩ := List.exists_cons_of_ne_nil hsome
        have hafford := hfits.affords
        rw [hfills, filledTotal_cons] at hroom
        rw [hfills] at hafford hunits
        obtain ⟨m, record, hsame, hgives, hrecorded, hrun⟩ :=
          recordSweep_early hash controlSequence hbook hafford
          (hunits fill List.mem_cons_self)
            (show order.filledValue.val + fill.quantity.value.val ≤ _ by omega) hbefore
        have hone : Affords book order.request.intent.side [fill] := by
          refine ⟨fun f hf => hafford.located f ?_, fun k level hlevel => ?_⟩
          · rw [List.mem_singleton.1 hf]
            exact List.mem_cons_self
          · have := hafford.available k level hlevel
            rw [takenAt_cons] at this ⊢
            rw [takenAt_nil]
            omega
        rw [← hfills] at hrun
        simp only []
        rw [bind_of_error hrun]
        exact .early sweep m record hsweep hsome hbefore hsame
          (hgives.within hs.within hbook hone) hrecorded
      · obtain ⟨m, total, records, feedbacks, hval, hrecords, hrun⟩ :=
          recordSweep_ok hash controlSequence hbook
          hfits.affords hunits hroom fun hsome => not_lt.1 fun hbefore => hearly ⟨hsome, hbefore⟩
        rw [hunfilled, zero_add] at hval
        obtain ⟨status, feedback, hstatus, hfilled, hscheduled, hnotActive⟩ :=
          passiveOutcome_ok total hunfilled (by omega)
        simp only []
        rw [bind_of_ok hrun, modify_bind, lift_bind hstatus, modify_bind, setOrder_setOrder]
        rw [hval] at hfilled
        refine .matched sweep _ _ { order with filledValue := total, status := status } hsweep
          (Shift.swept status found hu hrecords hval htotal hfilled hscheduled hnotActive)
          (hrecords.book.within hs.within hbook hfits.affords)
            (.inr ⟨sweep.fills, hrecords.reports, hrecords.book⟩) ?_
          hnotActive ⟨records, hrecords.recorded, hrecords.total⟩
            ⟨hrecords.same.configs, hrecords.same.tradingStates⟩
          fun hnone => ?_
        · simp [setOrder, hrecords.same.orders]
        · rw [hnone, recordSweep] at hrun
          obtain ⟨-, rfl⟩ := (pure_ok _ _ _ _).1 hrun
          rfl

end Passive

section Taking
variable {s s' : ScheduledDepthSimulator} {order : ScheduledOrder}

/-- The quantity that reported fills took from one level of one side of one instrument's book. -/
def feedbackTaken (feedbacks : List ExecutionFillFeedback) (instrument : InstrumentId)
    (side : OrderSide) (levelIndex : ℕ) : ℕ :=
  ((feedbacks.filter fun f => f.instrument = instrument ∧ f.side = side ∧
    f.levelIndex = levelIndex).map
    fun f => f.quantity.value.val).sum

theorem feedbackTaken_append (a b : List ExecutionFillFeedback) (instrument : InstrumentId)
    (side : OrderSide) (k : ℕ) :
    feedbackTaken (a ++ b) instrument side k =
      feedbackTaken a instrument side k + feedbackTaken b instrument side k := by
  simp [feedbackTaken]

theorem feedbackTaken_reports {fills : List LevelFill} {feedbacks : List ExecutionFillFeedback}
    (h : List.Forall₂ (Reports order) fills feedbacks) (instrument : InstrumentId)
    (side : OrderSide) (k : ℕ) :
    feedbackTaken feedbacks instrument side k =
      if order.request.intent.instrument = instrument ∧
        order.request.intent.side = side then takenAt fills k else 0 := by
  induction h with
  | nil => simp [feedbackTaken]
  | @cons fill feedback fills feedbacks hreport _ ih =>
    obtain ⟨-, hinstrument, hside, hlevel, hquantity⟩ := hreport
    rw [← List.singleton_append, feedbackTaken_append, ih, takenAt_cons]
    simp only [feedbackTaken, List.filter_singleton, hinstrument, hside, hlevel]
    by_cases hsame : order.request.intent.instrument = instrument ∧ order.request.intent.side = side
    · by_cases hk : fill.levelIndex = k <;> simp [hsame, hk, hquantity]
    · have hnone :
          ¬ (order.request.intent.instrument = instrument ∧ order.request.intent.side = side ∧
          fill.levelIndex = k) := fun h => hsame ⟨h.1, h.2.1⟩
      simp [hsame, hnone]

/-- Every book that is published at the end was published before, and its consumption has grown by
exactly the reported fills. -/
def BooksTake (feedbacks : List ExecutionFillFeedback) (s s' : ScheduledDepthSimulator) : Prop :=
  ∀ (instrument : InstrumentId) (book' : VisibleBookState), s'.books[instrument]? = some book' →
    ∃ book, s.books[instrument]? = some book ∧ book'.evidence = book.evidence ∧
    ∀ side, ∀ k < bookDepth,
      consumedAt (book'.consumed side) k =
        consumedAt (book.consumed side) k + feedbackTaken feedbacks instrument side (k + 1)

theorem BooksTake.nothing (h : s'.books = s.books) : BooksTake [] s s' := by
  intro instrument book hbook
  rw [h] at hbook
  exact ⟨book, hbook, rfl, fun _ _ _ => by simp [feedbackTaken]⟩

theorem BooksTake.append {m : ScheduledDepthSimulator} {a b : List ExecutionFillFeedback}
    (h₁ : BooksTake a s m) (h₂ : BooksTake b m s') : BooksTake (a ++ b) s s' := by
  intro instrument book' hbook'
  obtain ⟨mid, hmid, hevidence, htaken⟩ := h₂ instrument book' hbook'
  obtain ⟨book, hbook, hevidence', htaken'⟩ := h₁ instrument mid hmid
  refine ⟨book, hbook, hevidence.trans hevidence', fun side k hk => ?_⟩
  rw [htaken side k hk, htaken' side k hk, feedbackTaken_append, add_assoc]

theorem Takes.booksTake {feedbacks : List ExecutionFillFeedback} (h : Takes order feedbacks s s') :
    BooksTake feedbacks s s' := by
  rcases h with ⟨rfl, hbooks⟩ | ⟨fills, hreports, before, after, hbefore, hafter, hconsumes, hother⟩
  · exact BooksTake.nothing hbooks
  · intro instrument book' hbook'
    by_cases hi : instrument = order.request.intent.instrument
    · subst hi
      obtain rfl : after = book' := Option.some_inj.1 (hafter.symm.trans hbook')
      refine ⟨before, hbefore, hconsumes.evidence, fun side k hk => ?_⟩
      rw [feedbackTaken_reports hreports]
      by_cases hside : order.request.intent.side = side
      · subst hside
        rw [if_pos ⟨rfl, rfl⟩, hconsumes.taken k hk]
      · rw [if_neg fun h => hside h.2, add_zero, hconsumes.other side (Ne.symm hside)]
    · rw [hother instrument hi] at hbook'
      refine ⟨book', hbook', rfl, fun side k _ => ?_⟩
      rw [feedbackTaken_reports hreports, if_neg fun h => hi h.1.symm, add_zero]

end Taking

section PassiveLoop
variable (hash : List UInt8 → Digest)

/-- No order takes a fill before its activation when its turn comes. -/
def OnTime (controlSequence : U64) (time : MatchTime) : List ℕ → ScheduledDepthSimulator → Prop
  | [], _ => True
  | index :: rest, s =>
    (∀ order sweep, s.orders[index]? = some order → s.passiveSweep order time = .ok (some sweep) →
      sweep.fills ≠ [] →
      order.request.activateAt ≤ time) ∧
    ∀ result s', executePassiveOrder hash index controlSequence time s = .ok result s' →
      OnTime controlSequence time rest s'

/-- Orders of one instrument that are still waiting for a passive match. -/
def Waiting (s : ScheduledDepthSimulator) (instrument : InstrumentId) (indices : List ℕ) : Prop :=
  ∀ index ∈ indices, ∃ order, s.orders[index]? = some order ∧ order.status = .active ∧
    order.request.intent.instrument = instrument

theorem Waiting.frame {s s' : ScheduledDepthSimulator} {instrument : InstrumentId}
    {indices : List ℕ} (h : Waiting s instrument indices)
    (hsame : ∀ index ∈ indices, s'.orders[index]? = s.orders[index]?) :
    Waiting s' instrument indices := by
  intro index hindex
  rw [hsame index hindex]
  exact h index hindex

/-- Whether a passive match has a book to match against depends on the instrument alone. -/
theorem passiveSweep_idle {s : ScheduledDepthSimulator} {a b : ScheduledOrder} {time : MatchTime}
    (hinstrument : b.request.intent.instrument = a.request.intent.instrument)
    (h : s.passiveSweep a time = .ok none) :
    s.passiveSweep b time = .ok none := by
  simp only [passiveSweep, bind_eq_ok, okOr_eq_ok] at h ⊢
  rw [hinstrument]
  obtain ⟨profile, hprofile, h⟩ := h
  refine ⟨profile, hprofile, ?_⟩
  cases hbook : s.visibleBook a.request.intent.instrument time with
  | none => rfl
  | some book =>
    rw [hbook] at h
    simp only [bind_eq_ok] at h ⊢
    obtain ⟨stale, hstale, h⟩ := h
    refine ⟨stale, hstale, ?_⟩
    split_ifs at h ⊢ with hidle
    · rfl
    · simp [bind_eq_ok] at h

/-- The run over waiting orders, whatever comes of it. -/
structure PassiveRun (s : ScheduledDepthSimulator) (controlSequence : U64) (time : MatchTime)
    (indices : List ℕ) (r : EStateM.Result ScheduledSimulationError ScheduledDepthSimulator
      (List ScheduledActivation)) : Prop where
  sound : Sound (stateAfter r)
  shifts : OnTime hash controlSequence time indices s → Shifts s (stateAfter r)
  frame : ∀ index, index ∉ indices → (stateAfter r).orders[index]? = s.orders[index]?
  takes : ∀ results s', r = .ok results s' →
      BooksTake (results.flatMap ScheduledActivation.executionFills) s s'
  refuses : ∀ e s', r = .error e s' → e.overconsumed = false

theorem SameOrders.wired {s m : ScheduledDepthSimulator} (h : SameOrders s m)
    (hs : Wired s) : Wired m :=
  ⟨by rw [h.orders, h.configs]; exact hs.configured,
    by rw [h.orders, h.clientOrders]; exact hs.indexed,
    by rw [h.orders]; exact hs.unfilled⟩

theorem executePassiveOrders_outcome {s : ScheduledDepthSimulator} {instrument : InstrumentId}
    {indices : List ℕ}
    (controlSequence : U64) (time : MatchTime) (hs : Sound s) (hnodup : indices.Nodup)
    (hwaiting : Waiting s instrument indices) :
    PassiveRun hash s controlSequence time indices
      (executePassiveOrders hash controlSequence time indices s) := by
  induction indices generalizing s with
  | nil =>
    refine ⟨hs, fun _ => .refl, fun _ _ => rfl, fun results s' h => ?_, nofun⟩
    obtain ⟨rfl, rfl⟩ := (pure_ok _ _ _ _).1 h
    exact BooksTake.nothing rfl
  | cons index rest ih =>
    obtain ⟨hnotin, hrest⟩ := List.nodup_cons.1 hnodup
    obtain ⟨order, found, hactive, hinstrument⟩ := hwaiting index List.mem_cons_self
    have hwaitingRest : Waiting s instrument rest :=
      fun i hi => hwaiting i (List.mem_cons_of_mem _ hi)
    have hstep := executePassiveOrder_outcome hash hs found hactive controlSequence time
    generalize hresult : executePassiveOrder hash index controlSequence time s = r at hstep
    cases hstep with
    | refused e hsweep =>
      rw [executePassiveOrders, bind_of_error hresult]
      refine ⟨hs, fun _ => .refl, fun _ _ => rfl, nofun, fun _ _ h => ?_⟩
      cases h
      exact passiveSweep_error hs.within hsweep
    | early sweep m record hsweep hsome hbefore hsame hwithin hfills =>
      rw [executePassiveOrders, bind_of_error hresult]
      refine ⟨⟨hsame.wired hs.wired, hwithin⟩, fun htime => ?_, fun _ _ => ?_, nofun,
        fun _ _ h => by cases h; rfl⟩
      · exact absurd (htime.1 order sweep found hsweep hsome) (not_le.2 hbefore)
      · simp only [stateAfter]
        rw [hsame.orders]
    | idle hsweep =>
      have hrun := ih hs hrest hwaitingRest
      rw [executePassiveOrders, bind_of_ok hresult]
      generalize hlater : executePassiveOrders hash controlSequence time rest s = later at hrun
      cases later with
      | error e m =>
        rw [bind_of_error hlater]
        exact ⟨hrun.sound, fun htime => hrun.shifts (htime.2 _ _ hresult),
          fun i hi => hrun.frame i fun h => hi (List.mem_cons_of_mem _ h), nofun,
          fun _ _ h => by cases h; exact hrun.refuses _ _ rfl⟩
      | ok results m =>
        rw [bind_of_ok hlater]
        refine ⟨hrun.sound, fun htime => hrun.shifts (htime.2 _ _ hresult),
          fun i hi => hrun.frame i fun h => hi (List.mem_cons_of_mem _ h), fun results' s' h => ?_,
          nofun⟩
        obtain ⟨rfl, rfl⟩ := (pure_ok _ _ _ _).1 h
        exact hrun.takes results m rfl
    | matched sweep activation s₁ order' hsweep hshift hwithin htakes horders hleft =>
      have hframe : ∀ i ∈ rest, s₁.orders[i]? = s.orders[i]? := by
        intro i hi
        rw [horders, List.getElem?_set_ne]
        rintro rfl
        exact hnotin hi
      have hframe' : ∀ i, i ∉ index :: rest → s₁.orders[i]? = s.orders[i]? := by
        intro i hi
        rw [horders, List.getElem?_set_ne]
        rintro rfl
        exact hi List.mem_cons_self
      have hrun := ih ⟨hshift.wired hs.wired, hwithin⟩ hrest (hwaitingRest.frame hframe)
      rw [executePassiveOrders, bind_of_ok hresult]
      generalize hlater : executePassiveOrders hash controlSequence time rest s₁ = later at hrun
      cases later with
      | error e m =>
        rw [bind_of_error hlater]
        exact ⟨hrun.sound, fun htime => .head hshift (hrun.shifts (htime.2 _ _ hresult)),
          fun i hi =>
            (hrun.frame i fun h => hi (List.mem_cons_of_mem _ h)).trans (hframe' i hi), nofun,
          fun _ _ h => by cases h; exact hrun.refuses _ _ rfl⟩
      | ok results m =>
        rw [bind_of_ok hlater]
        refine ⟨hrun.sound, fun htime => .head hshift (hrun.shifts (htime.2 _ _ hresult)),
          fun i hi => (hrun.frame i fun h => hi (List.mem_cons_of_mem _ h)).trans (hframe' i hi),
          fun results' s' h => ?_, nofun⟩
        obtain ⟨rfl, rfl⟩ := (pure_ok _ _ _ _).1 h
        exact htakes.booksTake.append (hrun.takes results m rfl)

/-- When the first order finds no book to match against, none does. -/
theorem executePassiveOrders_idle {s : ScheduledDepthSimulator} {instrument : InstrumentId}
    {indices : List ℕ}
    (controlSequence : U64) {time : MatchTime} (hwaiting : Waiting s instrument indices)
    (hidle : ∀ order : ScheduledOrder, order.request.intent.instrument = instrument →
      s.passiveSweep order time = .ok none) :
    executePassiveOrders hash controlSequence time indices s = .ok [] s := by
  induction indices with
  | nil => rfl
  | cons index rest ih =>
    obtain ⟨order, found, -, hinstrument⟩ := hwaiting index List.mem_cons_self
    have hstep : executePassiveOrder hash index controlSequence time s = .ok none s := by
      rw [executePassiveOrder, get_bind, lift_bind ((okOr_eq_ok _ _ _).2 found),
        lift_bind (hidle order hinstrument)]
      rfl
    rw [executePassiveOrders, bind_of_ok hstep,
      bind_of_ok (ih fun i hi => hwaiting i (List.mem_cons_of_mem _ hi))]
    rfl

/-- A failed run changed nothing exactly when the first order was refused before it was swept. -/
theorem executePassiveOrders_unchanged {s s' : ScheduledDepthSimulator} {instrument : InstrumentId}
    {indices : List ℕ}
    {controlSequence : U64} {time : MatchTime} {e : ScheduledSimulationError} (hs : Sound s)
    (hnodup : indices.Nodup) (hwaiting : Waiting s instrument indices)
    (h : executePassiveOrders hash controlSequence time indices s = .error e s') :
    s' = s ↔ ∃ index order e', indices.head? = some index ∧ s.orders[index]? = some order ∧
      s.passiveSweep order time = .error e' := by
  cases indices with
  | nil => cases h
  | cons index rest =>
    obtain ⟨hnotin, hrest⟩ := List.nodup_cons.1 hnodup
    obtain ⟨order, found, hactive, hinstrument⟩ := hwaiting index List.mem_cons_self
    have hhead : (∃ i o e', (index :: rest).head? = some i ∧ s.orders[i]? = some o ∧
        s.passiveSweep o time = .error e') ↔
        ∃ e', s.passiveSweep order time = .error e' := by
      constructor
      · rintro ⟨i, o, e', hi, ho, he⟩
        obtain rfl : index = i := by simpa using hi
        obtain rfl : order = o := Option.some_inj.1 (found.symm.trans ho)
        exact ⟨e', he⟩
      · rintro ⟨e', he⟩
        exact ⟨index, order, e', rfl, found, he⟩
    rw [hhead]
    have hwaitingRest : Waiting s instrument rest :=
      fun i hi => hwaiting i (List.mem_cons_of_mem _ hi)
    have hstep := executePassiveOrder_outcome hash hs found hactive controlSequence time
    generalize hresult : executePassiveOrder hash index controlSequence time s = r at hstep
    cases hstep with
    | refused e' hsweep =>
      rw [executePassiveOrders, bind_of_error hresult] at h
      cases h
      exact ⟨fun _ => ⟨e, hsweep⟩, fun _ => rfl⟩
    | early sweep m record hsweep hsome hbefore hsame hwithin hfills =>
      rw [executePassiveOrders, bind_of_error hresult] at h
      cases h
      refine ⟨fun heq => ?_, fun ⟨e', he⟩ => ?_⟩
      · rw [heq] at hfills
        simpa using congrArg List.length hfills
      · rw [hsweep] at he
        cases he
    | idle hsweep =>
      have hall := executePassiveOrders_idle hash controlSequence hwaiting
        fun other hother => passiveSweep_idle (hother.trans hinstrument.symm) hsweep
      rw [hall] at h
      cases h
    | matched sweep activation s₁ order' hsweep hshift hwithin htakes horders hleft =>
      refine ⟨fun heq => ?_, fun ⟨e', he⟩ => ?_⟩
      · exfalso
        have hframe : ∀ i ∈ rest, s₁.orders[i]? = s.orders[i]? := by
          intro i hi
          rw [horders, List.getElem?_set_ne]
          rintro rfl
          exact hnotin hi
        have hrun := executePassiveOrders_outcome hash controlSequence time
          ⟨hshift.wired hs.wired, hwithin⟩ hrest
          (hwaitingRest.frame hframe)
        rw [executePassiveOrders, bind_of_ok hresult] at h
        generalize hlater : executePassiveOrders hash controlSequence time rest s₁ = later at hrun
        cases later with
        | ok results m =>
          rw [bind_of_ok hlater] at h
          cases h
        | error e' m =>
          rw [bind_of_error hlater] at h
          cases h
          have hkept := hrun.frame index hnotin
          simp only [stateAfter] at hkept
          rw [heq, found, horders, List.getElem?_set_self (List.getElem?_eq_some_iff.1 found).1]
            at hkept
          rw [Option.some_inj.1 hkept] at hactive
          exact hleft hactive
      · rw [hsweep] at he
        cases he

end PassiveLoop

section Auction
variable (hash : List UInt8 → Digest)

theorem matchAuctionOrder_ok {s : ScheduledDepthSimulator} {evidence : AuctionMatchEvidence}
    {order : ScheduledOrder} {index : ℕ} (found : s.orders[index]? = some order)
    (heligible : auctionEligible evidence order = true) :
    ∃ activation s', matchAuctionOrder hash evidence index s = .ok activation s' ∧ Shift s s' ∧
    s'.books = s.books ∧
      ∀ i, i ≠ index → s'.orders[i]? = s.orders[i]? := by
  obtain ⟨hactive, htime⟩ : order.status = .active ∧
      order.request.activateAt ≤ evidence.matchTime := by
    simp only [auctionEligible, Bool.and_eq_true, decide_eq_true_eq] at heligible
    exact ⟨heligible.1.1.1, heligible.2⟩
  have hlive : order.status.isTerminal = false := by rw [hactive]; rfl
  rw [matchAuctionOrder, get_bind, lift_bind ((okOr_eq_ok _ _ _).2 found)]
  by_cases hcross : auctionCrosses order.request.intent evidence.clearingPrice = false
  · rw [if_pos hcross]
    exact ⟨_, _, rfl, Shift.status .matchAttempted found hlive (by simp) (by simp) (by simp), rfl,
      fun i hi => List.getElem?_set_ne (Ne.symm hi)⟩
  · rw [if_neg hcross]
    exact fillCompletely_ok _ _ _ found (.inr hactive) htime rfl rfl

/-- Matching an auction never fails once it has begun. -/
theorem matchAuctionOrders_ok {s : ScheduledDepthSimulator} {evidence : AuctionMatchEvidence}
    {indices : List ℕ} (hnodup : indices.Nodup)
    (heligible : ∀ index ∈ indices, ∃ order, s.orders[index]? = some order ∧
      auctionEligible evidence order = true) :
    ∃ results s', matchAuctionOrders hash evidence indices s = .ok results s' ∧ Shifts s s' ∧
    s'.books = s.books := by
  induction indices generalizing s with
  | nil => exact ⟨[], s, rfl, .refl, rfl⟩
  | cons index rest ih =>
    obtain ⟨hnotin, hrest⟩ := List.nodup_cons.1 hnodup
    obtain ⟨order, found, horder⟩ := heligible index List.mem_cons_self
    obtain ⟨activation, s₁, hstep, hshift, hbooks, hframe⟩ := matchAuctionOrder_ok hash found horder
    obtain ⟨results, s', hrun, hshifts, hbooks'⟩ := @ih s₁ hrest fun i hi => by
      rw [hframe i fun h => hnotin (h ▸ hi)]
      exact heligible i (List.mem_cons_of_mem _ hi)
    refine ⟨activation :: results, s', ?_, .head hshift hshifts, hbooks'.trans hbooks⟩
    rw [matchAuctionOrders, bind_of_ok hstep, bind_of_ok hrun]
    rfl

/-- An auction match fails without a trace, or makes moves and leaves the books. -/
theorem evaluateAuctionMatch_outcome (s : ScheduledDepthSimulator)
    (evidence : AuctionMatchEvidence) :
    (∃ e, evaluateAuctionMatch hash evidence s = .error e s ∧ e.overconsumed = false) ∨
      ∃ results s', evaluateAuctionMatch hash evidence s = .ok results s' ∧ Shifts s s' ∧
      s'.books = s.books := by
  rw [evaluateAuctionMatch, get_bind]
  cases hprofile : okOr (ScheduledSimulationError.instrumentOutsideUniverse evidence.instrument)
      s.configs[evidence.instrument]? with
  | error e => exact .inl ⟨e, lift_bind_error rfl _ _, by
    rw [← ((okOr_eq_error _ _ _).1 hprofile).2]
    rfl⟩
  | ok profile =>
    rw [lift_bind rfl]
    cases hprice : ensure (profile.pricePolicy.accepts evidence.clearingPrice = true)
        ScheduledSimulationError.priceNotAllowedByInstrumentProfile with
    | error e => exact .inl ⟨e, lift_bind_error rfl _ _, by
      rw [← ((ensure_eq_error _ _ _).1 hprice).2]
      rfl⟩
    | ok u =>
      rw [lift_bind rfl]
      exact .inr (matchAuctionOrders_ok hash nodup_eligibleOrders fun index hindex =>
        mem_eligibleOrders hindex)

end Auction

end Osmium
