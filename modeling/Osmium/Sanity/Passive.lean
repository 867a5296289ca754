import Osmium.Sanity.Calls

/-! When an evaluation of active orders or an auction match of the scheduled simulator records
nothing. Orders are passed in order of acceptance; an order that takes nothing leaves the books to
the next one as they are. -/

namespace Osmium
open Machine Bytes Result Stateful ScheduledDepthSimulator

section Passive
variable (hash : List UInt8 → Digest) {s : ScheduledDepthSimulator} {order : ScheduledOrder}
  {index : ℕ} {indices : List ℕ}

/-- The order at a position is swept and takes something. -/
def TakesDepth (s : ScheduledDepthSimulator) (time : MatchTime) (index : ℕ) : Prop :=
  ∃ order sweep, s.orders[index]? = some order ∧ s.passiveSweep order time = .ok (some sweep) ∧
  sweep.fills ≠ []

/-- The order at a position is refused before it is swept. -/
def RefusesDepth (s : ScheduledDepthSimulator) (time : MatchTime) (index : ℕ) : Prop :=
  ∃ order e, s.orders[index]? = some order ∧ s.passiveSweep order time = .error e

theorem takesDepth_iff (found : s.orders[index]? = some order) (time : MatchTime) :
    TakesDepth s time index ↔ ∃ sweep, s.passiveSweep order time = .ok (some sweep) ∧
    sweep.fills ≠ [] := by
  refine ⟨?_, fun ⟨sweep, hsweep⟩ => ⟨order, sweep, found, hsweep⟩⟩
  rintro ⟨other, sweep, hother, hsweep⟩
  obtain rfl := Option.some_inj.1 (found.symm.trans hother)
  exact ⟨sweep, hsweep⟩

theorem refusesDepth_iff (found : s.orders[index]? = some order) (time : MatchTime) :
    RefusesDepth s time index ↔ ∃ e, s.passiveSweep order time = .error e := by
  refine ⟨?_, fun ⟨e, he⟩ => ⟨order, e, found, he⟩⟩
  rintro ⟨other, e, hother, he⟩
  obtain rfl := Option.some_inj.1 (found.symm.trans hother)
  exact ⟨e, he⟩

/-- What a sweep finds depends on the order, the profile, the book and the trading state only. -/
theorem passiveSweep_congr {s' : ScheduledDepthSimulator} (hconfigs : s'.configs = s.configs)
    (hbooks : s'.books = s.books)
    (hstates : s'.tradingStates = s.tradingStates) (order : ScheduledOrder) (time : MatchTime) :
    s'.passiveSweep order time = s.passiveSweep order time := by
  cases s
  cases s'
  obtain ⟨rfl, rfl, rfl⟩ : _ ∧ _ ∧ _ := ⟨hconfigs, hbooks, hstates⟩
  rfl

/-- One order of an evaluation, by what it does to the fills. -/
inductive PassiveStep (s : ScheduledDepthSimulator) (time : MatchTime) (index : ℕ) :
    EStateM.Result ScheduledSimulationError ScheduledDepthSimulator
      (Option ScheduledActivation) → Prop
  | refused (e) (refuses : RefusesDepth s time index) (takes : ¬ TakesDepth s time index) :
      PassiveStep s time index (.error e s)
  | quiet (result) (s') (takes : ¬ TakesDepth s time index) (refuses : ¬ RefusesDepth s time index)
      (sound : Sound s')
      (fills : s'.fills = s.fills) (frame : ∀ i, i ≠ index → s'.orders[i]? = s.orders[i]?)
      (sweeps : ∀ order, s'.passiveSweep order time = s.passiveSweep order time) :
      PassiveStep s time index (.ok result s')
  | took (result) (s') (takes : TakesDepth s time index) (sound : Sound s')
      (fills : s.fills.length < s'.fills.length)
      (frame : ∀ i, i ≠ index → s'.orders[i]? = s.orders[i]?) :
      PassiveStep s time index (.ok result s')
  | tookEarly (e) (s') (takes : TakesDepth s time index)
      (fills : s.fills.length < s'.fills.length) :
      PassiveStep s time index (.error e s')

theorem executePassiveOrder_step (hs : Sound s) (found : s.orders[index]? = some order)
    (hactive : order.status = .active) (controlSequence : U64) (time : MatchTime) :
    PassiveStep s time index (executePassiveOrder hash index controlSequence time s) := by
  have hstep := executePassiveOrder_outcome hash hs found hactive controlSequence time
  generalize executePassiveOrder hash index controlSequence time s = r at hstep
  cases hstep with
  | refused e hsweep =>
    refine .refused e ((refusesDepth_iff found time).2 ⟨e, hsweep⟩) fun htakes => ?_
    obtain ⟨sweep, hok, -⟩ := (takesDepth_iff found time).1 htakes
    rw [hsweep] at hok
    cases hok
  | idle hsweep =>
    refine .quiet none s (fun htakes => ?_) (fun hrefuses => ?_) hs rfl (fun _ _ => rfl)
      fun _ => rfl
    · obtain ⟨sweep, hok, -⟩ := (takesDepth_iff found time).1 htakes
      rw [hsweep] at hok
      cases hok
    · obtain ⟨e, he⟩ := (refusesDepth_iff found time).1 hrefuses
      rw [hsweep] at he
      cases he
  | early sweep m record hsweep hsome hbefore hsame hwithin hfills =>
    refine .tookEarly _ m ((takesDepth_iff found time).2 ⟨sweep, hsweep, hsome⟩) ?_
    rw [hfills]
    simp
  | matched sweep activation s' order' hsweep hshift hwithin htakes horders hleft hrecorded
      hsame hquiet =>
    have hsound : Sound s' := ⟨hshift.wired hs.wired, hwithin⟩
    have hframe : ∀ i, i ≠ index → s'.orders[i]? = s.orders[i]? := fun i hi => by
      rw [horders, List.getElem?_set_ne (Ne.symm hi)]
    obtain ⟨records, hfills, htotal⟩ := hrecorded
    by_cases hnone : sweep.fills = []
    · rw [hnone, filledTotal_nil] at htotal
      have hrecords := (recordTotal_eq_zero records).1 htotal
      refine .quiet _ s' (fun htakes => ?_)
        (fun hrefuses => ?_) hsound (by rw [hfills, hrecords, List.append_nil]) hframe
        (passiveSweep_congr hsame.1 (hquiet hnone) hsame.2 · time)
      · obtain ⟨other, hok, hsome⟩ := (takesDepth_iff found time).1 htakes
        rw [hsweep, Except.ok.injEq, Option.some_inj] at hok
        exact hsome (hok ▸ hnone)
      · obtain ⟨e, he⟩ := (refusesDepth_iff found time).1 hrefuses
        rw [hsweep] at he
        cases he
    · refine .took _ s' ((takesDepth_iff found time).2 ⟨sweep, hsweep, hnone⟩) hsound ?_ hframe
      rw [← filledTotal_eq_zero, ← htotal, recordTotal_eq_zero] at hnone
      rw [hfills, List.length_append]
      have := List.length_pos_iff.2 hnone
      omega

theorem stateAfter_executePassiveOrders_cons {controlSequence : U64} {time : MatchTime}
    {result : Option ScheduledActivation} {s' : ScheduledDepthSimulator}
    (h : executePassiveOrder hash index controlSequence time s = .ok result s') :
    stateAfter (executePassiveOrders hash controlSequence time (index :: indices) s) =
      stateAfter (executePassiveOrders hash controlSequence time indices s') := by
  rw [executePassiveOrders, bind_of_ok h]
  exact stateAfter_bind_pure _ _ _

/-- Fills are never taken back. -/
theorem executePassiveOrders_length_le {instrument : InstrumentId} (hs : Sound s)
    (hnodup : indices.Nodup)
    (hwaiting : Waiting s instrument indices) (controlSequence : U64) (time : MatchTime) :
    s.fills.length ≤
      (stateAfter (executePassiveOrders hash controlSequence time indices s)).fills.length := by
  induction indices generalizing s with
  | nil => exact le_rfl
  | cons index rest ih =>
    obtain ⟨hnotin, hrest⟩ := List.nodup_cons.1 hnodup
    obtain ⟨order, found, hactive, -⟩ := hwaiting index List.mem_cons_self
    have hwaitingRest : Waiting s instrument rest :=
      fun i hi => hwaiting i (List.mem_cons_of_mem _ hi)
    have hstep := executePassiveOrder_step hash hs found hactive controlSequence time
    generalize hresult : executePassiveOrder hash index controlSequence time s = r at hstep
    have hlater : ∀ result s', r = .ok result s' → Sound s' →
        (∀ i, i ≠ index → s'.orders[i]? = s.orders[i]?) →
        s'.fills.length ≤
          (stateAfter
            (executePassiveOrders hash controlSequence time (index :: rest) s)).fills.length := by
      rintro result s' rfl hsound hframe
      have hle := ih hsound hrest (hwaitingRest.frame fun i hi => hframe i fun h => hnotin (h ▸ hi))
      rw [stateAfter_executePassiveOrders_cons hash hresult]
      exact hle
    cases hstep with
    | refused e hrefuses htakes =>
      rw [executePassiveOrders, bind_of_error hresult]
      exact le_rfl
    | tookEarly e s' htakes hfills =>
      rw [executePassiveOrders, bind_of_error hresult]
      exact hfills.le
    | quiet result s' htakes hrefuses hsound hfills hframe hsweeps =>
      rw [← hfills]
      exact hlater result s' rfl hsound hframe
    | took result s' htakes hsound hfills hframe =>
      exact hfills.le.trans (hlater result s' rfl hsound hframe)

/-- An evaluation records nothing exactly when every order that would take something comes after one
that is refused. -/
theorem executePassiveOrders_fills_iff {instrument : InstrumentId} (hs : Sound s)
    (hnodup : indices.Nodup)
    (hwaiting : Waiting s instrument indices) (controlSequence : U64) (time : MatchTime) :
    (stateAfter (executePassiveOrders hash controlSequence time indices s)).fills = s.fills ↔
      ∀ before index after, indices = before ++ index :: after → TakesDepth s time index →
        ∃ other ∈ before, RefusesDepth s time other := by
  induction indices generalizing s with
  | nil => exact iff_of_true rfl fun before index after hsplit => by cases before <;> cases hsplit
  | cons index rest ih =>
    obtain ⟨hnotin, hrest⟩ := List.nodup_cons.1 hnodup
    obtain ⟨order, found, hactive, -⟩ := hwaiting index List.mem_cons_self
    have hwaitingRest : Waiting s instrument rest :=
      fun i hi => hwaiting i (List.mem_cons_of_mem _ hi)
    have hstep := executePassiveOrder_step hash hs found hactive controlSequence time
    generalize hresult : executePassiveOrder hash index controlSequence time s = r at hstep
    cases hstep with
    | refused e hrefuses htakes =>
      rw [executePassiveOrders, bind_of_error hresult]
      refine iff_of_true rfl fun before other after hsplit hother => ?_
      cases before with
      | nil =>
        obtain rfl := (List.cons.inj hsplit).1
        exact absurd hother htakes
      | cons first before =>
        obtain rfl := (List.cons.inj hsplit).1
        exact ⟨index, List.mem_cons_self, hrefuses⟩
    | tookEarly e s' htakes hfills =>
      rw [executePassiveOrders, bind_of_error hresult]
      refine iff_of_false (fun heq => ?_) fun hall => ?_
      · rw [show s'.fills = s.fills from heq] at hfills
        exact lt_irrefl _ hfills
      · obtain ⟨other, hother, -⟩ := hall [] index rest rfl htakes
        cases hother
    | took result s' htakes hsound hfills hframe =>
      refine iff_of_false (fun heq => ?_) fun hall => ?_
      · have hle := executePassiveOrders_length_le hash hsound hrest
          (hwaitingRest.frame fun i hi => hframe i fun h => hnotin (h ▸ hi)) controlSequence time
        rw [stateAfter_executePassiveOrders_cons hash hresult] at heq
        rw [heq] at hle
        omega
      · obtain ⟨other, hother, -⟩ := hall [] index rest rfl htakes
        cases hother
    | quiet result s' htakes hrefuses hsound hfills hframe hsweeps =>
      have hkept : ∀ i ∈ rest, s'.orders[i]? = s.orders[i]? :=
        fun i hi => hframe i fun h => hnotin (h ▸ hi)
      have hsame : ∀ i ∈ rest, (TakesDepth s' time i ↔ TakesDepth s time i) ∧
          (RefusesDepth s' time i ↔ RefusesDepth s time i) := by
        intro i hi
        simp only [TakesDepth, RefusesDepth, hkept i hi, hsweeps, and_self]
      rw [stateAfter_executePassiveOrders_cons hash hresult, ← hfills,
        ih hsound hrest (hwaitingRest.frame hkept)]
      have hmembers {before after : List ℕ} {other : ℕ} (hsplit : rest = before ++ other :: after) :
          other ∈ rest ∧ ∀ i ∈ before, i ∈ rest := by
        rw [hsplit]
        exact ⟨List.mem_append_right _ List.mem_cons_self, fun i hi => List.mem_append_left _ hi⟩
      refine ⟨fun hall before other after hsplit hother =>
        ?_, fun hall before other after hsplit hother => ?_⟩
      · cases before with
        | nil =>
          obtain rfl := (List.cons.inj hsplit).1
          exact absurd hother htakes
        | cons first before =>
          obtain ⟨rfl, hrestSplit⟩ := List.cons.inj hsplit
          obtain ⟨hmem, hbefore⟩ := hmembers hrestSplit
          obtain ⟨earlier, hearlier, hrefused⟩ :=
            hall before other after hrestSplit ((hsame other hmem).1.2 hother)
          exact ⟨earlier, List.mem_cons_of_mem _ hearlier,
            (hsame earlier (hbefore earlier hearlier)).2.1 hrefused⟩
      · obtain ⟨hmem, hbefore⟩ := hmembers hsplit
        obtain ⟨earlier, hearlier, hrefused⟩ :=
          hall (index :: before) other after (by rw [hsplit, List.cons_append])
          ((hsame other hmem).1.1 hother)
        rcases List.mem_cons.1 hearlier with rfl | hearlier
        · exact absurd hrefused hrefuses
        · exact ⟨earlier, hearlier, (hsame earlier (hbefore earlier hearlier)).2.2 hrefused⟩

end Passive

section AuctionMatch
variable (hash : List UInt8 → Digest) {s : ScheduledDepthSimulator}
  {evidence : AuctionMatchEvidence} {index : ℕ}
  {indices : List ℕ}

theorem fills_fillCompletely (order : ScheduledOrder) (index : ℕ) (record : FillRecord)
    (fillId : FillId) (price : Price) (s : ScheduledDepthSimulator) :
    (stateAfter (fillCompletely order index record fillId price s)).fills =
      s.fills ++ [record] := by
  unfold fillCompletely
  rw [modify_bind]
  cases hfeedback : ((ExecutionFillFeedback.new (fillFeedback order fillId record.matchTime 1 price
      order.request.intent.quantity order.request.intent.quantity none)).mapError
        ScheduledSimulationError.fillFeedback) with
  | error e =>
    rw [lift_bind_error rfl]
    rfl
  | ok feedback =>
    rw [lift_bind rfl]
    rfl

theorem fills_matchAuctionOrder {order : ScheduledOrder} (found : s.orders[index]? = some order) :
    ∃ records : List FillRecord, (stateAfter (matchAuctionOrder hash evidence index s)).fills =
      s.fills ++ records ∧
      (records = [] ↔ auctionCrosses order.request.intent evidence.clearingPrice = false) := by
  rw [matchAuctionOrder, get_bind, lift_bind ((okOr_eq_ok _ _ _).2 found)]
  by_cases hcross : auctionCrosses order.request.intent evidence.clearingPrice = false
  · rw [if_pos hcross]
    exact ⟨[], (List.append_nil _).symm, iff_of_true rfl hcross⟩
  · rw [if_neg hcross, fills_fillCompletely]
    exact ⟨_, rfl, iff_of_false (List.cons_ne_nil _ _) hcross⟩

/-- An auction fills the orders that cross its price, and no others. -/
theorem fills_matchAuctionOrders (hnodup : indices.Nodup)
    (heligible : ∀ index ∈ indices, ∃ order, s.orders[index]? = some order ∧
      auctionEligible evidence order = true) :
    ∃ records : List FillRecord,
      (stateAfter (matchAuctionOrders hash evidence indices s)).fills = s.fills ++ records ∧
      (records = [] ↔ ∀ index ∈ indices, ∀ order, s.orders[index]? = some order →
        auctionCrosses order.request.intent evidence.clearingPrice = false) := by
  induction indices generalizing s with
  | nil => exact ⟨[], (List.append_nil _).symm, iff_of_true rfl (by simp)⟩
  | cons index rest ih =>
    obtain ⟨hnotin, hrest⟩ := List.nodup_cons.1 hnodup
    obtain ⟨order, found, horder⟩ := heligible index List.mem_cons_self
    obtain ⟨activation, s₁, hstep, -, -, hframe⟩ := matchAuctionOrder_ok hash found horder
    obtain ⟨first, hfirst, hquiet⟩ := @fills_matchAuctionOrder hash s evidence index order found
    rw [hstep] at hfirst
    have hkept : ∀ i ∈ rest, s₁.orders[i]? = s.orders[i]? :=
      fun i hi => hframe i fun h => hnotin (h ▸ hi)
    obtain ⟨later, hlater, hrestQuiet⟩ := @ih s₁ hrest fun i hi => by
      rw [hkept i hi]
      exact heligible i (List.mem_cons_of_mem _ hi)
    refine ⟨first ++ later, ?_, ?_⟩
    · rw [matchAuctionOrders, bind_of_ok hstep, stateAfter_bind_pure, hlater,
        show s₁.fills = _ from hfirst, List.append_assoc]
    · rw [List.append_eq_nil_iff, hquiet, hrestQuiet, List.forall_mem_cons, found]
      refine and_congr (by simp) (forall₂_congr fun i hi => ?_)
      rw [hkept i hi]

/-- An auction match records nothing exactly when its price is refused or no order that waits for it
crosses. -/
theorem evaluateAuctionMatch_fills_iff (s : ScheduledDepthSimulator)
    (evidence : AuctionMatchEvidence) :
    (stateAfter (evaluateAuctionMatch hash evidence s)).fills = s.fills ↔
      ∀ profile, s.configs[evidence.instrument]? = some profile →
        profile.pricePolicy.accepts evidence.clearingPrice = true →
        ∀ order ∈ s.orders, auctionEligible evidence order = true →
          auctionCrosses order.request.intent evidence.clearingPrice = false := by
  rw [evaluateAuctionMatch, get_bind]
  cases hprofile : s.configs[evidence.instrument]? with
  | none =>
    rw [lift_bind_error ((okOr_eq_error _ _ _).2 ⟨rfl, rfl⟩)]
    exact iff_of_true rfl fun profile h => by cases h
  | some profile =>
    rw [lift_bind ((okOr_eq_ok _ _ _).2 rfl)]
    by_cases hprice : profile.pricePolicy.accepts evidence.clearingPrice = true
    · rw [lift_bind ((ensure_eq_ok _ _ ()).2 hprice)]
      obtain ⟨records, hrecords, hquiet⟩ := @fills_matchAuctionOrders hash s evidence _
        (@nodup_eligibleOrders s (auctionEligible evidence)) fun index hindex =>
          mem_eligibleOrders hindex
      rw [hrecords, List.append_right_eq_self, hquiet]
      refine ⟨fun hall other hother _ order horder heligible =>
        ?_, fun hall index hindex order found => ?_⟩
      · obtain ⟨index, found⟩ := List.mem_iff_getElem?.1 horder
        exact hall index (mem_eligibleOrders_iff.2 ⟨order, found, heligible⟩) order found
      · obtain ⟨other, hother, heligible⟩ := mem_eligibleOrders hindex
        obtain rfl := Option.some_inj.1 (found.symm.trans hother)
        exact hall profile rfl hprice order (List.mem_of_getElem? found) heligible
    · rw [lift_bind_error ((ensure_eq_error _ _ _).2 ⟨hprice, rfl⟩)]
      refine iff_of_true rfl fun other hother haccepts => ?_
      obtain rfl := Option.some_inj.1 hother
      exact absurd haccepts hprice

end AuctionMatch

end Osmium
