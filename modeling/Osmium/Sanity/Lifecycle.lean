import Osmium.Sanity.Recording

/-! What one operation of the scheduled simulator can do to the order table. Every change is a move
of one order out of a status that is not terminal, with the fills that belong to the move, or the
acceptance of a new order; invariants of the order table are proved for these and hold for every
operation. -/

namespace Osmium
open Machine Bytes Result Stateful ScheduledDepthSimulator

def ScheduledOrderStatus.isTerminal : ScheduledOrderStatus → Bool
  | .filled | .failed _ | .expired | .replaced | .cancelled => true
  | _ => false

/-- An order that no match has been attempted for. -/
def ScheduledOrder.Untouched (order : ScheduledOrder) : Prop :=
  order.status = .scheduled ∨ order.status = .active

/-- One order moves: either its status alone changes, or an untouched order is matched once. -/
structure Moves (order order' : ScheduledOrder) (records : List FillRecord) : Prop where
  id : order'.id = order.id
  request : order'.request = order.request
  live : order.status.isTerminal = false
  owned : ∀ record ∈ records, record.orderId = order.id
  left : order'.status ≠ .scheduled
  effect : (records = [] ∧ order'.filledValue = order.filledValue ∧ order'.status ≠ .filled ∧
      (order'.status = .active → order.status = .scheduled)) ∨
    (order.Untouched ∧ order'.filledValue.val = recordTotal records ∧
      recordTotal records ≤ order.request.intent.quantity.value.val ∧
      (order'.status = .filled ↔ recordTotal records = order.request.intent.quantity.value.val) ∧
      order'.status ≠ .active)

/-- A step on the order table that accepts no order. -/
inductive Shift (s s' : ScheduledDepthSimulator) : Prop
  | market (orders : s'.orders = s.orders) (clients : s'.clientOrders = s.clientOrders)
      (fills : s'.fills = s.fills)
      (configs : s'.configs = s.configs)
  | move (index : ℕ) (order order' : ScheduledOrder) (records : List FillRecord)
      (found : s.orders[index]? = some order) (moves : Moves order order' records)
      (orders : s'.orders = s.orders.set index order') (clients : s'.clientOrders = s.clientOrders)
      (fills : s'.fills = s.fills ++ records) (configs : s'.configs = s.configs)

abbrev Shifts := Relation.ReflTransGen Shift

/-- The facts about the order table that hold whatever is called. -/
structure Wired (s : ScheduledDepthSimulator) : Prop where
  configured : ∀ order ∈ s.orders, order.request.intent.instrument ∈ s.configs
  indexed : ∀ (client : ClientOrderId) (id : OrderId), s.clientOrders[client]? = some id →
      ∃ order ∈ s.orders, order.id = id
  unfilled : ∀ order ∈ s.orders, order.Untouched → order.filledValue.val = 0

def BooksWithin (s : ScheduledDepthSimulator) : Prop :=
  ∀ (instrument : InstrumentId) (book : VisibleBookState),
    s.books[instrument]? = some book → book.Within

section Wiring
variable {s s' : ScheduledDepthSimulator}

theorem Moves.untouched {order order' : ScheduledOrder} {records : List FillRecord}
    (h : Moves order order' records)
    (hu : order'.Untouched) : order.Untouched ∧ order'.filledValue = order.filledValue := by
  rcases hu with hs | ha
  · exact absurd hs h.left
  · rcases h.effect with ⟨-, hfilled, -, hactive⟩ | ⟨-, -, -, -, hne⟩
    · exact ⟨.inl (hactive ha), hfilled⟩
    · exact absurd ha hne

theorem Shift.wired (h : Shift s s') (hs : Wired s) : Wired s' := by
  cases h with
  | market orders clients fills configs =>
    exact ⟨by rw [orders, configs]; exact hs.configured, by rw [orders, clients]; exact hs.indexed,
      by rw [orders]; exact hs.unfilled⟩
  | move index order order' records found moves orders clients fills configs =>
    have hmem : order ∈ s.orders := List.mem_of_getElem? found
    have hindex : index < s.orders.length := (List.getElem?_eq_some_iff.1 found).1
    refine ⟨fun o ho => ?_, fun client id hid => ?_, fun o ho hu => ?_⟩
    · rw [orders] at ho
      rw [configs]
      rcases List.mem_or_eq_of_mem_set ho with hold | rfl
      · exact hs.configured o hold
      · rw [moves.request]
        exact hs.configured order hmem
    · rw [clients] at hid
      obtain ⟨o, ho, hoid⟩ := hs.indexed client id hid
      rw [orders]
      by_cases heq : o = order
      · refine ⟨order', List.mem_set hindex order', ?_⟩
        rw [moves.id, ← heq, hoid]
      · obtain ⟨k, hk⟩ := List.mem_iff_getElem?.1 ho
        have hne : index ≠ k := by
          rintro rfl
          exact heq (Option.some_inj.1 (hk.symm.trans found))
        exact ⟨o, List.mem_of_getElem? (by rw [List.getElem?_set_ne hne]; exact hk), hoid⟩
    · rw [orders] at ho
      rcases List.mem_or_eq_of_mem_set ho with hold | rfl
      · exact hs.unfilled o hold hu
      · obtain ⟨hbefore, hfilled⟩ := moves.untouched hu
        rw [hfilled]
        exact hs.unfilled order hmem hbefore

theorem Shifts.wired (h : Shifts s s') (hs : Wired s) : Wired s' := by
  induction h with
  | refl => exact hs
  | tail _ hstep ih => exact hstep.wired ih

theorem locate_eq_some {id : OrderId} {order : ScheduledOrder} {index : ℕ}
    (h : s.locate id = some (order, index)) :
    s.orders[index]? = some order ∧ order.id = id := by
  unfold locate at h
  have hid := List.find?_some h
  have hmem := List.mem_zipIdx_iff_getElem?.1 (List.mem_of_find?_eq_some h)
  exact ⟨hmem, by simpa using hid⟩

/-- A change of status that records nothing. -/
theorem Shift.status {index : ℕ} {order : ScheduledOrder} (status : ScheduledOrderStatus)
    (found : s.orders[index]? = some order) (live : order.status.isTerminal = false)
    (hne : status ≠ .scheduled)
    (hfilled : status ≠ .filled) (hactive : status = .active → order.status = .scheduled) :
    Shift s (s.setOrder index { order with status := status }) :=
  .move index order { order with status := status } [] found
    ⟨rfl, rfl, live, by simp, hne, .inl ⟨rfl, rfl, hfilled, hactive⟩⟩ rfl rfl (by simp [setOrder])
    rfl

end Wiring

section Statuses
variable {s s' : ScheduledDepthSimulator}

theorem setOrder_ne {index : ℕ} {order order' : ScheduledOrder}
    (found : s.orders[index]? = some order)
    (hne : order' ≠ order) : s.setOrder index order' ≠ s := by
  intro h
  have horders : s.orders.set index order' = s.orders := congrArg ScheduledDepthSimulator.orders h
  have hget : (s.orders.set index order')[index]? = some order := by rw [horders, found]
  rw [List.getElem?_set_self (List.getElem?_eq_some_iff.1 found).1] at hget
  exact hne (Option.some_inj.1 hget)

theorem publishVisibleTradingState_ok {evidence : VisibleTradingStateEvidence}
    (h : publishVisibleTradingState evidence s = .ok () s') :
    s' = { s with tradingStates := s.tradingStates.insert evidence.instrument evidence } ∧
      evidence.instrument ∈ s.configs ∧ s.tradingStateRegresses evidence = false := by
  simp only [publishVisibleTradingState, bind_ok, get_ok, lift_ok, set_ok, ensure_eq_ok] at h
  obtain ⟨_, _, ⟨rfl, rfl⟩, _, _, ⟨hmem, rfl⟩, _, _, ⟨hregress, rfl⟩, rfl⟩ := h
  exact ⟨rfl, hmem, hregress⟩

theorem publishVisibleTradingState_atomic (evidence : VisibleTradingStateEvidence) :
    Atomic (publishVisibleTradingState evidence) := by
  apply Atomic.bind ReadOnly.get; intro self
  apply Atomic.bind (ReadOnly.lift _); intro _
  apply Atomic.bind (ReadOnly.lift _); intro _
  exact Atomic.set _

/-- The book state a publication starts with. -/
def freshBook (evidence : VisibleBookEvidence) : VisibleBookState :=
  ⟨evidence, Vector.replicate bookDepth 0, Vector.replicate bookDepth 0⟩

theorem publishVisibleBook_ok {evidence : VisibleBookEvidence}
    (h : publishVisibleBook evidence s = .ok () s') :
    s.checkVisibleBook evidence = .ok () ∧
    s'.books = s.books.insert evidence.instrument (freshBook evidence) ∧
      s'.tradingStates = s.tradingStates.insert evidence.instrument
        ⟨evidence.instrument, evidence.matchTime, evidence.visibleAt, evidence.matching,
          evidence.newOrderEntry, evidence.causal⟩ ∧
      s'.orders = s.orders ∧ s'.clientOrders = s.clientOrders ∧ s'.fills = s.fills ∧
      s'.executionFills = s.executionFills ∧ s'.configs = s.configs := by
  simp only [publishVisibleBook, bind_ok, get_ok, lift_ok, modify_ok] at h
  obtain ⟨_, _, ⟨rfl, rfl⟩, _, _, ⟨hcheck, rfl⟩, _, m, hm, rfl⟩ := h
  obtain ⟨rfl, -, -⟩ := publishVisibleTradingState_ok hm
  exact ⟨hcheck, rfl, rfl, rfl, rfl, rfl, rfl, rfl⟩

theorem publishVisibleBook_atomic (evidence : VisibleBookEvidence) :
    Atomic (publishVisibleBook evidence) := by
  intro s e s' h
  simp only [publishVisibleBook, bind_error, get_error, get_ok, lift_error, lift_ok,
    modify_error, and_false, exists_false, or_false, false_or] at h
  obtain ⟨_, _, ⟨rfl, rfl⟩, ⟨-, rfl⟩ | ⟨_, _, ⟨-, rfl⟩, h⟩⟩ := h
  · rfl
  · exact publishVisibleTradingState_atomic _ _ _ _ h

theorem cancelBeforeActivation_ok {client : ClientOrderId} {feedback : OrderFeedback}
    (h : cancelBeforeActivation client s = .ok feedback s') :
    Shift s s' ∧ s'.books = s.books ∧ s'.executionFills = s.executionFills := by
  simp only [cancelBeforeActivation, bind_ok, get_ok, lift_ok, set_ok, okOr_eq_ok, ensure_eq_ok,
    pure_ok] at h
  obtain ⟨_, _, ⟨rfl, rfl⟩, id, _, ⟨-, rfl⟩, ⟨order, index⟩, _, ⟨hlocate, rfl⟩, _, _,
      ⟨hstatus, rfl⟩, _, _, rfl, -, rfl⟩ := h
  refine ⟨Shift.status .cancelled (locate_eq_some hlocate).1 ?_ (by simp) (by simp)
    (by simp), rfl, rfl⟩
  rw [hstatus]
  rfl

theorem expire_ok {id : OrderId} {time : MatchTime} {feedback : OrderFeedback}
    (h : expire id time s = .ok feedback s') :
    Shift s s' ∧ s'.books = s.books ∧ s'.executionFills = s.executionFills := by
  simp only [expire, bind_ok, get_ok, lift_ok, set_ok, okOr_eq_ok, ensure_eq_ok, pure_ok] at h
  obtain ⟨_, _, ⟨rfl, rfl⟩, ⟨order, index⟩, _, ⟨hlocate, rfl⟩, _, _, ⟨hstatus, rfl⟩, _, _, ⟨-, rfl⟩,
      _, _, rfl, -, rfl⟩ := h
  refine ⟨Shift.status .expired (locate_eq_some hlocate).1 ?_ (by simp) (by simp)
    (by simp), rfl, rfl⟩
  cases hs : order.status <;> simp_all [mayExpire, ScheduledOrderStatus.isTerminal]

theorem cancelBeforeActivation_atomic (client : ClientOrderId) :
    Atomic (cancelBeforeActivation client) := by
  apply Atomic.bind ReadOnly.get; intro self
  apply Atomic.bind (ReadOnly.lift _); intro _
  apply Atomic.bind (ReadOnly.lift _); intro _
  apply Atomic.bind (ReadOnly.lift _); intro _ s e s' h
  simp only [bind_error, set_error, pure_error, and_false, exists_false, or_false] at h

theorem expire_atomic (id : OrderId) (time : MatchTime) : Atomic (expire id time) := by
  apply Atomic.bind ReadOnly.get; intro self
  apply Atomic.bind (ReadOnly.lift _); intro _
  apply Atomic.bind (ReadOnly.lift _); intro _
  apply Atomic.bind (ReadOnly.lift _); intro _ s e s' h
  simp only [bind_error, set_error, pure_error, and_false, exists_false, or_false] at h

theorem interruptible_live {instrument : InstrumentId} {order : ScheduledOrder}
    (h : interruptible instrument order = true) : order.status.isTerminal = false := by
  cases hs : order.status <;> simp_all [interruptible, ScheduledOrderStatus.isTerminal]

/-- Interrupting every order is a chain of single moves. -/
theorem Shifts.interrupted (instrument : InstrumentId) (s : ScheduledDepthSimulator)
    (done rest : List ScheduledOrder) (hs : s.orders = done ++ rest) :
    Shifts s { s with orders := done ++ rest.map (interrupted instrument) } := by
  induction rest generalizing s done with
  | nil =>
    rw [List.append_nil] at hs
    rw [List.map_nil, List.append_nil, ← hs]
  | cons order rest ih =>
    have hfound : s.orders[done.length]? = some order := by rw [hs]; simp
    by_cases horder : interruptible instrument order = true
    · have hstep :=
        Shift.status .cancelled hfound (interruptible_live horder) (by simp) (by simp) (by simp)
      refine Relation.ReflTransGen.head hstep ?_
      have hset : (s.setOrder done.length { order with status := .cancelled }).orders =
          (done ++ [{ order with status := .cancelled }]) ++ rest := by
        simp [setOrder, hs]
      have := ih _ _ hset
      simpa [setOrder, ScheduledDepthSimulator.interrupted, horder] using this
    · have hsplit : s.orders = (done ++ [order]) ++ rest := by rw [hs]; simp
      have := ih s _ hsplit
      simpa [ScheduledDepthSimulator.interrupted, horder] using this

theorem cancelActiveMarketOrders_ok {instrument : InstrumentId} {feedbacks : List OrderFeedback}
    (h : cancelActiveMarketOrdersForVolatilityInterruption instrument s = .ok feedbacks s') :
    Shifts s s' ∧ s'.books = s.books ∧ s'.executionFills = s.executionFills := by
  simp only [cancelActiveMarketOrdersForVolatilityInterruption, bind_ok, get_ok, lift_ok, set_ok,
    pure_ok] at h
  obtain ⟨_, _, ⟨rfl, rfl⟩, _, _, ⟨-, rfl⟩, _, _, rfl, -, rfl⟩ := h
  exact ⟨Shifts.interrupted instrument _ [] _ rfl, rfl, rfl⟩

theorem cancelActiveMarketOrders_atomic (instrument : InstrumentId) :
    Atomic (cancelActiveMarketOrdersForVolatilityInterruption instrument) := by
  apply Atomic.bind ReadOnly.get; intro self
  apply Atomic.bind (ReadOnly.lift _); intro _ s e s' h
  simp only [bind_error, set_error, pure_error, and_false, exists_false, or_false] at h

end Statuses

section Submit
variable (hash : List UInt8 → Digest) {s s' : ScheduledDepthSimulator} {strategyId : Text}
  {context : ScheduledSubmissionContext} {outputSequence : U32} {request : ScheduledOrderRequest}

/-- The request passes its checks and its client identity names an order that is still scheduled. -/
def Replaces (s : ScheduledDepthSimulator) (context : ScheduledSubmissionContext)
    (request : ScheduledOrderRequest) : Prop :=
  s.checkSubmission context request = .ok () ∧
  ∃ id order index, s.clientOrders[request.clientOrderId]? = some id ∧
    s.locate id = some (order, index) ∧ order.status = .scheduled

/-- A new order at the end of the table, named by its client identity. -/
structure Accepts (id : OrderId) (request : ScheduledOrderRequest)
    (s s' : ScheduledDepthSimulator) : Prop where
  orders : ∃ sequence, s'.orders = s.orders ++ [⟨id, request, sequence, 0, .scheduled⟩]
  clients : s'.clientOrders = s.clientOrders.insert request.clientOrderId id
  fills : s'.fills = s.fills
  reported : s'.executionFills = s.executionFills
  books : s'.books = s.books
  configs : s'.configs = s.configs
  configured : request.intent.instrument ∈ s.configs

theorem Accepts.wired {id : OrderId} (h : Accepts id request s s') (hs : Wired s) : Wired s' := by
  obtain ⟨sequence, horders⟩ := h.orders
  refine ⟨?_, fun client id' hid => ?_, ?_⟩
  · rw [horders, h.configs, List.forall_mem_append, List.forall_mem_singleton]
    exact ⟨hs.configured, h.configured⟩
  · rw [h.clients, Std.ExtTreeMap.getElem?_insert] at hid
    rw [horders]
    split_ifs at hid with hcmp
    · cases hid
      exact ⟨_, List.mem_append_right _ (List.mem_singleton_self _), rfl⟩
    · obtain ⟨order, hmem, hoid⟩ := hs.indexed client id' hid
      exact ⟨order, List.mem_append_left _ hmem, hoid⟩
  · rw [horders, List.forall_mem_append, List.forall_mem_singleton]
    exact ⟨hs.unfilled, fun _ => rfl⟩

theorem checkSubmission_configured (h : s.checkSubmission context request = .ok ()) :
    request.intent.instrument ∈ s.configs := by
  simp only [checkSubmission, bind_eq_ok, okOr_eq_ok] at h
  obtain ⟨-, -, profile, hprofile, -⟩ := h
  rw [Std.ExtTreeMap.mem_iff_isSome_getElem?, hprofile]
  rfl

/-- Replacing changes one status, and only when there is a scheduled order to replace. -/
theorem replacePrevious_ok {client : ClientOrderId} {replaced : Option OrderFeedback}
    (h : replacePrevious client s = .ok replaced s') :
    (s' = s ∧ s.clientOrders[client]? = none) ∨
    ∃ id order index, s.clientOrders[client]? = some id ∧
      s.locate id = some (order, index) ∧ order.status = .scheduled ∧
      s' = s.setOrder index { order with status := .replaced } := by
  obtain ⟨self, _, hget, h⟩ := (bind_ok _ _ _ _ _).1 h
  obtain ⟨rfl, rfl⟩ := (get_ok _ _ _).1 hget
  cases hclient : self.clientOrders[client]? with
  | none =>
    rw [hclient] at h
    obtain ⟨-, rfl⟩ := (pure_ok _ _ _ _).1 h
    exact .inl ⟨rfl, rfl⟩
  | some id =>
    rw [hclient] at h
    simp only [bind_ok, lift_ok, okOr_eq_ok, ensure_eq_ok, set_ok, pure_ok] at h
    obtain ⟨⟨order, index⟩, _, ⟨hlocate, rfl⟩, _, _, ⟨hstatus, rfl⟩, _, _, rfl, -, rfl⟩ := h
    exact .inr ⟨id, order, index, rfl, hlocate, hstatus, rfl⟩

theorem replacePrevious_error {client : ClientOrderId} {e : ScheduledSimulationError}
    (h : replacePrevious client s = .error e s') :
    s' = s ∧ ∀ id order index, s.clientOrders[client]? = some id →
      s.locate id = some (order, index) → order.status ≠ .scheduled := by
  rcases (bind_error _ _ _ _ _).1 h with hget | ⟨self, _, hget, h⟩
  · exact ((get_error _ _ _).1 hget).elim
  obtain ⟨rfl, rfl⟩ := (get_ok _ _ _).1 hget
  cases hclient : self.clientOrders[client]? with
  | none =>
    rw [hclient] at h
    exact ((pure_error _ _ _ _).1 h).elim
  | some id =>
    rw [hclient] at h
    simp only [bind_error, lift_error, lift_ok, okOr_eq_error, okOr_eq_ok, ensure_eq_error,
      set_error, pure_error, and_false, exists_false, or_false] at h
    rcases h with ⟨⟨hlocate, -⟩, rfl⟩ | ⟨⟨order, index⟩, _, ⟨hlocate, rfl⟩, ⟨hstatus, -⟩, rfl⟩
    · refine ⟨rfl, fun id' order index hid hfound => ?_⟩
      rw [← Option.some_inj.1 hid, hlocate] at hfound
      cases hfound
    · refine ⟨rfl, fun id' order' index' hid hfound => ?_⟩
      rw [← Option.some_inj.1 hid, hlocate] at hfound
      cases hfound
      exact hstatus

theorem Shift.replace {id : OrderId} {order : ScheduledOrder} {index : ℕ}
    (hlocate : s.locate id = some (order, index)) (hstatus : order.status = .scheduled) :
    Shift s (s.setOrder index { order with status := .replaced }) := by
  apply Shift.status .replaced (locate_eq_some hlocate).1 _ (by simp) (by simp) (by simp)
  rw [hstatus]
  rfl

theorem submit_ok {submission : ScheduledSubmission}
    (h : submit hash strategyId context outputSequence request s = .ok submission s') :
    ∃ m identity, Shifts s m ∧ m.books = s.books ∧ m.executionFills = s.executionFills ∧
      orderIdentity strategyId context outputSequence request = .ok identity ∧
      Accepts ⟨hash identity⟩ request m s' := by
  simp only [submit, bind_ok, get_ok, lift_ok, set_ok, pure_ok, okOr_eq_ok, mapError_eq_ok] at h
  obtain ⟨_, _, ⟨rfl, rfl⟩, _, _, ⟨hcheck, rfl⟩, replaced, m, hreplaced, identity, _,
      ⟨hidentity, rfl⟩, _, _, ⟨rfl, rfl⟩, h⟩ := h
  obtain ⟨next, _, ⟨-, rfl⟩, _, _, rfl, -, rfl⟩ := h
  have hconfigured := checkSubmission_configured hcheck
  rcases replacePrevious_ok hreplaced with ⟨rfl, -⟩ | ⟨id, order, index, -, hlocate, hstatus, rfl⟩
  · exact ⟨_, identity, .refl, rfl, rfl, hidentity, ⟨_, rfl⟩, rfl, rfl, rfl, rfl, rfl, hconfigured⟩
  · exact ⟨_, identity, .single (Shift.replace hlocate hstatus), rfl, rfl, hidentity, ⟨_, rfl⟩, rfl,
      rfl, rfl, rfl, rfl, hconfigured⟩

/-- A refused submission leaves the state as it was, unless it had already replaced an order. -/
theorem submit_error {e : ScheduledSimulationError}
    (h : submit hash strategyId context outputSequence request s = .error e s') :
    (s' = s ∧ ¬ Replaces s context request) ∨
      (s' ≠ s ∧ Replaces s context request ∧ Shift s s' ∧ s'.books = s.books) := by
  simp only [submit, bind_error, get_error, get_ok, lift_error, lift_ok, set_error, pure_error,
    and_false, exists_false, or_false, false_or] at h
  obtain ⟨_, _, ⟨rfl, rfl⟩, ⟨hcheck, rfl⟩ | ⟨_, _, ⟨hcheck, rfl⟩, h⟩⟩ := h
  · left
    refine ⟨rfl, fun hr => ?_⟩
    rw [hr.1] at hcheck
    cases hcheck
  · rcases h with hreplaced | ⟨replaced, m, hreplaced, h⟩
    · obtain ⟨rfl, hnone⟩ := replacePrevious_error hreplaced
      exact .inl ⟨rfl, fun ⟨_, id, order, index, hid, hlocate, hstatus⟩ =>
        hnone id order index hid hlocate hstatus⟩
    · obtain rfl : s' = m := by
        rcases h with ⟨-, rfl⟩ | ⟨_, _, ⟨-, rfl⟩, _, _, ⟨rfl, rfl⟩, -, rfl⟩ <;> rfl
      rcases replacePrevious_ok hreplaced with
        ⟨rfl, hnone⟩ | ⟨id, order, index, hid, hlocate, hstatus, rfl⟩
      · refine .inl ⟨rfl, fun ⟨_, id, _, _, hid, _⟩ => ?_⟩
        rw [hnone] at hid
        cases hid
      · refine .inr ⟨setOrder_ne (locate_eq_some hlocate).1 ?_,
          ⟨hcheck, id, order, index, hid, hlocate, hstatus⟩, Shift.replace hlocate hstatus, rfl⟩
        intro heq
        rw [← heq] at hstatus
        cases hstatus

end Submit

end Osmium
