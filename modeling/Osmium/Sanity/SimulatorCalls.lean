import Osmium.Sanity.Simulator

/-! The subsequent-event simulator as a machine that is called from outside, in any state and with
calls that may fail. Orders are told apart by their acceptance sequences, and everything granted is
tracked beside them. -/

namespace Osmium
open Machine Bytes Result Stateful Simulator

/-- A call of the simulator's interface. -/
inductive SimCall
  | submit (strategyId : Text) (occurrence : EventOccurrence) (trading : TradingContext)
      (outputSequence : U32)
      (intent : OrderIntent)
  | evaluate (event : DomainEvent) (occurrence : EventOccurrence) (trading : TradingContext)
  | cancelSegmentEnd (segmentId : SessionSegmentId)
  | cancelEndOfRun

/-- What an evaluation grants. -/
def Simulator.evaluateGrants (self : Simulator) (event : DomainEvent) (occurrence : EventOccurrence)
    (trading : TradingContext) : List Grant :=
  if interruptsMatching trading.marketSignal = true ∨ trading.matching.isEnabled = false ∨
    entryStopped trading.newOrderEntry = true then [] else self.matchGrants event occurrence

def SimCall.after (hash : List UInt8 → Digest) (self : Simulator) : SimCall → Simulator
  | .submit strategyId occurrence trading outputSequence intent =>
    stateAfter (Simulator.submit hash strategyId occurrence trading outputSequence intent self)
  | .evaluate event occurrence trading =>
    stateAfter (Simulator.evaluate event occurrence trading self)
  | .cancelSegmentEnd segmentId => stateAfter (Simulator.cancelSegmentEnd segmentId self)
  | .cancelEndOfRun => stateAfter (Simulator.cancelEndOfRun self)

def SimCall.grants (self : Simulator) : SimCall → List Grant
  | .evaluate event occurrence trading => self.evaluateGrants event occurrence trading
  | _ => []

/-- A simulator with everything it granted. -/
structure SimRun where
  simulator : Simulator
  grants : List Grant

def runSim (hash : List UInt8 → Digest) : List SimCall → SimRun → SimRun
  | [], run => run
  | call :: rest, run =>
    runSim hash rest ⟨call.after hash run.simulator, run.grants ++ call.grants run.simulator⟩

/-- What holds of the simulator and its grants after any calls. -/
structure Tracks (model : FillModel) (pricePolicy : PricePolicy) (run : SimRun) : Prop where
  rules : run.simulator.model = model ∧ run.simulator.pricePolicy = pricePolicy
  sorted : (run.simulator.orders.map SimOrder.submitted).Pairwise fun a b =>
      a.acceptanceSequence < b.acceptanceSequence
  submitted : ∀ order ∈ run.simulator.orders.map SimOrder.submitted,
    order.acceptanceSequence < run.simulator.nextAcceptanceSequence
  sound : ∀ order ∈ run.simulator.orders, order.Sound
  filled : ∀ order ∈ run.simulator.orders,
      order.filled.val = grantedTo run.grants order.acceptanceSequence
  fills : run.simulator.fills = run.grants.map Grant.fill
  granted : ∀ grant ∈ run.grants, grant.Justified model pricePolicy ∧
    grant.order.submitted ∈ run.simulator.orders.map SimOrder.submitted

section Calls
variable {hash : List UInt8 → Digest} {self : Simulator}

theorem addLatency_ok {time later : MatchTime} {a b : U64} (h : addLatency time a b = .ok later) :
    later.key = time.key + 1000 * (a.val + b.val) := by
  simp only [addLatency, bind_eq_ok, okOr_eq_ok, pure_eq_ok, Option.bind_eq_some_iff] at h
  obtain ⟨total, htotal, micros, ⟨product, hproduct, hmicros⟩, value, hvalue, rfl⟩ := h
  have h₁ := (Unsigned.checkedAdd_eq_some _ _ _).1 htotal
  have h₂ := (Unsigned.checkedMul_eq_some _ _ _).1 hproduct
  have h₃ := (Signed.ofInt?_eq_some _ _).1 hmicros
  have h₄ := (Signed.checkedAdd_eq_some _ _ _).1 hvalue
  have h₅ : (Unsigned.wrap 64 1000).val = 1000 := rfl
  rw [h₁, h₅] at h₂
  change value.val = time.unixMicroseconds.val + _
  rw [h₄, h₃, h₂]
  push_cast
  ring

/-- The order a submission leads to. -/
structure SimAccepts (hash : List UInt8 → Digest) (simulator : Simulator) (strategyId : Text)
    (occurrence : EventOccurrence)
    (trading : TradingContext) (outputSequence : U32) (intent : OrderIntent)
    (order : SimOrder) : Prop where
  allowed : simulator.rejection trading intent = none
  identity : ∃ identity, orderIdentity strategyId occurrence outputSequence intent = .ok identity ∧
      order.id = ⟨hash identity⟩
  intent : order.intent = intent
  ordinal : order.originOrdinal = occurrence.runEventOrdinal
  segment : order.originSegmentId = trading.session.segmentId
  sequence : order.acceptanceSequence = simulator.nextAcceptanceSequence
  time : addLatency occurrence.orderingKey.matchTime simulator.model.marketDataLatencyMs
      simulator.model.orderLatencyMs =
    .ok order.eligibleMatchTime
  unfilled : order.filled = 0
  pending : order.status = .pending

/-- A submission is refused or fails without effect, or appends one pending order. -/
theorem submit_cases (hash : List UInt8 → Digest) (self : Simulator) (strategyId : Text)
    (occurrence : EventOccurrence)
    (trading : TradingContext) (outputSequence : U32) (intent : OrderIntent) :
    (∃ reason, Simulator.submit hash strategyId occurrence trading outputSequence intent self =
      .ok (.rejected reason) self) ∨
    (∃ e, Simulator.submit hash strategyId occurrence trading outputSequence intent self =
      .error e self) ∨
    ∃ order next, Simulator.submit hash strategyId occurrence trading outputSequence intent self =
      .ok (.accepted order.id)
        { self with orders := self.orders ++ [order], nextAcceptanceSequence := next } ∧
      next.val = self.nextAcceptanceSequence.val + 1 ∧
      SimAccepts hash self strategyId occurrence trading outputSequence intent order := by
  unfold Simulator.submit
  rw [get_bind]
  cases hrejection : self.rejection trading intent with
  | some reason => exact .inl ⟨reason, rfl⟩
  | none =>
    simp only []
    cases hidentity : orderIdentity strategyId occurrence outputSequence intent with
    | error e =>
      have herror : (Except.error e : Except CanonicalEncodingError (List UInt8)).mapError
          SimulationError.canonical =
        .error (.canonical e) := rfl
      exact .inr (.inl ⟨_, by rw [lift_bind_error herror]⟩)
    | ok identity =>
      have hok : (Except.ok identity : Except CanonicalEncodingError (List UInt8)).mapError
          SimulationError.canonical =
        .ok identity := rfl
      rw [lift_bind hok]
      cases htime : addLatency occurrence.orderingKey.matchTime self.model.marketDataLatencyMs
        self.model.orderLatencyMs with
      | error e => exact .inr (.inl ⟨_, by rw [lift_bind_error rfl]⟩)
      | ok time =>
        rw [lift_bind rfl]
        cases hnext : self.nextAcceptanceSequence.checkedAdd (Unsigned.wrap 64 1) with
        | none =>
          have hfull : okOr SimulationError.sequenceOverflow (none : Option U64) =
              .error .sequenceOverflow := rfl
          exact .inr (.inl ⟨_, by rw [lift_bind_error hfull]⟩)
        | some next =>
          have hsome : okOr SimulationError.sequenceOverflow (some next) = .ok next := rfl
          rw [lift_bind hsome]
          exact .inr
            (.inr
              ⟨⟨⟨hash identity⟩, intent, occurrence.runEventOrdinal, time,
                trading.session.segmentId,
            self.nextAcceptanceSequence, 0, .pending⟩, next, rfl,
            (Unsigned.checkedAdd_eq_some _ _ _).1 hnext,
            ⟨hrejection, ⟨identity, hidentity, rfl⟩, rfl, rfl, rfl, rfl, htime, rfl, rfl⟩⟩)

/-- A submission leaves the simulator alone or appends one pending order. -/
theorem stateAfter_submit (hash : List UInt8 → Digest) (self : Simulator) (strategyId : Text)
    (occurrence : EventOccurrence) (trading : TradingContext) (outputSequence : U32)
    (intent : OrderIntent) :
    stateAfter (Simulator.submit hash strategyId occurrence trading outputSequence intent self) =
      self ∨
    ∃ order next,
      stateAfter (Simulator.submit hash strategyId occurrence trading outputSequence intent self) =
        { self with orders := self.orders ++ [order], nextAcceptanceSequence := next } ∧
      next.val = self.nextAcceptanceSequence.val + 1 ∧
      SimAccepts hash self strategyId occurrence trading outputSequence intent order := by
  rcases submit_cases hash self strategyId occurrence trading outputSequence intent with
    ⟨reason, h⟩ | ⟨e, h⟩ | ⟨order, next, h, hfacts⟩
  · exact .inl (by rw [h]; rfl)
  · exact .inl (by rw [h]; rfl)
  · exact .inr ⟨order, next, by rw [h]; rfl, hfacts⟩

theorem stateAfter_evaluate
    (hsorted : self.orders.Pairwise fun a b => a.acceptanceSequence < b.acceptanceSequence)
    (hsound : ∀ order ∈ self.orders, order.Sound) (event : DomainEvent)
    (occurrence : EventOccurrence) (trading : TradingContext) :
    (self.evaluateGrants event occurrence trading = [] ∧ ∃ cancels,
      stateAfter (Simulator.evaluate event occurrence trading self) =
        { self with orders := self.orders.map (cancelOrder cancels) }) ∨
    (self.evaluateGrants event occurrence trading = self.matchGrants event occurrence ∧
      stateAfter (Simulator.evaluate event occurrence trading self) = { self with
        orders := (self.matchResult event occurrence).map Prod.fst
        fills := self.fills ++ (self.matchGrants event occurrence).map Grant.fill }) := by
  unfold Simulator.evaluate evaluateGrants
  by_cases hinterrupt : interruptsMatching trading.marketSignal = true
  · rw [if_pos hinterrupt, if_pos (.inl hinterrupt)]
    exact .inl ⟨rfl, _, rfl⟩
  · rw [if_neg hinterrupt]
    by_cases hstopped : trading.matching.isEnabled = false ∨
      entryStopped trading.newOrderEntry = true
    · rw [if_pos hstopped, if_pos (.inr hstopped)]
      refine .inl ⟨rfl, fun _ => false, ?_⟩
      have hsame : self.orders.map (cancelOrder fun _ => false) = self.orders :=
        (List.map_congr_left fun order _ => by simp [cancelOrder]).trans (List.map_id _)
      rw [hsame]
      rfl
    · rw [if_neg hstopped, if_neg (by rw [not_or]; exact ⟨hinterrupt, hstopped⟩)]
      exact .inr ⟨rfl, stateAfter_matchOrders hsorted hsound⟩

end Calls

section Steps
variable {hash : List UInt8 → Digest} {model : FillModel} {pricePolicy : PricePolicy} {run : SimRun}

theorem submitted_cancelOrder (cancels : SimOrder → Bool) (order : SimOrder) :
    (cancelOrder cancels order).submitted = order.submitted := by
  unfold cancelOrder
  split_ifs
  · rfl
  · rfl

theorem map_submitted_cancelOrder (cancels : SimOrder → Bool) (orders : List SimOrder) :
    (orders.map (cancelOrder cancels)).map SimOrder.submitted = orders.map SimOrder.submitted := by
  rw [List.map_map]
  exact List.map_congr_left fun order _ => submitted_cancelOrder cancels order

theorem SimOrder.Sound.cancelOrder {order : SimOrder} (h : order.Sound)
    (cancels : SimOrder → Bool) :
    (cancelOrder cancels order).Sound := by
  unfold Simulator.cancelOrder
  by_cases hcancel : (order.status.isOpen && cancels order) = true
  · rw [if_pos hcancel]
    have hlt := h.filled_lt (Bool.and_eq_true _ _ ▸ hcancel).1
    exact ⟨h.within, ⟨nofun, fun heq => absurd heq hlt.ne⟩⟩
  · rw [if_neg hcancel]
    exact h

theorem cancelOrder_closed {order : SimOrder} (h : order.status.isOpen = false)
    (cancels : SimOrder → Bool) :
    cancelOrder cancels order = order := by
  simp [cancelOrder, h]

theorem Tracks.order_sorted (h : Tracks model pricePolicy run) :
    run.simulator.orders.Pairwise fun a b => a.acceptanceSequence < b.acceptanceSequence := by
  have hsorted := h.sorted
  rw [List.pairwise_map] at hsorted
  exact hsorted

theorem Tracks.cancel (h : Tracks model pricePolicy run) (cancels : SimOrder → Bool) :
    Tracks model pricePolicy
      ⟨{ run.simulator with orders := run.simulator.orders.map (cancelOrder cancels) },
        run.grants⟩ := by
  have hmap := map_submitted_cancelOrder cancels run.simulator.orders
  refine ⟨h.rules, by rw [hmap]; exact h.sorted, by rw [hmap]; exact h.submitted, ?_, ?_, h.fills,
    ?_⟩
  · intro order horder
    obtain ⟨own, hown, rfl⟩ := List.mem_map.1 horder
    exact (h.sound own hown).cancelOrder cancels
  · intro order horder
    obtain ⟨own, hown, rfl⟩ := List.mem_map.1 horder
    have hfilled : (cancelOrder cancels own).filled = own.filled := by
      unfold cancelOrder
      split_ifs
      · rfl
      · rfl
    have hsequence := congrArg SimOrder.acceptanceSequence (submitted_cancelOrder cancels own)
    rw [hfilled, h.filled own hown]
    exact congrArg _ hsequence.symm
  · rw [hmap]
    exact h.granted

/-- A new order has the next acceptance sequence, which no grant belongs to. -/
theorem Tracks.accept (h : Tracks model pricePolicy run) {order : SimOrder} {next : U64}
    (hnext : next.val = run.simulator.nextAcceptanceSequence.val + 1)
    (hsequence : order.acceptanceSequence = run.simulator.nextAcceptanceSequence)
    (hfilled : order.filled = 0) (hstatus : order.status = .pending) :
    Tracks model pricePolicy
      ⟨{ run.simulator with orders := run.simulator.orders ++ [order], nextAcceptanceSequence :=
        next }, run.grants⟩ := by
  have hzero : order.filled.val = 0 := by
    rw [hfilled]
    rfl
  have hsame : order.submitted = order := by
    rw [SimOrder.submitted, ← hfilled, ← hstatus]
  have hmap : (run.simulator.orders ++ [order]).map SimOrder.submitted =
      run.simulator.orders.map SimOrder.submitted ++ [order] := by
    rw [List.map_append, List.map_singleton, hsame]
  have hlt : ∀ other ∈ run.simulator.orders.map SimOrder.submitted,
      other.acceptanceSequence < order.acceptanceSequence :=
    fun other hother => hsequence ▸ h.submitted other hother
  refine ⟨h.rules, ?_, ?_, ?_, ?_, h.fills, ?_⟩
  · rw [hmap]
    refine List.pairwise_append.2
      ⟨h.sorted, List.pairwise_singleton _ _, fun other hother last hlast => ?_⟩
    rw [List.mem_singleton.1 hlast]
    exact hlt other hother
  · rw [hmap]
    intro other hother
    rcases List.mem_append.1 hother with hother | hother
    · have hfresh := h.submitted other hother
      rw [Unsigned.lt_iff] at hfresh ⊢
      change _ < next.val
      omega
    · obtain rfl := List.mem_singleton.1 hother
      rw [Unsigned.lt_iff]
      change _ < next.val
      rw [hsequence]
      omega
  · intro other hother
    rcases List.mem_append.1 hother with hother | hother
    · exact h.sound other hother
    · obtain rfl := List.mem_singleton.1 hother
      have hpos := other.intent.quantity.pos
      refine ⟨by omega, ?_⟩
      rw [hstatus]
      exact ⟨nofun, fun heq => by omega⟩
  · intro other hother
    rcases List.mem_append.1 hother with hother | hother
    · exact h.filled other hother
    · obtain rfl := List.mem_singleton.1 hother
      rw [hzero]
      refine (grantedTo_eq_zero fun grant hgrant => ?_).symm
      exact (hlt grant.order.submitted (h.granted grant hgrant).2).ne
  · intro grant hgrant
    obtain ⟨hjustified, hmem⟩ := h.granted grant hgrant
    rw [hmap]
    exact ⟨hjustified, List.mem_append_left _ hmem⟩

/-- A pass records its grants with the orders it fills. -/
theorem Tracks.fill (h : Tracks model pricePolicy run) (event : DomainEvent)
    (occurrence : EventOccurrence) :
    Tracks model pricePolicy ⟨{ run.simulator with
        orders := (run.simulator.matchResult event occurrence).map Prod.fst
        fills :=
          run.simulator.fills ++ (run.simulator.matchGrants event occurrence).map Grant.fill },
      run.grants ++ run.simulator.matchGrants event occurrence⟩ := by
  have hpasses : List.Forall₂ (run.simulator.Passes event occurrence) run.simulator.orders
      (run.simulator.matchResult event occurrence) :=
    passResult_passes (offers_available run.simulator event)
  have hmap := submitted_of_passes hpasses
  have hfilled := filled_of_passes hpasses h.order_sorted h.sound
  refine ⟨h.rules, by rw [hmap]; exact h.sorted, by rw [hmap]; exact h.submitted, ?_, ?_, ?_, ?_⟩
  · intro order horder
    obtain ⟨entry, hentry, rfl⟩ := List.mem_map.1 horder
    obtain ⟨-, -, -, hsound, -⟩ := hfilled entry hentry
    exact hsound
  · intro order horder
    obtain ⟨entry, hentry, rfl⟩ := List.mem_map.1 horder
    obtain ⟨own, hown, hsubmitted, -, hsum⟩ := hfilled entry hentry
    rw [hsum, grantedTo_append, h.filled own hown, (SimOrder.eq_of_submitted hsubmitted).2.2]
    rfl
  · rw [List.map_append, ← h.fills]
  · rw [hmap]
    intro grant hgrant
    rcases List.mem_append.1 hgrant with hgrant | hgrant
    · exact h.granted grant hgrant
    · obtain ⟨hmem, rfl, rfl, hjustified⟩ := grant_of_passes hpasses hgrant
      rw [h.rules.1, h.rules.2] at hjustified
      exact ⟨hjustified, List.mem_map_of_mem hmem⟩

theorem Tracks.after (hash : List UInt8 → Digest) (h : Tracks model pricePolicy run)
    (call : SimCall) :
    Tracks model pricePolicy
      ⟨call.after hash run.simulator, run.grants ++ call.grants run.simulator⟩ := by
  cases call with
  | submit strategyId occurrence trading outputSequence intent =>
    simp only [SimCall.after, SimCall.grants, List.append_nil]
    rcases stateAfter_submit hash run.simulator strategyId occurrence trading
      outputSequence intent with
      hsame | ⟨order, next, hstate, hnext, haccepts⟩
    · rw [hsame]
      exact h
    · rw [hstate]
      exact h.accept hnext haccepts.sequence haccepts.unfilled haccepts.pending
  | evaluate event occurrence trading =>
    simp only [SimCall.after, SimCall.grants]
    rcases stateAfter_evaluate h.order_sorted h.sound event occurrence trading with
      ⟨hnone, cancels, hstate⟩ | ⟨hgrants, hstate⟩
    · rw [hnone, hstate, List.append_nil]
      exact h.cancel cancels
    · rw [hgrants, hstate]
      exact h.fill event occurrence
  | cancelSegmentEnd segmentId =>
    simp only [SimCall.grants, List.append_nil]
    exact h.cancel _
  | cancelEndOfRun =>
    simp only [SimCall.grants, List.append_nil]
    exact h.cancel _

theorem Tracks.afterAll {run : SimRun} (h : Tracks model pricePolicy run) (more : List SimCall) :
    Tracks model pricePolicy (runSim hash more run) := by
  induction more generalizing run with
  | nil => exact h
  | cons call rest ih =>
    rw [runSim]
    exact ih (h.after hash call)

/-- No call changes an order that is not open. -/
theorem Tracks.closed_after (h : Tracks model pricePolicy run) (call : SimCall) {index : ℕ}
    {order : SimOrder}
    (horder : run.simulator.orders[index]? = some order) (hclosed : order.status.isOpen = false) :
    (call.after hash run.simulator).orders[index]? = some order := by
  have hcancel : ∀ cancels, (run.simulator.orders.map (cancelOrder cancels))[index]? =
      some order := by
    intro cancels
    rw [List.getElem?_map, horder, Option.map_some, cancelOrder_closed hclosed]
  cases call with
  | submit strategyId occurrence trading outputSequence intent =>
    rw [SimCall.after]
    rcases stateAfter_submit hash run.simulator strategyId occurrence trading
      outputSequence intent with
      hsame | ⟨_, _, hstate, -⟩
    · rw [hsame]
      exact horder
    · rw [hstate]
      exact List.getElem?_append_left (List.getElem?_eq_some_iff.1 horder).1 |>.trans horder
  | evaluate event occurrence trading =>
    rw [SimCall.after]
    rcases stateAfter_evaluate h.order_sorted h.sound event occurrence trading with
      ⟨-, cancels, hstate⟩ | ⟨-, hstate⟩
    · rw [hstate]
      exact hcancel cancels
    · rw [hstate]
      exact passes_closed (passResult_passes (offers_available run.simulator event)) horder hclosed
  | cancelSegmentEnd segmentId => exact hcancel _
  | cancelEndOfRun => exact hcancel _

theorem Tracks.closed_run {run : SimRun} (h : Tracks model pricePolicy run)
    (more : List SimCall) {index : ℕ}
    {order : SimOrder} (horder : run.simulator.orders[index]? = some order)
    (hclosed : order.status.isOpen = false) :
    (runSim hash more run).simulator.orders[index]? = some order := by
  induction more generalizing run with
  | nil => exact horder
  | cons call rest ih =>
    rw [runSim]
    exact ih (h.after hash call) (h.closed_after call horder hclosed)

/-- The same order later on: it may have been filled or closed, but not opened again. -/
def SimOrder.Follows (before after : SimOrder) : Prop :=
  after.submitted = before.submitted ∧ (after.status.isOpen = true → before.status.isOpen = true)

theorem submitted_of_follows {before after : List SimOrder}
    (h : List.Forall₂ SimOrder.Follows before after) :
    before.map SimOrder.submitted = after.map SimOrder.submitted := by
  rw [← List.forall₂_eq_eq_eq, List.forall₂_map_left_iff, List.forall₂_map_right_iff]
  exact h.imp fun _ _ hfollows => hfollows.1.symm

theorem follows_cancelOrder (cancels : SimOrder → Bool) (orders : List SimOrder) :
    List.Forall₂ SimOrder.Follows orders (orders.map (cancelOrder cancels)) := by
  refine List.forall₂_map_right_iff.2
    (List.forall₂_same.2 fun order _ => ⟨submitted_cancelOrder cancels order, ?_⟩)
  unfold cancelOrder
  split_ifs
  · exact nofun
  · exact id

theorem follows_of_passes {self : Simulator} {event : DomainEvent} {occurrence : EventOccurrence}
    {orders : List SimOrder} {result : List (SimOrder × Option Grant)}
    (h : List.Forall₂ (self.Passes event occurrence) orders result) :
    List.Forall₂ SimOrder.Follows orders (result.map Prod.fst) := by
  refine List.forall₂_map_right_iff.2 (h.imp fun order entry hpass => ?_)
  rcases hpass with rfl | ⟨grant, rfl, rfl, -, -, hjustified⟩
  · exact ⟨rfl, id⟩
  · exact ⟨rfl, fun _ => hjustified.isOpen⟩

/-- Only an accepted submission adds an order; every call leaves the others the orders they were. -/
theorem Tracks.orders_after (hash : List UInt8 → Digest) (h : Tracks model pricePolicy run)
    (call : SimCall) :
    (List.Forall₂ SimOrder.Follows run.simulator.orders (call.after hash run.simulator).orders ∧
      (call.after hash run.simulator).nextAcceptanceSequence =
        run.simulator.nextAcceptanceSequence) ∨
    ∃ strategyId occurrence trading outputSequence intent order next,
      call = .submit strategyId occurrence trading outputSequence intent ∧
      call.after hash run.simulator =
        { run.simulator with
          orders := run.simulator.orders ++ [order], nextAcceptanceSequence := next } ∧
      SimAccepts hash run.simulator strategyId occurrence trading outputSequence intent order := by
  have hsame : List.Forall₂ SimOrder.Follows run.simulator.orders run.simulator.orders :=
    List.forall₂_same.2 fun order _ => ⟨rfl, id⟩
  cases call with
  | submit strategyId occurrence trading outputSequence intent =>
    rw [SimCall.after]
    rcases stateAfter_submit hash run.simulator strategyId occurrence trading
      outputSequence intent with
      hstate | ⟨order, next, hstate, -, haccepts⟩
    · rw [hstate]
      exact .inl ⟨hsame, rfl⟩
    · exact .inr ⟨strategyId, occurrence, trading, outputSequence, intent, order, next, rfl,
        hstate, haccepts⟩
  | evaluate event occurrence trading =>
    rw [SimCall.after]
    rcases stateAfter_evaluate h.order_sorted h.sound event occurrence trading with
      ⟨-, cancels, hstate⟩ | ⟨-, hstate⟩
    · rw [hstate]
      exact .inl ⟨follows_cancelOrder cancels _, rfl⟩
    · rw [hstate]
      exact .inl ⟨follows_of_passes (passResult_passes (offers_available run.simulator event)), rfl⟩
  | cancelSegmentEnd segmentId => exact .inl ⟨follows_cancelOrder _ _, rfl⟩
  | cancelEndOfRun => exact .inl ⟨follows_cancelOrder _ _, rfl⟩

/-- An order of a run was there from the start, or a submission of the run has led to it. -/
theorem Tracks.exists_submission (hash : List UInt8 → Digest) {run : SimRun}
    (h : Tracks model pricePolicy run) (calls : List SimCall) {order : SimOrder}
    (horder : order ∈ (runSim hash calls run).simulator.orders) :
    (∃ own ∈ run.simulator.orders, own.submitted = order.submitted) ∨
    ∃ before strategyId origin entryTrading outputSequence later,
      calls =
        before ++ .submit strategyId origin entryTrading outputSequence order.intent :: later ∧
      SimAccepts hash (runSim hash before run).simulator strategyId origin entryTrading
        outputSequence order.intent
        order.submitted := by
  induction calls generalizing run with
  | nil => exact .inl ⟨order, horder, rfl⟩
  | cons call rest ih =>
    rw [runSim] at horder
    rcases ih (h.after hash call) horder with
      ⟨own, hown, hsame⟩ | ⟨before, _, _, _, _, later, rfl, haccepts⟩
    · rcases h.orders_after hash call with ⟨hfollows, -⟩ |
        ⟨strategyId, origin, entryTrading, outputSequence, intent, new, _, rfl, hafter, haccepts⟩
      · have hmem : own.submitted ∈ run.simulator.orders.map SimOrder.submitted := by
          rw [submitted_of_follows hfollows]
          exact List.mem_map_of_mem hown
        obtain ⟨old, hold, hsubmitted⟩ := List.mem_map.1 hmem
        exact .inl ⟨old, hold, hsubmitted.trans hsame⟩
      · simp only [hafter, List.mem_append, List.mem_singleton] at hown
        rcases hown with hold | rfl
        · exact .inl ⟨own, hold, hsame⟩
        · have hnew : own.submitted = own := by
            rw [SimOrder.submitted, ← haccepts.unfilled, ← haccepts.pending]
          obtain rfl : intent = order.intent :=
            haccepts.intent.symm.trans (SimOrder.eq_of_submitted hsame).2.1
          rw [hnew] at hsame
          exact .inr
            ⟨[], strategyId, origin, entryTrading, outputSequence, rest, rfl, hsame ▸ haccepts⟩
    · exact .inr ⟨call :: before, _, _, _, _, later, rfl, haccepts⟩

/-- Everything granted in a run was granted by one of its evaluations. -/
theorem mem_grants_runSim (hash : List UInt8 → Digest) {calls : List SimCall} {run : SimRun}
    {grant : Grant} (h : grant ∈ (runSim hash calls run).grants) :
    grant ∈ run.grants ∨ ∃ before event occurrence trading after,
      calls = before ++ .evaluate event occurrence trading :: after ∧
      grant ∈ (runSim hash before run).simulator.evaluateGrants event occurrence trading := by
  induction calls generalizing run with
  | nil => exact .inl h
  | cons call rest ih =>
    rw [runSim] at h
    rcases ih h with hnow | ⟨before, event, occurrence, trading, after, rfl, hgrant⟩
    · rcases List.mem_append.1 hnow with hold | hnew
      · exact .inl hold
      · cases call with
        | evaluate event occurrence trading =>
          exact .inr ⟨[], event, occurrence, trading, rest, rfl, hnew⟩
        | submit _ _ _ _ _ => cases hnew
        | cancelSegmentEnd _ => cases hnew
        | cancelEndOfRun => cases hnew
    · exact .inr ⟨call :: before, event, occurrence, trading, after, rfl, hgrant⟩

theorem Tracks.initial (instruments : List InstrumentId) (quantityUnit : QuantityUnit)
    (model : FillModel) (pricePolicy : PricePolicy) :
    Tracks model pricePolicy
      ⟨newWithPricePolicy instruments quantityUnit model pricePolicy, []⟩ := by
  refine ⟨⟨rfl, rfl⟩, .nil, ?_, ?_, ?_, rfl, ?_⟩
  · exact fun _ horder => by cases horder
  · exact fun _ horder => by cases horder
  · exact fun _ horder => by cases horder
  · exact fun _ hgrant => by cases hgrant

end Steps

end Osmium
