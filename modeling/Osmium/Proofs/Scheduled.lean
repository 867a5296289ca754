import Osmium.Sanity.OrderTable

/-! The scheduled simulator over whole runs of calls, failing ones included: what a failed call
leaves behind, how displayed liquidity is used up, and how orders move and fill. -/

namespace Osmium
open Machine Bytes Result Stateful ScheduledDepthSimulator

section Example

/-- A polynomial digest, for concrete runs. -/
def sampleHash (bytes : List UInt8) : Digest :=
  let value := bytes.foldl (fun acc byte => (acc * 257 + byte.toNat + 1) % 256 ^ 32) 0
  ⟨(List.range 32).map fun i => UInt8.ofNat (value / 256 ^ i), by simp⟩

def sampleInstrument : InstrumentId := ⟨.twse, ⟨⟨[50], by decide⟩, rfl⟩⟩

def samplePrice (units : ℤ) : Price := ⟨⟨Signed.wrap 128 (units * Decimal.scaleFactor)⟩⟩

def sampleLots (n : ℕ) (h : 0 < (Unsigned.wrap 64 n).val) : Quantity :=
  ⟨Unsigned.wrap 64 n, .tradingUnit, h⟩

theorem oneLot : 0 < (Unsigned.wrap 64 1).val := by decide

theorem tenLots : 0 < (Unsigned.wrap 64 10).val := by decide

def sampleTime (micros : ℤ) : MatchTime := ⟨Signed.wrap 64 micros⟩

/-- Ten lots bid at one, and ten offered at a hundred. -/
def sampleBook : CompleteBookSnapshot where
  bids :=
    ⟨.bid, none, #v[some ⟨samplePrice 1, sampleLots 10 (by decide)⟩, none, none, none,
      none], by decide +kernel⟩
  asks :=
    ⟨.ask, none, #v[some ⟨samplePrice 100, sampleLots 10 (by decide)⟩, none, none, none, none],
    by decide +kernel⟩
  valid := by decide +kernel

/-- One instrument with positive prices, five levels, a second of staleness and a slippage of one.
-/
def sampleDepthConfig : ScheduledInstrumentConfig where
  instrument := sampleInstrument
  quantityUnit := .tradingUnit
  model :=
    ⟨5, Unsigned.wrap 64 1000, (samplePrice 1).value, by decide, by decide, by decide +kernel⟩
  pricePolicy := .positiveOnly

def sampleSimulator : ScheduledDepthSimulator where
  configs := (∅ : Std.ExtTreeMap InstrumentId InstrumentProfile).insert sampleInstrument
    ⟨.tradingUnit, sampleDepthConfig.model, .positiveOnly⟩
  books := ∅
  tradingStates := ∅
  orders := []
  clientOrders := ∅
  fills := []
  executionFills := []
  nextAcceptanceSequence := Unsigned.wrap 64 1

theorem new_sampleDepthConfig :
    ScheduledDepthSimulator.new [sampleDepthConfig] = .ok sampleSimulator := rfl

def sampleEvidence (matched visible : ℤ) (h : sampleTime matched ≤ sampleTime visible) :
    VisibleBookEvidence where
  instrument := sampleInstrument
  book := sampleBook
  matchTime := sampleTime matched
  visibleAt := sampleTime visible
  matching := .enabled .continuous
  newOrderEntry := .allowed
  causal := h

/-- A market order for one lot that stays active, under a one-letter client identity. -/
def sampleRequest (letter : UInt8) (h : isUtf8 [letter] = true) (side : OrderSide)
    (activateAt : ℤ) :
    ScheduledOrderRequest where
  clientOrderId := ⟨⟨[letter], h⟩, rfl⟩
  batchId := none
  activateAt := sampleTime activateAt
  expireAt := none
  intent := ⟨sampleInstrument, side, sampleLots 1 oneLot, .market⟩
  executionPolicy := .visibleDepthUntilExpiryV1
  activeWindow := by simp

theorem length_sevens : (List.replicate 32 (7 : UInt8)).length = 32 := rfl

def sampleSubmission (outputSequence : ℕ) (request : ScheduledOrderRequest) : OrderSubmission where
  strategyId := ⟨[115], Eq.refl true⟩
  context := ⟨⟨List.replicate 32 7, length_sevens⟩, sampleTime 0⟩
  outputSequence := Unsigned.wrap 32 outputSequence
  request := request

def sampleBuy : OrderSubmission := sampleSubmission 0 (sampleRequest 97 (by decide) .buy 10)

def sampleSell : OrderSubmission := sampleSubmission 1 (sampleRequest 98 (by decide) .sell 10)

end Example

section Atomicity
variable (hash : List UInt8 → Digest)

/-- The calls that, when they fail, have not yet written anything: a submission that replaces no
order, and an evaluation whose first order in acceptance order is itself refused by the checks
before its match. -/
def SimulatorCall.FailsClean (s : ScheduledDepthSimulator) : SimulatorCall → Prop
  | .submit o => ¬ Replaces s o.context o.request
  | .evaluateActive instrument _ time => ∃ index order e,
    (s.eligibleOrders (passiveEligible instrument)).head? = some index ∧
    s.orders[index]? = some order ∧
      s.passiveSweep order time = .error e
  | _ => True

/-- A failed call of a sound simulator leaves the state unchanged exactly when it failed clean. -/
theorem SimulatorCall.unchanged_iff {s s' : ScheduledDepthSimulator} {call : SimulatorCall}
    {e : ScheduledSimulationError} (hs : Sound s) (h : call.run hash s = .error e s') :
    s' = s ↔ call.FailsClean s := by
  cases call with
  | submit o =>
    rcases submit_error hash ((map_error _ _ _ _ _).1 h) with ⟨rfl, hnot⟩ | ⟨hne, hreplaces, -⟩
    · exact ⟨fun _ => hnot, fun _ => rfl⟩
    · exact ⟨fun heq => absurd heq hne, fun hnot => absurd hreplaces hnot⟩
  | cancelBeforeActivation client =>
    exact iff_of_true
      (cancelBeforeActivation_atomic client s e s' ((map_error _ _ _ _ _).1 h)) trivial
  | activate id controlSequence time =>
    have hrun := (map_error _ _ _ _ _).1 h
    rcases activate_outcome hash hs id controlSequence time with
      ⟨e', herror, -⟩ | ⟨_, _, _, _, hok, -⟩
    · rw [herror] at hrun
      cases hrun
      exact iff_of_true rfl trivial
    · rw [hok] at hrun
      cases hrun
  | expire id time =>
    exact iff_of_true (expire_atomic id time s e s' ((map_error _ _ _ _ _).1 h)) trivial
  | evaluateActive instrument controlSequence time =>
    exact executePassiveOrders_unchanged hash hs nodup_eligibleOrders (waiting_eligible instrument)
      ((map_error _ _ _ _ _).1 h)
  | evaluateAuctionMatch evidence =>
    have hrun := (map_error _ _ _ _ _).1 h
    rcases evaluateAuctionMatch_outcome hash s evidence with ⟨e', herror, -⟩ | ⟨_, _, hok, -⟩
    · rw [herror] at hrun
      cases hrun
      exact iff_of_true rfl trivial
    · rw [hok] at hrun
      cases hrun
  | cancelActiveMarketOrders instrument =>
    exact iff_of_true
      (cancelActiveMarketOrders_atomic instrument s e s' ((map_error _ _ _ _ _).1 h)) trivial
  | publishVisibleBook evidence =>
    exact iff_of_true
      (publishVisibleBook_atomic evidence s e s' ((map_error _ _ _ _ _).1 h)) trivial
  | publishVisibleTradingState evidence =>
    exact iff_of_true
      (publishVisibleTradingState_atomic evidence s e s' ((map_error _ _ _ _ _).1 h)) trivial

/-- In every reachable state, a call that fails leaves the state as it was exactly when it failed
clean. -/
theorem failed_call_unchanged_iff (configs : List ScheduledInstrumentConfig)
    (s₀ : ScheduledDepthSimulator)
    (new : ScheduledDepthSimulator.new configs = .ok s₀) (calls : List SimulatorCall)
    (call : SimulatorCall) (e : ScheduledSimulationError) (s' : ScheduledDepthSimulator)
    (fails : call.run hash (runCalls hash calls s₀) = .error e s') :
    s' = runCalls hash calls s₀ ↔ call.FailsClean (runCalls hash calls s₀) :=
  SimulatorCall.unchanged_iff hash (runCalls_sound hash (new_sound_simulator new) calls) fails

/-- An active sell in front of a book that leaves no positive price for it. -/
def sampleUnsellable : List SimulatorCall :=
  [.submit sampleSell,
    .activate ((sampleSell.orderId sampleHash).getD ⟨sampleHash []⟩) (Unsigned.wrap 64 1)
      (sampleTime 10),
    .publishVisibleBook (sampleEvidence 20 20 (by decide +kernel))]

/-- The evaluation finds the sell first and refuses it, and its client identity is not free for
another submission: both calls fail and nothing has happened. -/
theorem refused_sell_unchanged :
    (∃ e s',
      (SimulatorCall.evaluateActive sampleInstrument (Unsigned.wrap 64 2) (sampleTime 20)).run
        sampleHash
        (runCalls sampleHash sampleUnsellable sampleSimulator) = .error e s' ∧
      s' = runCalls sampleHash sampleUnsellable sampleSimulator) ∧
    ∃ e s', (SimulatorCall.submit sampleSell).run sampleHash
      (runCalls sampleHash sampleUnsellable sampleSimulator) =
        .error e s' ∧
      s' = runCalls sampleHash sampleUnsellable sampleSimulator := by
  have hlength : (runCalls sampleHash sampleUnsellable sampleSimulator).orders.length = 1 := by
    decide +kernel
  have heligible : (runCalls sampleHash sampleUnsellable sampleSimulator).eligibleOrders
      (passiveEligible sampleInstrument) = [0] := by decide +kernel
  have hrefused : ∀ order ∈ (runCalls sampleHash sampleUnsellable sampleSimulator).orders,
      order.status = .active ∧
      ((runCalls sampleHash sampleUnsellable sampleSimulator).passiveSweep order
        (sampleTime 20)).toOption = none := by
    decide +kernel
  obtain ⟨order, horders⟩ := List.length_eq_one_iff.1 hlength
  rw [horders, List.forall_mem_singleton] at hrefused
  obtain ⟨hactive, hsweep⟩ := hrefused
  constructor
  · obtain ⟨e, s', hfails, -⟩ := exists_of_failsAnd (p := fun _ _ => true)
      (r :=
        (SimulatorCall.evaluateActive sampleInstrument (Unsigned.wrap 64 2) (sampleTime 20)).run
          sampleHash
        (runCalls sampleHash sampleUnsellable sampleSimulator)) (by decide +kernel)
    cases hrefused :
      (runCalls sampleHash sampleUnsellable sampleSimulator).passiveSweep order (sampleTime 20) with
    | ok sweep =>
      rw [hrefused] at hsweep
      cases hsweep
    | error e' =>
      refine ⟨e, s', hfails,
        (failed_call_unchanged_iff sampleHash [sampleDepthConfig] sampleSimulator
        new_sampleDepthConfig sampleUnsellable _ e s' hfails).2 ⟨0, order, e', ?_, ?_, hrefused⟩⟩
      · rw [heligible, List.head?_cons]
      · rw [horders, List.getElem?_cons_zero]
  · obtain ⟨e, s', hfails, -⟩ := exists_of_failsAnd (p := fun _ _ => true)
      (r := (SimulatorCall.submit sampleSell).run sampleHash
        (runCalls sampleHash sampleUnsellable sampleSimulator)) (by decide +kernel)
    refine ⟨e, s', hfails, (failed_call_unchanged_iff sampleHash [sampleDepthConfig] sampleSimulator
      new_sampleDepthConfig sampleUnsellable _ e s' hfails).2 ?_⟩
    rintro ⟨-, id, other, index, -, hlocate, hscheduled⟩
    have hmem := List.mem_of_getElem? (locate_eq_some hlocate).1
    rw [horders, List.mem_singleton] at hmem
    rw [hmem, hactive] at hscheduled
    cases hscheduled

/-- A buy and a sell, both active, in front of a book that leaves no positive price for the sell. -/
def sampleCrossing : List SimulatorCall :=
  [.submit sampleBuy, .submit sampleSell,
    .activate ((sampleBuy.orderId sampleHash).getD ⟨sampleHash []⟩) (Unsigned.wrap 64 1)
      (sampleTime 10),
    .activate ((sampleSell.orderId sampleHash).getD ⟨sampleHash []⟩) (Unsigned.wrap 64 2)
      (sampleTime 10),
    .publishVisibleBook (sampleEvidence 20 20 (by decide +kernel))]

/-- The buy is filled before the sell is refused, and the evaluation fails with that fill recorded.
-/
theorem refused_evaluation_keeps_fill :
    ∃ s₀ e s', ScheduledDepthSimulator.new [sampleDepthConfig] = .ok s₀ ∧
    (SimulatorCall.evaluateActive sampleInstrument (Unsigned.wrap 64 3) (sampleTime 20)).run
      sampleHash
      (runCalls sampleHash sampleCrossing s₀) = .error e s' ∧
    s' ≠ runCalls sampleHash sampleCrossing s₀ := by
  obtain ⟨e, s', hfails, hfills⟩ := exists_of_failsAnd (p := fun _ s => s.fills.length = 1)
    (r :=
      (SimulatorCall.evaluateActive sampleInstrument (Unsigned.wrap 64 3) (sampleTime 20)).run
        sampleHash
      (runCalls sampleHash sampleCrossing sampleSimulator)) (by decide +kernel)
  refine ⟨sampleSimulator, e, s', new_sampleDepthConfig, hfails, fun heq => ?_⟩
  have hnone : (runCalls sampleHash sampleCrossing sampleSimulator).fills.length = 0 := by
    decide +kernel
  rw [heq] at hfills
  simp [hnone] at hfills

end Atomicity

section Liquidity
variable (hash : List UInt8 → Digest)

/-- The depth fills since the current book of each instrument was published. -/
abbrev TakenFills := InstrumentId → List ExecutionFillFeedback

/-- A fresh book starts over; every other call adds what it took from depth. -/
def SimulatorCall.takenAfter (s : ScheduledDepthSimulator) (call : SimulatorCall)
    (r : SimulatorReturn) (taken : TakenFills) : TakenFills :=
  match call with
  | .publishVisibleBook evidence => Function.update taken evidence.instrument []
  | call => fun instrument => taken instrument ++ call.depthFills s r

/-- A run of successful calls, with the fills taken from each current book. -/
def tradeCalls : List SimulatorCall → ScheduledDepthSimulator → TakenFills →
    Except ScheduledSimulationError (ScheduledDepthSimulator × TakenFills)
  | [], s, taken => .ok (s, taken)
  | call :: rest, s, taken =>
    match call.run hash s with
    | .ok r s' => tradeCalls rest s' (call.takenAfter s r taken)
    | .error e _ => .error e

/-- Every published book has been consumed by exactly the fills taken from it. -/
def Conserved (s : ScheduledDepthSimulator) (taken : TakenFills) : Prop :=
  ∀ (instrument : InstrumentId) (book : VisibleBookState), s.books[instrument]? = some book →
  ∀ side, ∀ k < bookDepth,
    consumedAt (book.consumed side) k = feedbackTaken (taken instrument) instrument side (k + 1)

theorem Conserved.insert {s s' : ScheduledDepthSimulator} {taken : TakenFills}
    {evidence : VisibleBookEvidence} (h : Conserved s taken)
    (hbooks : s'.books = s.books.insert evidence.instrument (freshBook evidence)) :
    Conserved s' (Function.update taken evidence.instrument []) := by
  intro instrument book hbook side k hk
  rw [hbooks, Std.ExtTreeMap.getElem?_insert] at hbook
  by_cases hi : instrument = evidence.instrument
  · subst hi
    rw [if_pos Std.ReflCmp.compare_self] at hbook
    cases hbook
    rw [freshBook_consumedAt, Function.update_self]
    rfl
  · rw [if_neg fun hcmp => hi (Std.LawfulEqCmp.eq_of_compare hcmp).symm] at hbook
    rw [Function.update_of_ne hi]
    exact h instrument book hbook side k hk

theorem Conserved.take {s s' : ScheduledDepthSimulator} {taken : TakenFills}
    {fills : List ExecutionFillFeedback} (h : Conserved s taken) (htake : BooksTake fills s s') :
    Conserved s' fun instrument => taken instrument ++ fills := by
  intro instrument book' hbook' side k hk
  obtain ⟨book, hbook, -, hgrown⟩ := htake instrument book' hbook'
  rw [hgrown side k hk, h instrument book hbook side k hk, feedbackTaken_append]

theorem Conserved.call {s s' : ScheduledDepthSimulator} {taken : TakenFills} {call : SimulatorCall}
    {r : SimulatorReturn}
    (hs : Sound s) (h : Conserved s taken) (hrun : call.run hash s = .ok r s') :
    Conserved s' (call.takenAfter s r taken) := by
  rcases call.books hash hs hrun with ⟨evidence, rfl, hbooks⟩ | ⟨hother, htake⟩
  · exact h.insert hbooks
  · have hafter : call.takenAfter s r taken = fun instrument =>
        taken instrument ++ call.depthFills s r := by
      cases call with
      | publishVisibleBook evidence => exact absurd rfl (hother evidence)
      | _ => rfl
    rw [hafter]
    exact h.take htake

theorem tradeCalls_conserved {calls : List SimulatorCall} {s s' : ScheduledDepthSimulator}
    {taken taken' : TakenFills} (hs : Sound s) (h : Conserved s taken)
    (hrun : tradeCalls hash calls s taken = .ok (s', taken')) :
    Sound s' ∧ Conserved s' taken' := by
  induction calls generalizing s taken with
  | nil =>
    cases hrun
    exact ⟨hs, h⟩
  | cons call rest ih =>
    unfold tradeCalls at hrun
    cases hcall : call.run hash s with
    | error e m =>
      rw [hcall] at hrun
      cases hrun
    | ok r m =>
      rw [hcall] at hrun
      have hsound := (call.advances hash hs).1
      rw [hcall] at hsound
      exact ih hsound (h.call hash hs hcall) hrun

/-- Over any run of successful calls, the consumption of every level of every published book is what
was taken from it since the book was published, never more than is displayed, and no call then finds
more consumed than displayed. -/
theorem displayed_liquidity_conserved (configs : List ScheduledInstrumentConfig)
    (s₀ : ScheduledDepthSimulator)
    (new : ScheduledDepthSimulator.new configs = .ok s₀) (calls : List SimulatorCall)
    (s : ScheduledDepthSimulator)
    (taken : TakenFills) (run : tradeCalls hash calls s₀ (fun _ => []) = .ok (s, taken)) :
    (∀ (instrument : InstrumentId) (book : VisibleBookState),
      s.books[instrument]? = some book → ∀ side,
      (∀ k < bookDepth,
        consumedAt (book.consumed side) k =
          feedbackTaken (taken instrument) instrument side (k + 1)) ∧
      ∀ (k : ℕ) (level : BookLevel), (book.evidence.book.opposite side).levels[k]? = some level →
        consumedAt (book.consumed side) k ≤ level.displayedQuantity.value.val) ∧
    ∀ (call : SimulatorCall) (e : ScheduledSimulationError) (s' : ScheduledDepthSimulator),
      call.run hash s = .error e s' →
      ∀ k, e ≠ .depthSweep (.consumedQuantityExceedsDisplayed k) := by
  have hempty : Conserved s₀ fun _ => [] := by
    intro instrument book hbook
    simp [(new_ok new).1] at hbook
  obtain ⟨hs, hconserved⟩ := tradeCalls_conserved hash (new_sound_simulator new) hempty run
  refine ⟨fun instrument book hbook side =>
    ⟨hconserved instrument book hbook side, hs.within instrument book hbook side⟩,
    fun call e s' hfails k => ?_⟩
  rintro rfl
  exact Bool.noConfusion (call.not_overconsumed hash hs hfails)

def sampleTaking : List SimulatorCall :=
  [.submit sampleBuy,
    .activate ((sampleBuy.orderId sampleHash).getD ⟨sampleHash []⟩) (Unsigned.wrap 64 1)
      (sampleTime 10),
    .publishVisibleBook (sampleEvidence 20 20 (by decide +kernel)),
    .evaluateActive sampleInstrument (Unsigned.wrap 64 2) (sampleTime 20)]

/-- One lot is taken from the offer, and one is consumed. -/
theorem liquidity_conserved_after_buy :
    ∃ s taken book, tradeCalls sampleHash sampleTaking sampleSimulator (fun _ => []) =
      .ok (s, taken) ∧ s.books[sampleInstrument]? = some book ∧
      consumedAt (book.consumed .buy) 0 = 1 := by
  obtain ⟨⟨s, taken⟩, hrun⟩ := exists_of_isOk
    (x := tradeCalls sampleHash sampleTaking sampleSimulator fun _ => []) (by decide +kernel)
  have h :=
    (displayed_liquidity_conserved sampleHash
      [sampleDepthConfig] sampleSimulator new_sampleDepthConfig
    sampleTaking s taken hrun).1
  have hfacts :
      (tradeCalls sampleHash sampleTaking sampleSimulator fun _ => []).toOption.map (fun p =>
      (p.1.books[sampleInstrument]?.isSome,
        feedbackTaken (p.2 sampleInstrument) sampleInstrument .buy 1)) =
      some (true, 1) := by decide +kernel
  rw [hrun] at hfacts
  simp only [Except.toOption, Option.map_some, Option.some.injEq, Prod.mk.injEq] at hfacts
  obtain ⟨book, hbook⟩ := Option.isSome_iff_exists.1 hfacts.1
  refine ⟨s, taken, book, hrun, hbook, ?_⟩
  rw [(h sampleInstrument book hbook .buy).1 0 (by decide)]
  exact hfacts.2

end Liquidity

section OrderLifecycle
variable (hash : List UInt8 → Digest)

/-- Between any two states of a run of calls whose evaluations come in time and whose identities are
framed: filled quantities are accounted for by the recorded fills, terminal orders stay as they are,
no order is filled twice, and client identities name orders. -/
theorem order_lifecycle_sound (configs : List ScheduledInstrumentConfig)
    (s₀ : ScheduledDepthSimulator)
    (new : ScheduledDepthSimulator.new configs = .ok s₀) (earlier later : List SimulatorCall)
    (named : WellNamed hash (acceptedSubmissions hash (earlier ++ later) s₀))
    (framed : Framed (acceptedSubmissions hash (earlier ++ later) s₀))
    (onTime : RunOnTime hash (earlier ++ later) s₀) :
    Accounted (runCalls hash (earlier ++ later) s₀) ∧
      Persists (runCalls hash earlier s₀) (runCalls hash (earlier ++ later) s₀) := by
  obtain ⟨htime, htime'⟩ := EveryCall.split hash onTime
  have hsourced : Sourced hash [] s₀ := by
    intro order horder
    simp [(new_ok new).2.2.1] at horder
  rw [acceptedSubmissions_append] at named framed
  obtain ⟨hs, -, hsourcedS⟩ :=
    runCalls_consistent hash [] _ (new_sound_simulator new) (new_consistent new) hsourced
    htime named framed
  rw [runCalls_append]
  obtain ⟨hs', hpersists, -⟩ := runCalls_consistent hash (acceptedSubmissions hash earlier s₀) []
    (runCalls_sound hash (new_sound_simulator new) earlier) hs hsourcedS htime'
      (by rw [List.append_nil]; exact named)
    (by rw [List.append_nil]; exact framed)
  exact ⟨hs'.toAccounted, hpersists⟩

/-- With one order waiting, only its own activation time matters. -/
theorem RunOnTime.evaluate {calls : List SimulatorCall} {s : ScheduledDepthSimulator}
    {instrument : InstrumentId}
    (index : ℕ) {time : MatchTime} (controlSequence : U64) (h : RunOnTime hash calls s)
    (hone : (runCalls hash calls s).eligibleOrders (passiveEligible instrument) = [index])
    (hactivated : ((runCalls hash calls s).orders[index]?.all fun order =>
      decide (order.request.activateAt ≤ time)) = true) :
    RunOnTime hash (calls ++ [.evaluateActive instrument controlSequence time]) s := by
  apply EveryCall.snoc hash h
  change OnTime hash controlSequence time
      ((runCalls hash calls s).eligibleOrders (passiveEligible instrument)) _
  rw [hone]
  refine ⟨fun order sweep horder _ _ => ?_, fun _ _ _ => trivial⟩
  rw [horder] at hactivated
  simpa using hactivated

/-- Two submissions, the activation of the first, a book and a match at the time of the book. -/
def sampleBought : List SimulatorCall :=
  .submit sampleBuy :: .submit sampleSell :: sampleTaking.tail

/-- Whether the submissions have distinct origins and their identities distinct hashes. -/
def wellNamed (accepted : List OrderSubmission) : Bool :=
  decide (accepted.map OrderSubmission.origin).Nodup && accepted.all fun a => accepted.all fun b =>
    decide (a.identity = b.identity) || decide (a.orderId hash ≠ b.orderId hash)

theorem wellNamed_of_check {accepted : List OrderSubmission} (h : wellNamed hash accepted = true) :
    WellNamed hash accepted := by
  simp only [wellNamed, Bool.and_eq_true, List.all_eq_true, Bool.or_eq_true, decide_eq_true_eq] at h
  refine ⟨h.1, fun a ha b hb x y hx hy hhash => ?_⟩
  rcases h.2 a ha b hb with hsame | hne
  · rw [hx, hy] at hsame
    exact Except.ok.inj hsame
  · apply absurd _ hne
    rw [OrderSubmission.orderId, OrderSubmission.orderId, hx, hy, toOption_ok, toOption_ok,
      Option.map_some, Option.map_some, hhash]

theorem sampleStrategy {o : OrderSubmission} (h : o ∈ [sampleBuy, sampleSell]) :
    o.strategyId = sampleBuy.strategyId := by
  rw [List.mem_pair] at h
  rcases h with rfl | rfl <;> rfl

theorem order_lifecycle_of_buy :
    acceptedSubmissions sampleHash sampleBought sampleSimulator = [sampleBuy, sampleSell] ∧
    Accounted (runCalls sampleHash sampleBought sampleSimulator) ∧
    Persists (runCalls sampleHash (sampleBought.take 3) sampleSimulator)
      (runCalls sampleHash sampleBought sampleSimulator) := by
  have hsplit : sampleBought.take 3 ++ sampleBought.drop 3 = sampleBought :=
    List.take_append_drop 3 sampleBought
  have haccepted : acceptedSubmissions sampleHash sampleBought sampleSimulator =
      [sampleBuy, sampleSell] := by
    decide +kernel
  have htime : RunOnTime sampleHash sampleBought sampleSimulator := by
    have hearlier : RunOnTime sampleHash (sampleBought.take 4) sampleSimulator :=
      ⟨trivial, trivial, trivial, trivial, trivial⟩
    exact hearlier.evaluate sampleHash 0 _ (by decide +kernel) (by decide +kernel)
  have h :=
    order_lifecycle_sound sampleHash [sampleDepthConfig] sampleSimulator new_sampleDepthConfig
    (sampleBought.take 3) (sampleBought.drop 3)
    (by rw [hsplit, haccepted]; exact wellNamed_of_check sampleHash (by decide +kernel))
    (by rw [hsplit, haccepted]; exact framed_of_strategy fun o ho => sampleStrategy ho)
    (by rw [hsplit]; exact htime)
  rw [hsplit] at h
  exact ⟨haccepted, h⟩

/-- An order that activates at a hundred, and a match at sixty. -/
def sampleEarly : List SimulatorCall :=
  [.submit (sampleSubmission 0 (sampleRequest 97 (by decide) .buy 100)),
    .activate
      (((sampleSubmission 0 (sampleRequest 97 (by decide) .buy 100)).orderId sampleHash).getD
        ⟨sampleHash []⟩)
      (Unsigned.wrap 64 1) (sampleTime 100),
    .publishVisibleBook (sampleEvidence 50 50 (by decide +kernel)),
    .evaluateActive sampleInstrument (Unsigned.wrap 64 2) (sampleTime 60)]

theorem not_accounted {s : ScheduledDepthSimulator} (filled total : ℕ)
    (h : (filled, total) ∈ s.orders.map fun order =>
      (order.filledValue.val, recordTotal (s.recordsOf order.id)))
    (hne : filled ≠ total) : ¬ Accounted s := by
  intro haccounted
  obtain ⟨order, horder, heq⟩ := List.mem_map.1 h
  have htotal := haccounted.total order horder
  rw [Prod.mk.injEq] at heq
  omega

/-- The fill is recorded before its feedback is refused, and the order does not know of it. -/
theorem early_match_unaccounted :
    ScheduledDepthSimulator.new [sampleDepthConfig] = .ok sampleSimulator ∧
    WellNamed sampleHash (acceptedSubmissions sampleHash sampleEarly sampleSimulator) ∧
    Framed (acceptedSubmissions sampleHash sampleEarly sampleSimulator) ∧
    ¬ Accounted (runCalls sampleHash sampleEarly sampleSimulator) := by
  have haccepted : acceptedSubmissions sampleHash sampleEarly sampleSimulator =
      [sampleSubmission 0 (sampleRequest 97 (by decide) .buy 100)] := by decide +kernel
  rw [haccepted]
  refine ⟨new_sampleDepthConfig, wellNamed_of_check sampleHash (by decide +kernel),
    framed_of_strategy fun o ho => by rw [List.mem_singleton.1 ho],
    not_accounted 0 1 (by decide +kernel) (by decide)⟩

/-- A buy whose client identity ends like the canonical bytes of another request begin. -/
def sampleOuter : OrderSubmission :=
  sampleSubmission 0 { sampleRequest 97 (by decide) .buy 87219298762753 with
    clientOrderId := ⟨⟨[79, 83, 83, 82, 0, 1, 0, 0, 0, 1, 97], by decide⟩, rfl⟩ }

/-- That other request, under a strategy identifier ten bytes longer: the identity bytes are the
same. -/
def sampleInner : OrderSubmission where
  strategyId := ⟨115 :: List.replicate 10 7, by decide⟩
  context := ⟨⟨List.replicate 22 7 ++ List.replicate 10 0, rfl⟩, sampleTime 87219298762753⟩
  outputSequence := Unsigned.wrap 32 11
  request := sampleRequest 97 (by decide) .buy 87219298762753

/-- Both are accepted; the first is activated and matched in time. -/
def sampleShared : List SimulatorCall :=
  [.submit sampleOuter, .submit sampleInner,
    .activate ((sampleOuter.orderId sampleHash).getD ⟨sampleHash []⟩) (Unsigned.wrap 64 1)
      (sampleTime 87219298762753),
    .publishVisibleBook (sampleEvidence 87219298762754 87219298762754 (by decide +kernel)),
    .evaluateActive sampleInstrument (Unsigned.wrap 64 2) (sampleTime 87219298762754)]

/-- Two orders of distinct origins share one identity, and with it the fill of the first. -/
theorem unframed_orders_share_fills :
    WellNamed sampleHash (acceptedSubmissions sampleHash sampleShared sampleSimulator) ∧
    RunOnTime sampleHash sampleShared sampleSimulator ∧
    ¬ Accounted (runCalls sampleHash sampleShared sampleSimulator) := by
  have haccepted : acceptedSubmissions sampleHash sampleShared sampleSimulator =
      [sampleOuter, sampleInner] := by
    decide +kernel
  have hearlier : RunOnTime sampleHash (sampleShared.take 4) sampleSimulator :=
    ⟨trivial, trivial, trivial, trivial, trivial⟩
  refine ⟨by rw [haccepted]; exact wellNamed_of_check sampleHash (by decide +kernel),
    hearlier.evaluate sampleHash 0 _ (by decide +kernel) (by decide +kernel),
    not_accounted 0 1 (by decide +kernel) (by decide)⟩

end OrderLifecycle

end Osmium
