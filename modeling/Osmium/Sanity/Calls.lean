import Osmium.Sanity.Matching

/-! The scheduled simulator as a machine that is called from outside. A call may be any public
operation in any state and may fail; one lemma says what each does to the order table, and one what
each does to the books. -/

namespace Osmium
open Machine Bytes Result Stateful ScheduledDepthSimulator

/-- What an order identity is derived from. -/
structure OrderSubmission where
  strategyId : Text
  context : ScheduledSubmissionContext
  outputSequence : U32
  request : ScheduledOrderRequest
deriving DecidableEq

/-- The bytes that the identity of the order is hashed from. -/
def OrderSubmission.identity (o : OrderSubmission) : Except CanonicalEncodingError (List UInt8) :=
  orderIdentity o.strategyId o.context o.outputSequence o.request

/-- The identity of the order; none when the request has no canonical bytes. -/
def OrderSubmission.orderId (hash : List UInt8 → Digest) (o : OrderSubmission) : Option OrderId :=
  o.identity.toOption.map fun identity => ⟨hash identity⟩

inductive SimulatorCall
  | submit (submission : OrderSubmission)
  | cancelBeforeActivation (client : ClientOrderId)
  | activate (id : OrderId) (controlSequence : U64) (time : MatchTime)
  | expire (id : OrderId) (time : MatchTime)
  | evaluateActive (instrument : InstrumentId) (controlSequence : U64) (time : MatchTime)
  | evaluateAuctionMatch (evidence : AuctionMatchEvidence)
  | cancelActiveMarketOrders (instrument : InstrumentId)
  | publishVisibleBook (evidence : VisibleBookEvidence)
  | publishVisibleTradingState (evidence : VisibleTradingStateEvidence)

inductive SimulatorReturn
  | published
  | submission (submission : ScheduledSubmission)
  | feedbacks (feedbacks : List OrderFeedback)
  | activations (activations : List ScheduledActivation)
deriving DecidableEq

section Run
variable (hash : List UInt8 → Digest)

def SimulatorCall.run : SimulatorCall → Op SimulatorReturn
  | .submit o => .submission <$>
      ScheduledDepthSimulator.submit hash o.strategyId o.context o.outputSequence o.request
  | .cancelBeforeActivation client =>
    (fun f => .feedbacks [f]) <$> ScheduledDepthSimulator.cancelBeforeActivation client
  | .activate id controlSequence time =>
    (fun a => .activations [a]) <$> ScheduledDepthSimulator.activate hash id controlSequence time
  | .expire id time => (fun f => .feedbacks [f]) <$> ScheduledDepthSimulator.expire id time
  | .evaluateActive instrument controlSequence time =>
    .activations <$> ScheduledDepthSimulator.evaluateActive hash instrument controlSequence time
  | .evaluateAuctionMatch evidence =>
    .activations <$> ScheduledDepthSimulator.evaluateAuctionMatch hash evidence
  | .cancelActiveMarketOrders instrument =>
    .feedbacks <$> cancelActiveMarketOrdersForVolatilityInterruption instrument
  | .publishVisibleBook evidence =>
    (fun _ => .published) <$> ScheduledDepthSimulator.publishVisibleBook evidence
  | .publishVisibleTradingState evidence =>
    (fun _ => .published) <$> ScheduledDepthSimulator.publishVisibleTradingState evidence

/-- The state after a sequence of calls, whatever comes of each. -/
def runCalls : List SimulatorCall → ScheduledDepthSimulator → ScheduledDepthSimulator
  | [], s => s
  | call :: rest, s => runCalls rest (stateAfter (call.run hash s))

theorem runCalls_append (a b : List SimulatorCall) (s : ScheduledDepthSimulator) :
    runCalls hash (a ++ b) s = runCalls hash b (runCalls hash a s) := by
  induction a generalizing s with
  | nil => rfl
  | cons call rest ih => exact ih _

/-- Every call of a run has a property in the state that it is made in. -/
def EveryCall (p : ScheduledDepthSimulator → SimulatorCall → Prop) :
    List SimulatorCall → ScheduledDepthSimulator → Prop
  | [], _ => True
  | call :: rest, s => p s call ∧ EveryCall p rest (stateAfter (call.run hash s))

theorem EveryCall.split {p : ScheduledDepthSimulator → SimulatorCall → Prop}
    {earlier later : List SimulatorCall}
    {s : ScheduledDepthSimulator} (h : EveryCall hash p (earlier ++ later) s) :
    EveryCall hash p earlier s ∧ EveryCall hash p later (runCalls hash earlier s) := by
  induction earlier generalizing s with
  | nil => exact ⟨trivial, h⟩
  | cons call rest ih =>
    obtain ⟨hfirst, hrest⟩ := h
    obtain ⟨hearlier, hlater⟩ := ih hrest
    exact ⟨⟨hfirst, hearlier⟩, hlater⟩

theorem EveryCall.snoc {p : ScheduledDepthSimulator → SimulatorCall → Prop}
    {calls : List SimulatorCall}
    {call : SimulatorCall} {s : ScheduledDepthSimulator} (h : EveryCall hash p calls s)
    (hcall : p (runCalls hash calls s) call) : EveryCall hash p (calls ++ [call]) s := by
  induction calls generalizing s with
  | nil => exact ⟨hcall, trivial⟩
  | cons first rest ih => exact ⟨h.1, ih h.2 hcall⟩

theorem stateAfter_map {ε σ α β : Type} (f : α → β) (m : EStateM ε σ α) (s : σ) :
    stateAfter ((f <$> m) s) = stateAfter (m s) := by
  change stateAfter (EStateM.map f m s) = _
  unfold EStateM.map
  cases m s <;> rfl

end Run

section Table
variable (hash : List UInt8 → Digest) {s : ScheduledDepthSimulator}

theorem waiting_eligible (instrument : InstrumentId) :
    Waiting s instrument (s.eligibleOrders (passiveEligible instrument)) := by
  intro index hindex
  obtain ⟨order, found, heligible⟩ := mem_eligibleOrders hindex
  simp only [passiveEligible, Bool.and_eq_true, decide_eq_true_eq] at heligible
  exact ⟨order, found, heligible.1.1, heligible.1.2⟩

theorem evaluateActive_outcome (hs : Sound s) (instrument : InstrumentId) (controlSequence : U64)
    (time : MatchTime) :
    PassiveRun hash s controlSequence time (s.eligibleOrders (passiveEligible instrument))
      (evaluateActive hash instrument controlSequence time s) :=
  executePassiveOrders_outcome hash controlSequence time hs nodup_eligibleOrders
    (waiting_eligible instrument)

/-- The evaluations of active orders that take no fill before an order's activation. -/
def SimulatorCall.OnTime (s : ScheduledDepthSimulator) : SimulatorCall → Prop
  | .evaluateActive instrument controlSequence time =>
    Osmium.OnTime hash controlSequence time (s.eligibleOrders (passiveEligible instrument)) s
  | _ => True

/-- What a call does to the order table: moves, and for a submission the new order after them. -/
inductive Advances (call : SimulatorCall) (s s' : ScheduledDepthSimulator) : Prop
  | moves (shifts : Shifts s s')
  | accepts (o : OrderSubmission) (isSubmit : call = .submit o) (m : ScheduledDepthSimulator)
      (identity : List UInt8)
      (returned : ∃ r, call.run hash s = .ok r s') (shifts : Shifts s m)
      (hashed : o.identity = .ok identity)
      (accepts : Accepts ⟨hash identity⟩ o.request m s')

theorem BooksWithin.of_books {s' : ScheduledDepthSimulator} (hs : BooksWithin s)
    (h : s'.books = s.books) :
    BooksWithin s' := by
  intro i b hb
  rw [h] at hb
  exact hs i b hb

theorem freshBook_consumedAt (evidence : VisibleBookEvidence) (side : OrderSide) (k : ℕ) :
    consumedAt ((freshBook evidence).consumed side) k = 0 := by
  have hzero : consumedAt (Vector.replicate bookDepth (0 : U64)) k = 0 := by
    by_cases hk : k < bookDepth <;> simp [consumedAt, hk]
  cases side <;> exact hzero

theorem freshBook_within (evidence : VisibleBookEvidence) : (freshBook evidence).Within := by
  intro side k level _
  rw [freshBook_consumedAt]
  exact Nat.zero_le _

theorem BooksWithin.insert {s' : ScheduledDepthSimulator} {evidence : VisibleBookEvidence}
    (hs : BooksWithin s)
    (h : s'.books = s.books.insert evidence.instrument (freshBook evidence)) : BooksWithin s' := by
  intro i b hb
  rw [h, Std.ExtTreeMap.getElem?_insert] at hb
  split_ifs at hb with hcmp
  · cases hb
    exact freshBook_within evidence
  · exact hs i b hb

/-- Every call keeps the state sound, and unless an evaluation comes too early it only advances the
order table. -/
theorem SimulatorCall.advances (call : SimulatorCall) (hs : Sound s) :
    Sound (stateAfter (call.run hash s)) ∧
      (call.OnTime hash s → Advances hash call s (stateAfter (call.run hash s))) := by
  cases call with
  | submit o =>
    rw [SimulatorCall.run, stateAfter_map]
    cases h :
      ScheduledDepthSimulator.submit hash o.strategyId o.context o.outputSequence o.request s with
    | ok submission s' =>
      obtain ⟨m, identity, hshifts, hbooks, -, hidentity, haccepts⟩ := submit_ok hash h
      exact ⟨⟨haccepts.wired (hshifts.wired hs.wired),
        hs.within.of_books (haccepts.books.trans hbooks)⟩,
        fun _ => .accepts o rfl m identity
          ⟨_, (map_ok _ _ _ _ _).2 ⟨_, h, rfl⟩⟩ hshifts hidentity haccepts⟩
    | error e s' =>
      rcases submit_error hash h with ⟨rfl, -⟩ | ⟨-, -, hshift, hbooks⟩
      · exact ⟨hs, fun _ => .moves .refl⟩
      · exact ⟨⟨hshift.wired hs.wired, hs.within.of_books hbooks⟩, fun _ => .moves (.single hshift)⟩
  | cancelBeforeActivation client =>
    rw [SimulatorCall.run, stateAfter_map]
    cases h : ScheduledDepthSimulator.cancelBeforeActivation client s with
    | ok feedback s' =>
      obtain ⟨hshift, hbooks, -⟩ := cancelBeforeActivation_ok h
      exact ⟨⟨hshift.wired hs.wired, hs.within.of_books hbooks⟩, fun _ => .moves (.single hshift)⟩
    | error e s' =>
      obtain rfl := cancelBeforeActivation_atomic client s e s' h
      exact ⟨hs, fun _ => .moves .refl⟩
  | activate id controlSequence time =>
    rw [SimulatorCall.run, stateAfter_map]
    rcases activate_outcome hash hs id controlSequence time with
      ⟨e, h, -⟩ | ⟨activation, s', order, index, h, -, hshift, hwithin, -⟩
    · rw [h]
      exact ⟨hs, fun _ => .moves .refl⟩
    · rw [h]
      exact ⟨⟨hshift.wired hs.wired, hwithin⟩, fun _ => .moves (.single hshift)⟩
  | expire id time =>
    rw [SimulatorCall.run, stateAfter_map]
    cases h : ScheduledDepthSimulator.expire id time s with
    | ok feedback s' =>
      obtain ⟨hshift, hbooks, -⟩ := expire_ok h
      exact ⟨⟨hshift.wired hs.wired, hs.within.of_books hbooks⟩, fun _ => .moves (.single hshift)⟩
    | error e s' =>
      obtain rfl := expire_atomic id time s e s' h
      exact ⟨hs, fun _ => .moves .refl⟩
  | evaluateActive instrument controlSequence time =>
    rw [SimulatorCall.run, stateAfter_map]
    have hrun := evaluateActive_outcome hash hs instrument controlSequence time
    exact ⟨hrun.sound, fun htime => .moves (hrun.shifts htime)⟩
  | evaluateAuctionMatch evidence =>
    rw [SimulatorCall.run, stateAfter_map]
    rcases evaluateAuctionMatch_outcome hash s evidence with
      ⟨e, h, -⟩ | ⟨results, s', h, hshifts, hbooks⟩
    · rw [h]
      exact ⟨hs, fun _ => .moves .refl⟩
    · rw [h]
      exact ⟨⟨hshifts.wired hs.wired, hs.within.of_books hbooks⟩, fun _ => .moves hshifts⟩
  | cancelActiveMarketOrders instrument =>
    rw [SimulatorCall.run, stateAfter_map]
    cases h : cancelActiveMarketOrdersForVolatilityInterruption instrument s with
    | ok feedbacks s' =>
      obtain ⟨hshifts, hbooks, -⟩ := cancelActiveMarketOrders_ok h
      exact ⟨⟨hshifts.wired hs.wired, hs.within.of_books hbooks⟩, fun _ => .moves hshifts⟩
    | error e s' =>
      obtain rfl := cancelActiveMarketOrders_atomic instrument s e s' h
      exact ⟨hs, fun _ => .moves .refl⟩
  | publishVisibleBook evidence =>
    rw [SimulatorCall.run, stateAfter_map]
    cases h : ScheduledDepthSimulator.publishVisibleBook evidence s with
    | ok u s' =>
      obtain ⟨-, hbooks, -, horders, hclients, hfills, -, hconfigs⟩ := publishVisibleBook_ok h
      have hshift : Shift s s' := .market horders hclients hfills hconfigs
      exact ⟨⟨hshift.wired hs.wired, hs.within.insert hbooks⟩, fun _ => .moves (.single hshift)⟩
    | error e s' =>
      obtain rfl := publishVisibleBook_atomic evidence s e s' h
      exact ⟨hs, fun _ => .moves .refl⟩
  | publishVisibleTradingState evidence =>
    rw [SimulatorCall.run, stateAfter_map]
    cases h : ScheduledDepthSimulator.publishVisibleTradingState evidence s with
    | ok u s' =>
      obtain ⟨rfl, -, -⟩ := publishVisibleTradingState_ok h
      exact ⟨⟨⟨hs.wired.configured, hs.wired.indexed, hs.wired.unfilled⟩, hs.within⟩,
        fun _ => .moves (.single (.market rfl rfl rfl rfl))⟩
    | error e s' =>
      obtain rfl := publishVisibleTradingState_atomic evidence s e s' h
      exact ⟨hs, fun _ => .moves .refl⟩

theorem new_ok {configs : List ScheduledInstrumentConfig}
    (h : ScheduledDepthSimulator.new configs = .ok s) :
    s.books = ∅ ∧ s.tradingStates = ∅ ∧ s.orders = [] ∧ s.clientOrders = ∅ ∧ s.fills = [] ∧
    s.executionFills = [] := by
  simp only [ScheduledDepthSimulator.new, bind_eq_ok, pure_eq_ok] at h
  obtain ⟨_, -, -, -, rfl⟩ := h
  exact ⟨rfl, rfl, rfl, rfl, rfl, rfl⟩

theorem new_sound_simulator {configs : List ScheduledInstrumentConfig}
    (h : ScheduledDepthSimulator.new configs = .ok s) :
    Sound s := by
  obtain ⟨hbooks, -, horders, hclients, -⟩ := new_ok h
  refine ⟨⟨by simp [horders], by simp [hclients], by simp [horders]⟩, fun i b hb => ?_⟩
  simp [hbooks] at hb

/-- Properties that agree in sound states agree over runs. -/
theorem everyCall_congr {p q : ScheduledDepthSimulator → SimulatorCall → Prop} (hs : Sound s)
    (h : ∀ s call, Sound s → (p s call ↔ q s call)) (calls : List SimulatorCall) :
    EveryCall hash p calls s ↔ EveryCall hash q calls s := by
  induction calls generalizing s with
  | nil => exact Iff.rfl
  | cons call rest ih => exact and_congr (h s call hs) (ih (call.advances hash hs).1)

theorem runCalls_sound (hs : Sound s) (calls : List SimulatorCall) :
    Sound (runCalls hash calls s) := by
  induction calls generalizing s with
  | nil => exact hs
  | cons call rest ih => exact ih (call.advances hash hs).1

end Table

section Depth
variable (hash : List UInt8 → Digest) {s s' : ScheduledDepthSimulator}

/-- Whether an activation of `id` is matched against depth. -/
def sweepsAtActivation (s : ScheduledDepthSimulator) (id : OrderId) : Bool :=
  (s.locate id).any fun entry => entry.1.request.executionPolicy = .visibleDepthAtActivationV1

/-- The fills a successful call took from displayed depth. Settlements and auction fills take
nothing from a book. -/
def SimulatorCall.depthFills (s : ScheduledDepthSimulator) : SimulatorCall → SimulatorReturn →
    List ExecutionFillFeedback
  | .activate id _ _, .activations activations =>
    if sweepsAtActivation s id = true then
      activations.flatMap ScheduledActivation.executionFills else []
  | .evaluateActive _ _ _, .activations activations =>
    activations.flatMap ScheduledActivation.executionFills
  | _, _ => []

theorem DepthTaken.booksTake {order : ScheduledOrder} {index : ℕ} {id : OrderId}
    {activation : ScheduledActivation}
    (h : DepthTaken order activation s s') (hlocate : s.locate id = some (order, index)) :
    BooksTake (if sweepsAtActivation s id = true then
      [activation].flatMap ScheduledActivation.executionFills else [])
      s s' := by
  have hsweeps : sweepsAtActivation s id = true ↔
      order.request.executionPolicy = .visibleDepthAtActivationV1 := by
    simp [sweepsAtActivation, hlocate]
  unfold DepthTaken at h
  by_cases hpolicy : order.request.executionPolicy = .visibleDepthAtActivationV1
  · rw [if_pos hpolicy] at h
    rw [if_pos (hsweeps.2 hpolicy), List.flatMap_singleton]
    exact h.booksTake
  · rw [if_neg hpolicy] at h
    rw [if_neg fun hs => hpolicy (hsweeps.1 hs)]
    exact BooksTake.nothing h

/-- A successful call publishes a fresh book, or takes from the books exactly what it reports. -/
theorem SimulatorCall.books {call : SimulatorCall} {r : SimulatorReturn} (hs : Sound s)
    (h : call.run hash s = .ok r s') :
    (∃ evidence, call = .publishVisibleBook evidence ∧
      s'.books = s.books.insert evidence.instrument (freshBook evidence)) ∨
    (∀ evidence, call ≠ .publishVisibleBook evidence) ∧ BooksTake (call.depthFills s r) s s' := by
  cases call with
  | submit o =>
    obtain ⟨submission, hrun, rfl⟩ := (map_ok _ _ _ _ _).1 h
    obtain ⟨m, identity, -, hbooks, -, -, haccepts⟩ := submit_ok hash hrun
    exact .inr ⟨by simp, BooksTake.nothing (haccepts.books.trans hbooks)⟩
  | cancelBeforeActivation client =>
    obtain ⟨feedback, hrun, rfl⟩ := (map_ok _ _ _ _ _).1 h
    exact .inr ⟨by simp, BooksTake.nothing (cancelBeforeActivation_ok hrun).2.1⟩
  | activate id controlSequence time =>
    obtain ⟨activation, hrun, rfl⟩ := (map_ok _ _ _ _ _).1 h
    rcases activate_outcome hash hs id controlSequence time with
      ⟨e, herror, -⟩ | ⟨activation', _, order, index, hok, hlocate, -, -, htaken⟩
    · rw [herror] at hrun
      cases hrun
    · rw [hok] at hrun
      cases hrun
      exact .inr ⟨by simp, htaken.booksTake hlocate⟩
  | expire id time =>
    obtain ⟨feedback, hrun, rfl⟩ := (map_ok _ _ _ _ _).1 h
    exact .inr ⟨by simp, BooksTake.nothing (expire_ok hrun).2.1⟩
  | evaluateActive instrument controlSequence time =>
    obtain ⟨activations, hrun, rfl⟩ := (map_ok _ _ _ _ _).1 h
    exact .inr
      ⟨by simp,
        (evaluateActive_outcome hash hs instrument controlSequence time).takes activations s' hrun⟩
  | evaluateAuctionMatch evidence =>
    obtain ⟨activations, hrun, rfl⟩ := (map_ok _ _ _ _ _).1 h
    rcases evaluateAuctionMatch_outcome hash s evidence with
      ⟨e, herror, -⟩ | ⟨results, _, hok, -, hbooks⟩
    · rw [herror] at hrun
      cases hrun
    · rw [hok] at hrun
      cases hrun
      exact .inr ⟨by simp, BooksTake.nothing hbooks⟩
  | cancelActiveMarketOrders instrument =>
    obtain ⟨feedbacks, hrun, rfl⟩ := (map_ok _ _ _ _ _).1 h
    exact .inr ⟨by simp, BooksTake.nothing (cancelActiveMarketOrders_ok hrun).2.1⟩
  | publishVisibleBook evidence =>
    obtain ⟨_, hrun, rfl⟩ := (map_ok _ _ _ _ _).1 h
    exact .inl ⟨evidence, rfl, (publishVisibleBook_ok hrun).2.1⟩
  | publishVisibleTradingState evidence =>
    obtain ⟨_, hrun, rfl⟩ := (map_ok _ _ _ _ _).1 h
    obtain ⟨rfl, -, -⟩ := publishVisibleTradingState_ok hrun
    exact .inr ⟨by simp, BooksTake.nothing rfl⟩

theorem replacePrevious_refuses (client : ClientOrderId) :
    Refuses (fun e => e.overconsumed = false) (replacePrevious client) := by
  refine Refuses.bind Refuses.get fun self => ?_
  cases self.clientOrders[client]? with
  | none => exact Refuses.pure _
  | some id =>
    refine Refuses.bind (Refuses.lift (FailsIn.okOr (by rfl))) fun entry => ?_
    refine Refuses.bind (Refuses.lift (FailsIn.ensure (by rfl))) fun _ => ?_
    exact Refuses.bind (Refuses.set _) fun _ => Refuses.pure _

theorem submit_refuses (o : OrderSubmission) : Refuses (fun e => e.overconsumed = false)
    (ScheduledDepthSimulator.submit hash o.strategyId o.context o.outputSequence o.request) := by
  have hcheck : ∀ self : ScheduledDepthSimulator, FailsIn (fun e => e.overconsumed = false)
      (self.checkSubmission o.context o.request) := by
    intro self
    refine FailsIn.bind (FailsIn.ensure (by rfl)) fun _ => ?_
    refine FailsIn.bind (FailsIn.okOr (by rfl)) fun _ => ?_
    refine FailsIn.bind (FailsIn.ensure (by rfl)) fun _ => ?_
    exact FailsIn.ensure (by rfl)
  refine Refuses.bind Refuses.get fun self => ?_
  refine Refuses.bind (Refuses.lift (hcheck self)) fun _ => ?_
  refine Refuses.bind (replacePrevious_refuses _) fun _ => ?_
  refine Refuses.bind (Refuses.lift (FailsIn.mapError fun _ => by rfl)) fun _ => ?_
  refine Refuses.bind Refuses.get fun _ => ?_
  refine Refuses.bind (Refuses.lift (FailsIn.okOr (by rfl))) fun _ => ?_
  exact Refuses.bind (Refuses.set _) fun _ => Refuses.pure _

theorem publishVisibleTradingState_refuses (evidence : VisibleTradingStateEvidence) :
    Refuses (fun e => e.overconsumed = false)
      (ScheduledDepthSimulator.publishVisibleTradingState evidence) := by
  refine Refuses.bind Refuses.get fun self => ?_
  refine Refuses.bind (Refuses.lift (FailsIn.ensure (by rfl))) fun _ => ?_
  refine Refuses.bind (Refuses.lift (FailsIn.ensure (by rfl))) fun _ => ?_
  exact Refuses.set _

theorem publishVisibleBook_refuses (evidence : VisibleBookEvidence) :
    Refuses (fun e => e.overconsumed = false)
      (ScheduledDepthSimulator.publishVisibleBook evidence) := by
  have hcheck : ∀ self : ScheduledDepthSimulator, FailsIn (fun e => e.overconsumed = false)
      (self.checkVisibleBook evidence) := by
    intro self
    refine FailsIn.bind (FailsIn.okOr (by rfl)) fun profile => ?_
    cases evidence.book.quantityUnit with
    | none => exact FailsIn.bind (FailsIn.ensure (by rfl)) fun _ => FailsIn.ensure (by rfl)
    | some actual =>
      refine FailsIn.bind (FailsIn.ensure (by rfl)) fun _ => ?_
      exact FailsIn.bind (FailsIn.ensure (by rfl)) fun _ => FailsIn.ensure (by rfl)
  refine Refuses.bind Refuses.get fun self => ?_
  refine Refuses.bind (Refuses.lift (hcheck self)) fun _ => ?_
  refine Refuses.bind (publishVisibleTradingState_refuses _) fun _ => ?_
  exact Refuses.modify _

/-- No call finds more consumed than displayed. -/
theorem SimulatorCall.not_overconsumed {call : SimulatorCall} {e : ScheduledSimulationError}
    (hs : Sound s) (h : call.run hash s = .error e s') : e.overconsumed = false := by
  cases call with
  | submit o => exact submit_refuses hash o s e s' ((map_error _ _ _ _ _).1 h)
  | cancelBeforeActivation client =>
    refine (?_ : Refuses (fun e => e.overconsumed = false) _) s e s' ((map_error _ _ _ _ _).1 h)
    refine Refuses.bind Refuses.get fun self => ?_
    refine Refuses.bind (Refuses.lift (FailsIn.okOr (by rfl))) fun _ => ?_
    refine Refuses.bind (Refuses.lift (FailsIn.okOr (by rfl))) fun _ => ?_
    refine Refuses.bind (Refuses.lift (FailsIn.ensure (by rfl))) fun _ => ?_
    exact Refuses.bind (Refuses.set _) fun _ => Refuses.pure _
  | activate id controlSequence time =>
    have hrun := (map_error _ _ _ _ _).1 h
    rcases activate_outcome hash hs id controlSequence time with
      ⟨e', herror, hnot⟩ | ⟨_, _, _, _, hok, -⟩
    · rw [herror] at hrun
      cases hrun
      exact hnot
    · rw [hok] at hrun
      cases hrun
  | expire id time =>
    refine (?_ : Refuses (fun e => e.overconsumed = false) _) s e s' ((map_error _ _ _ _ _).1 h)
    refine Refuses.bind Refuses.get fun self => ?_
    refine Refuses.bind (Refuses.lift (FailsIn.okOr (by rfl))) fun _ => ?_
    refine Refuses.bind (Refuses.lift (FailsIn.ensure (by rfl))) fun _ => ?_
    refine Refuses.bind (Refuses.lift (FailsIn.ensure (by rfl))) fun _ => ?_
    exact Refuses.bind (Refuses.set _) fun _ => Refuses.pure _
  | evaluateActive instrument controlSequence time =>
    exact (evaluateActive_outcome hash hs instrument controlSequence time).refuses e s'
      ((map_error _ _ _ _ _).1 h)
  | evaluateAuctionMatch evidence =>
    have hrun := (map_error _ _ _ _ _).1 h
    rcases evaluateAuctionMatch_outcome hash s evidence with ⟨e', herror, hnot⟩ | ⟨_, _, hok, -⟩
    · rw [herror] at hrun
      cases hrun
      exact hnot
    · rw [hok] at hrun
      cases hrun
  | cancelActiveMarketOrders instrument =>
    refine (?_ : Refuses (fun e => e.overconsumed = false) _) s e s' ((map_error _ _ _ _ _).1 h)
    refine Refuses.bind Refuses.get fun self => ?_
    refine Refuses.bind (Refuses.lift (FailsIn.ensure (by rfl))) fun _ => ?_
    exact Refuses.bind (Refuses.set _) fun _ => Refuses.pure _
  | publishVisibleBook evidence =>
    exact publishVisibleBook_refuses evidence s e s' ((map_error _ _ _ _ _).1 h)
  | publishVisibleTradingState evidence =>
    exact publishVisibleTradingState_refuses evidence s e s' ((map_error _ _ _ _ _).1 h)

end Depth

end Osmium
