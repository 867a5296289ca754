import Osmium.Lib.Hoare
import Osmium.Sanity.Control
import Osmium.Sanity.Recording
import Osmium.Spec.Coordinator

/-! What one control of a scheduled backtest may do: it calls the strategy, moves the simulator and
the ledger, and schedules further controls, none of them due before it and none of them an
observation. Only the release of an observation moves the visible core. -/

namespace Osmium
open Machine Bytes Result Stateful

namespace ScheduledBacktestControl

def isRelease : ScheduledBacktestControl → Bool
  | .releaseObservation _ => true
  | _ => false

/-- The phase a control is scheduled in. -/
def phase : ScheduledBacktestControl → ControlPhase
  | .releaseObservation _ => .releaseObservation
  | .expire _ => .orderExpiry
  | .activate _ => .orderActivation
  | .allocateVisibleDepth _ | .allocateAuctionMatch _ => .fillAllocation
  | .strategyTimer _ => .strategyDecision
  | .deliverFeedback _ _ _ => .feedback

/-- The time that the payload itself tells of. -/
def dueAt : ScheduledBacktestControl → Option MatchTime
  | .releaseObservation observation => some observation.visibleAt
  | .allocateAuctionMatch evidence => some evidence.matchTime
  | .strategyTimer request => some request.fireAt
  | .expire _ | .activate _ | .allocateVisibleDepth _ | .deliverFeedback _ _ _ => none

end ScheduledBacktestControl

/-- The phase and the time of a control are those of its payload. -/
structure Proper (control : BacktestControl) : Prop where
  phase : control.phase = control.payload.phase
  dueAt : ∀ time ∈ control.payload.dueAt, control.time = time

/-- A queue with further controls, all of them with `P`. -/
structure Adds (P : BacktestControl → Prop)
    (queue queue' : ControlTimeQueue ScheduledBacktestControl) : Prop where
  added : ∃ added, queue'.pending.Perm (added ++ queue.pending) ∧
    ∀ control ∈ added, P control ∧ queue.nextSequence ≤ control.sequence
  next : queue.nextSequence ≤ queue'.nextSequence

section Queue
variable {P : BacktestControl → Prop} {queue : ControlTimeQueue ScheduledBacktestControl}

theorem Adds.refl : Adds P queue queue := ⟨⟨[], .refl _, by simp⟩, le_rfl⟩

theorem Adds.trans {queue' queue'' : ControlTimeQueue ScheduledBacktestControl}
    (h : Adds P queue queue') (h' : Adds P queue' queue'') : Adds P queue queue'' := by
  obtain ⟨added, hperm, hadded⟩ := h.added
  obtain ⟨added', hperm', hadded'⟩ := h'.added
  refine ⟨⟨added' ++ added, ?_, fun control hcontrol => ?_⟩, h.next.trans h'.next⟩
  · rw [List.append_assoc]
    exact hperm'.trans (hperm.append_left added')
  · rcases List.mem_append.1 hcontrol with hnew | hold
    · exact ⟨(hadded' control hnew).1, h.next.trans (hadded' control hnew).2⟩
    · exact hadded control hold

theorem Adds.imp {Q : BacktestControl → Prop} {queue' : ControlTimeQueue ScheduledBacktestControl}
    (h : Adds P queue queue') (himp : ∀ control, P control → Q control) : Adds Q queue queue' := by
  obtain ⟨added, hperm, hadded⟩ := h.added
  exact ⟨⟨added, hperm, fun control hcontrol =>
    ⟨himp control (hadded control hcontrol).1, (hadded control hcontrol).2⟩⟩, h.next⟩

theorem Adds.mem {queue' : ControlTimeQueue ScheduledBacktestControl} (h : Adds P queue queue')
    {control : BacktestControl}
    (hmem : control ∈ queue'.pending) : control ∈ queue.pending ∨ P control ∧
    queue.nextSequence ≤ control.sequence := by
  obtain ⟨added, hperm, hadded⟩ := h.added
  rcases List.mem_append.1 (hperm.mem_iff.1 hmem) with hnew | hold
  · exact .inr (hadded control hnew)
  · exact .inl hold

theorem Adds.mem_of_mem {queue' : ControlTimeQueue ScheduledBacktestControl}
    (h : Adds P queue queue')
    {control : BacktestControl} (hmem : control ∈ queue.pending) : control ∈ queue'.pending := by
  obtain ⟨added, hperm, -⟩ := h.added
  exact hperm.mem_iff.2 (List.mem_append_right added hmem)

theorem adds_schedule {time : MatchTime} {phase : ControlPhase} {payload : ScheduledBacktestControl}
    (h : P ⟨time, phase, queue.nextSequence, payload⟩) :
    Along (Adds P) (fun _ => True) (ControlTimeQueue.schedule time phase payload) queue := by
  unfold ControlTimeQueue.schedule
  refine Along.get_bind ?_
  split
  · exact ⟨Adds.refl, trivial⟩
  · rename_i next hnext
    have hval := (Unsigned.checkedAdd_eq_some _ _ _).1 hnext
    have hlt : queue.nextSequence ≤ next := by
      rw [Unsigned.le_iff, hval]
      exact Nat.le_add_right _ _
    exact ⟨⟨[⟨time, phase, queue.nextSequence, payload⟩],
      SortedQueue.perm_insert, by simpa using h⟩, hlt⟩

end Queue

/-- A control that comes of a control at a time. -/
structure Ensues (time : MatchTime) (control : BacktestControl) : Prop where
  later : time ≤ control.time
  proper : Proper control
  noRelease : control.payload.isRelease = false

def MultiBacktestError.isReplay : MultiBacktestError → Bool
  | .replay _ => true
  | _ => false

/-- A failure of something other than a replay core. -/
def NoReplayFault (error : MultiBacktestError) : Prop := error.isReplay = false

namespace ScheduledCoordinator
variable {σ α : Type} {setup : ScheduledSetup σ} {time : MatchTime}

/-- What every control but a release may do. -/
structure Acts (time : MatchTime) (before after : ScheduledCoordinator σ) : Prop where
  controls : Adds (Ensues time) before.controls after.controls
  visibleCore : after.visibleCore = before.visibleCore
  callbacks : before.callbacks <+: after.callbacks

instance : Std.Refl (Acts (σ := σ) time) := ⟨fun _ => ⟨Adds.refl, rfl, List.prefix_refl _⟩⟩

instance : IsTrans (ScheduledCoordinator σ) (Acts time) := ⟨fun _ _ _ h h' =>
  ⟨h.controls.trans h'.controls, h'.visibleCore.trans h.visibleCore,
    h.callbacks.trans h'.callbacks⟩⟩

variable {self : ScheduledCoordinator σ}

/-- A change of other parts only. -/
theorem Acts.of_parts {next : ScheduledCoordinator σ} (hcontrols : next.controls = self.controls)
    (hvisible : next.visibleCore = self.visibleCore)
    (hcallbacks : next.callbacks = self.callbacks) :
    Acts time self next :=
  ⟨by rw [hcontrols]; exact Adds.refl, hvisible, by rw [hcallbacks]⟩

theorem acts_onSimulator (op : ScheduledDepthSimulator.Op α) :
    Along (Acts time) NoReplayFault (onSimulator op) self :=
  Along.zoom (fun _ => rfl) fun _ _ => .of_parts rfl rfl rfl

theorem acts_onLedger (op : EStateM AccountingError MultiLedger α) :
    Along (Acts time) NoReplayFault (onLedger op) self :=
  Along.zoom (fun _ => rfl) fun _ _ => .of_parts rfl rfl rfl

theorem acts_schedule {due : MatchTime} (payload : ScheduledBacktestControl) (hdue : time ≤ due)
    (hproper : ∀ t ∈ payload.dueAt, due = t) (hrelease : payload.isRelease = false) :
    Along (Acts time) NoReplayFault (schedule due payload.phase payload) self := by
  refine Along.zoom (fun _ => rfl) fun queue hqueue => ⟨?_, rfl, List.prefix_refl _⟩
  rw [hqueue]
  exact (adds_schedule ⟨hdue, ⟨rfl, hproper⟩, hrelease⟩).stateAfter

section Parts

theorem acts_scheduleFeedback {due : MatchTime} (hdue : time ≤ due) (feedback : List OrderFeedback)
    (executionFills : List ExecutionFillFeedback) (orderIdentity : Digest) (parentSequence : U64) :
    Along (Acts time) NoReplayFault
      (scheduleFeedback setup due feedback executionFills orderIdentity parentSequence) self :=
  Along.bind (acts_schedule (.deliverFeedback feedback executionFills _) hdue
    (by simp [ScheduledBacktestControl.dueAt]) rfl)
    fun _ _ _ => .pure _

theorem acts_scheduleTimers (requests : List StrategyTimerRequest) :
    Along (Acts time) NoReplayFault (scheduleTimers time requests) self := by
  induction requests generalizing self with
  | nil => exact .pure _
  | cons request rest ih =>
    refine Along.lift_bind (.ensure rfl) fun _ hlater => ?_
    have hdue : time ≤ request.fireAt := (ensure_eq_ok _ _ ()).1 hlater
    refine Along.bind
      (acts_schedule (.strategyTimer request) hdue (by simp [ScheduledBacktestControl.dueAt]) rfl)
      fun sequence s _ => ?_
    exact Along.bind (.modify (.of_parts rfl rfl rfl)) fun _ _ _ => ih

theorem acts_applyCashCharges (originIdentity : Digest) (charges : List (U32 × CashChargeRequest)) :
    Along (Acts time) NoReplayFault (applyCashCharges setup time originIdentity charges) self :=
  Along.lift_bind (.mapError fun _ => rfl) fun _ _ => acts_onLedger _

/-- An order is accepted only when it does not activate before it is decided. -/
theorem activateAt_of_submit {hash : List UInt8 → Digest} {strategyId : Text}
    {context : ScheduledSubmissionContext}
    {outputSequence : U32} {request : ScheduledOrderRequest} {s s' : ScheduledDepthSimulator}
    {submission : ScheduledSubmission}
    (h : ScheduledDepthSimulator.submit hash strategyId context outputSequence request s =
      .ok submission s') :
    context.decisionTime ≤ request.activateAt := by
  unfold ScheduledDepthSimulator.submit at h
  rw [get_bind] at h
  obtain ⟨_, _, hcheck, -⟩ := (bind_ok _ _ _ _ _).1 h
  obtain ⟨_, hdecided, -⟩ := (bind_eq_ok _ _ _).1 ((lift_ok _ _ _ _).1 hcheck).1
  exact (ensure_eq_ok _ _ ()).1 hdecided

theorem acts_submitRequest (originIdentity : Digest) (controlSequence : U64) (index : ℕ)
    (request : ScheduledOrderRequest) :
    Along (Acts time) NoReplayFault
      (submitRequest setup time originIdentity controlSequence index request) self := by
  refine Along.get_bind (Along.lift_bind (.okOr rfl) fun outputSequence _ => ?_)
  have hsubmit : Meets (onSimulator (ScheduledDepthSimulator.submit setup.hash
      (setup.strategy.identity self.strategy).strategyId
        ⟨originIdentity, time⟩ outputSequence request) self)
      (fun _ s => Acts time self s ∧ time ≤ request.activateAt)
        (fun e s => Acts time self s ∧ NoReplayFault e) := by
    refine Meets.zoom ?_
    cases hrun :
      ScheduledDepthSimulator.submit setup.hash (setup.strategy.identity self.strategy).strategyId
      ⟨originIdentity, time⟩ outputSequence request self.simulator with
    | ok submission s => exact ⟨.of_parts rfl rfl rfl, activateAt_of_submit hrun⟩
    | error e s => exact ⟨.of_parts rfl rfl rfl, rfl⟩
  refine Meets.bind hsubmit fun submission s hs => Along.after hs.1 ?_
  have hactivation : ∀ s' : ScheduledCoordinator σ, Along (Acts time) NoReplayFault (do
      let _ ← schedule request.activateAt .orderActivation (.activate submission.orderId)
      scheduleFeedback setup time (submission.replaced.toList ++ [.accepted submission.orderId]) []
        submission.orderId.digest controlSequence) s' := fun _ =>
    Along.bind (acts_schedule (.activate _) hs.2 (by simp [ScheduledBacktestControl.dueAt]) rfl)
      fun _ _ _ =>
      acts_scheduleFeedback le_rfl _ _ _ _
  cases hexpiry : request.expireAt with
  | none => exact hactivation s
  | some expiry =>
    have hdue : time ≤ expiry := hs.2.trans (request.activeWindow expiry hexpiry).le
    exact Along.bind (acts_schedule (.expire _) hdue (by simp [ScheduledBacktestControl.dueAt]) rfl)
      fun _ s' _ =>
      hactivation s'

theorem acts_submitRequests (originIdentity : Digest) (controlSequence : U64)
    (requests : List ScheduledOrderRequest) (index : ℕ) : Along (Acts time) NoReplayFault
      (submitRequests setup time originIdentity controlSequence requests index) self := by
  induction requests generalizing self index with
  | nil => exact .pure _
  | cons request rest ih =>
    exact Along.bind (acts_submitRequest originIdentity controlSequence index request) fun _ _ _ =>
      ih (index + 1)

theorem acts_callStrategy (call : StrategyCall) :
    Along (Acts time) NoReplayFault (callStrategy setup call) self := by
  refine Along.get_bind (Along.lift_bind (.mapError fun _ => rfl) fun answer _ => ?_)
  exact Along.bind (.set ⟨Adds.refl, rfl, List.prefix_append _ _⟩) fun _ _ _ => .pure _

theorem acts_commitOutput (sink : StrategyOutputSink)
    (records : StrategyOutputSink → Except StrategyOutputEncodingError (List StrategyOutputRecord))
    (originIdentity : Digest) (controlSequence : U64) :
    Along (Acts time) NoReplayFault
      (commitOutput setup sink records time originIdentity controlSequence) self := by
  refine Along.lift_bind (.mapError fun _ => rfl) fun charges _ =>
    Along.lift_bind (.mapError fun _ => rfl) fun output _ => ?_
  refine Along.bind (.modify (.of_parts rfl rfl rfl)) fun _ _ _ => ?_
  refine Along.bind (acts_scheduleTimers sink.timers) fun _ _ _ => ?_
  exact Along.bind (acts_applyCashCharges originIdentity charges) fun _ _ _ =>
    acts_submitRequests originIdentity controlSequence sink.scheduledOrders 0

theorem acts_deliverFeedback (controlSequence : U64) (originIdentity : Digest)
    (feedback : List OrderFeedback) (executionFills : List ExecutionFillFeedback) :
    Along (Acts time) NoReplayFault
      (deliverFeedback setup time controlSequence originIdentity feedback executionFills) self :=
  Along.bind (acts_callStrategy _) fun sink _ _ =>
    acts_commitOutput sink _ originIdentity controlSequence

theorem acts_fireTimer {request : StrategyTimerRequest} (controlSequence : U64)
    (h : time = request.fireAt) :
    Along (Acts time) NoReplayFault (fireTimer setup request controlSequence) self := by
  subst h
  refine Along.get_bind (Along.lift_bind (.mapError fun _ => rfl) fun equity _ => ?_)
  exact Along.bind (acts_callStrategy _) fun sink _ _ => acts_commitOutput sink _ _ controlSequence

theorem acts_applyFills (instrument : InstrumentId) (fills : List FillRecord) :
    Along (Acts time) NoReplayFault (applyFills instrument fills) self := by
  induction fills generalizing self with
  | nil => exact .pure _
  | cons fill rest ih => exact Along.bind (acts_onLedger _) fun _ _ _ => ih

theorem acts_refreshOpenPosition (instrument : InstrumentId) :
    Along (Acts time) NoReplayFault (refreshOpenPosition instrument) self := by
  refine Along.get_bind (Along.lift_bind (.okOr rfl) fun entry _ => ?_)
  exact Along.ite (fun _ => .set (.of_parts rfl rfl rfl)) fun _ => .set (.of_parts rfl rfl rfl)

theorem acts_scheduleActivationFeedback {feedbackAt : MatchTime} (hdue : time ≤ feedbackAt)
    (controlSequence : U64) (activations : List ScheduledActivation) :
    Along (Acts time) NoReplayFault
      (scheduleActivationFeedback setup feedbackAt controlSequence activations) self := by
  induction activations generalizing self with
  | nil => exact .pure _
  | cons activation rest ih => exact Along.bind (acts_scheduleFeedback hdue _ _ _ _) fun _ _ _ => ih

theorem acts_settleActivations {feedbackAt : MatchTime} (hdue : time ≤ feedbackAt)
    (instrument : InstrumentId)
    (previousFillCount : ℕ) (activations : List ScheduledActivation) (controlSequence : U64) :
    Along (Acts time) NoReplayFault
      (settleActivations setup instrument previousFillCount activations feedbackAt controlSequence)
        self := by
  refine Along.get_bind (Along.bind (acts_applyFills _ _) fun _ _ _ => ?_)
  exact Along.bind (acts_refreshOpenPosition _) fun _ _ _ =>
    acts_scheduleActivationFeedback hdue _ _

theorem acts_expireOrder (orderId : OrderId) (sequence : U64) :
    Along (Acts time) NoReplayFault (expireOrder setup orderId time sequence) self := by
  refine Along.get_bind (Along.ite (fun _ => ?_) fun _ => .pure _)
  exact Along.bind (acts_onSimulator _) fun _ _ _ => acts_scheduleFeedback le_rfl _ _ _ _

theorem acts_activateOrder (orderId : OrderId) (sequence : U64) :
    Along (Acts time) NoReplayFault (activateOrder setup orderId time sequence) self := by
  refine Along.get_bind (Along.ite (fun _ => .pure _) fun _ => ?_)
  refine Along.bind (acts_onSimulator _) fun activation _ _ =>
    Along.get_bind (Along.lift_bind (.okOr rfl) fun order _ => ?_)
  exact acts_settleActivations le_rfl _ _ _ _

theorem acts_allocateVisibleDepth (instrument : InstrumentId) (sequence : U64) :
    Along (Acts time) NoReplayFault (allocateVisibleDepth setup instrument time sequence) self :=
  Along.get_bind
    (Along.bind (acts_onSimulator _) fun _ _ _ => acts_settleActivations le_rfl _ _ _ _)

theorem acts_allocateAuctionMatch {evidence : AuctionMatchEvidence} (sequence : U64)
    (h : time = evidence.matchTime) :
    Along (Acts time) NoReplayFault (allocateAuctionMatch setup evidence sequence) self :=
  Along.get_bind (Along.bind (acts_onSimulator _) fun _ _ _ =>
    acts_settleActivations (h.trans_le evidence.causal) _ _ _ _)

theorem acts_timerControl {request : StrategyTimerRequest} (sequence : U64)
    (h : time = request.fireAt) :
    Along (Acts time) NoReplayFault (timerControl setup request sequence) self :=
  Along.get_bind (Along.ite (fun _ => .pure _) fun _ => acts_fireTimer sequence h)

end Parts

/-- Every control but a release only acts. -/
theorem acts_processControl {control : BacktestControl} (hproper : Proper control)
    (hrelease : control.payload.isRelease = false) :
    Along (Acts control.time) NoReplayFault (processControl setup control) self := by
  obtain ⟨time, phase, sequence, payload⟩ := control
  cases payload with
  | releaseObservation observation => cases hrelease
  | expire orderId => exact acts_expireOrder orderId sequence
  | activate orderId => exact acts_activateOrder orderId sequence
  | allocateVisibleDepth instrument => exact acts_allocateVisibleDepth instrument sequence
  | allocateAuctionMatch evidence => exact acts_allocateAuctionMatch sequence (hproper.dueAt _ rfl)
  | strategyTimer request => exact acts_timerControl sequence (hproper.dueAt _ rfl)
  | deliverFeedback feedback executionFills originIdentity =>
    exact acts_deliverFeedback sequence originIdentity feedback executionFills

section Release
variable {observation : BufferedObservation} {event : DomainEvent}

theorem acts_interruptMarketOrders (instrument : InstrumentId) (fingerprint : EventFingerprint)
    (controlSequence : U64) (hdue : time ≤ observation.visibleAt) : Along (Acts time) NoReplayFault
      (interruptMarketOrders setup instrument observation fingerprint controlSequence) self := by
  refine Along.bind (acts_onSimulator _) fun feedback _ _ =>
    Along.ite (fun _ => .pure _) fun _ => ?_
  exact acts_scheduleFeedback hdue _ _ _ _

theorem acts_publishTradingState :
    Along (Acts time) NoReplayFault (publishTradingState event observation) self :=
  Along.lift_bind (.mapError fun _ => rfl) fun _ _ => acts_onSimulator _

theorem acts_updateMark (state : MarketState) (instrument : InstrumentId) :
    Along (Acts time) NoReplayFault (updateMark setup state instrument) self := by
  unfold updateMark
  cases finalMark state setup.allowMidpointFallback with
  | none => exact .pure _
  | some mark => exact .modify (.of_parts rfl rfl rfl)

theorem acts_publishBook (book : Option CompleteBookSnapshot) :
    Along (Acts time) NoReplayFault (publishBook event observation book) self := by
  cases book with
  | none => exact .pure _
  | some book => exact Along.lift_bind (.mapError fun _ => rfl) fun _ _ => acts_onSimulator _

theorem acts_scheduleAllocation (state : MarketState) :
    Along (Acts time) NoReplayFault (scheduleAllocation event state time) self := by
  refine Along.get_bind (Along.ite (fun _ => ?_) fun _ => .pure _)
  exact Along.bind
    (acts_schedule (.allocateVisibleDepth _) le_rfl (by simp [ScheduledBacktestControl.dueAt]) rfl)
    fun _ _ _ => .pure _

/-- Once the visible core has reached the occurrence, the rest of a revelation acts. -/
theorem acts_revealObservation (controlSequence : U64) {commit : CoreCommit} {core : ReplayCore}
    (hcommit : ReplayCore.applyOrdered setup.hash event self.visibleCore = .ok commit core)
    (hcheck : checkOccurrence commit.occurrence observation = .ok ()) :
    Meets (revealObservation setup event observation controlSequence self)
      (fun _ => Acts observation.visibleAt { self with visibleCore := core })
      (fun e s => Acts observation.visibleAt { self with visibleCore := core } s ∧
        NoReplayFault e) := by
  have hcore : onVisibleCore (ReplayCore.applyOrdered setup.hash event) self =
      .ok commit { self with visibleCore := core } :=
    (zoom_ok _ _ _ _ _ _ _).2 ⟨core, hcommit, rfl⟩
  rw [revealObservation, bind_of_ok hcore, lift_bind hcheck]
  have hpublish : ∀ s : ScheduledCoordinator σ, Along (Acts observation.visibleAt) NoReplayFault (do
      publishTradingState event observation
      let self ← get
      let views := self.visibleCore.states
      let state ← lift (okOr .declaration views[event.instrument]?)
      updateMark setup state event.instrument
      publishBook event observation (publishedBook event state)
      return (commit.occurrence, state, views)) s := fun s => by
    refine Along.bind acts_publishTradingState fun _ _ _ =>
      Along.get_bind (Along.lift_bind (.okOr rfl) fun state _ => ?_)
    exact Along.bind (acts_updateMark _ _) fun _ _ _ =>
      Along.bind (acts_publishBook _) fun _ _ _ => .pure _
  exact Along.ite
    (fun _ => Along.bind (acts_interruptMarketOrders _ _ _ le_rfl) fun _ s _ => hpublish s)
    fun _ => hpublish _

/-- And so does the rest of its release. -/
theorem acts_releaseObservation (controlSequence : U64) {commit : CoreCommit} {core : ReplayCore}
    (hdecode : DomainEvent.fromCanonicalBytes observation.canonicalEvent = .ok event)
    (hcommit : ReplayCore.applyOrdered setup.hash event self.visibleCore = .ok commit core)
    (hcheck : checkOccurrence commit.occurrence observation = .ok ()) :
    Meets (releaseObservation setup observation controlSequence self)
      (fun _ => Acts observation.visibleAt { self with visibleCore := core })
      (fun e s => Acts observation.visibleAt { self with visibleCore := core } s ∧
        NoReplayFault e) := by
  have hdecoded : (DomainEvent.fromCanonicalBytes observation.canonicalEvent).mapError
      (MultiBacktestError.replay ∘ ReplayFault.decoding) = .ok event :=
    (mapError_eq_ok _ _ _).2 hdecode
  rw [releaseObservation, lift_bind hdecoded]
  refine Meets.bind (acts_revealObservation controlSequence hcommit hcheck) fun revealed s hs =>
    Along.after hs ?_
  refine Along.bind (acts_callStrategy _) fun sink _ _ => ?_
  exact Along.bind (acts_commitOutput sink _ _ controlSequence) fun _ _ _ =>
    acts_scheduleAllocation _

theorem schedules_releaseObservation (observation : BufferedObservation) (controlSequence : U64) :
    Adds (Ensues observation.visibleAt) self.controls
      (stateAfter (releaseObservation setup observation controlSequence self)).controls := by
  cases hdecode : DomainEvent.fromCanonicalBytes observation.canonicalEvent with
  | error e =>
    have hrun : releaseObservation setup observation controlSequence self = .error _ self :=
      lift_bind_error (e := .replay (.decoding e)) (by rw [hdecode]; rfl) _ _
    rw [hrun]
    exact Adds.refl
  | ok event =>
    have hdecoded : (DomainEvent.fromCanonicalBytes observation.canonicalEvent).mapError
        (MultiBacktestError.replay ∘ ReplayFault.decoding) = .ok event :=
      (mapError_eq_ok _ _ _).2 hdecode
    cases hcommit : ReplayCore.applyOrdered setup.hash event self.visibleCore with
    | error e core =>
      have hcore : onVisibleCore (ReplayCore.applyOrdered setup.hash event) self =
          .error (.replay (.core e)) { self with visibleCore := core } :=
        (zoom_error _ _ _ _ _ _ _).2 ⟨e, core, hcommit, rfl, rfl⟩
      have hreveal : revealObservation setup event observation controlSequence self =
          .error _ { self with visibleCore := core } :=
        bind_of_error hcore _
      rw [releaseObservation, lift_bind hdecoded, bind_of_error hreveal]
      exact Adds.refl
    | ok commit core =>
      have hcore : onVisibleCore (ReplayCore.applyOrdered setup.hash event) self =
          .ok commit { self with visibleCore := core } :=
        (zoom_ok _ _ _ _ _ _ _).2 ⟨core, hcommit, rfl⟩
      cases hcheck : checkOccurrence commit.occurrence observation with
      | error e =>
        have hreveal : revealObservation setup event observation controlSequence self =
            .error e { self with visibleCore := core } := by
          rw [revealObservation, bind_of_ok hcore, lift_bind_error hcheck]
        rw [releaseObservation, lift_bind hdecoded, bind_of_error hreveal]
        exact Adds.refl
      | ok =>
        have hacts := stateAfter_of_meets
          (Meets.imp (acts_releaseObservation controlSequence hdecode hcommit hcheck)
          (fun _ _ h => h) fun _ _ h => h.1)
        exact hacts.controls

/-- What a control schedules is due at its time or later, and is no observation. -/
theorem schedules_processControl {control : BacktestControl} (hproper : Proper control) :
    Adds (Ensues control.time) self.controls
      (stateAfter (processControl setup control self)).controls := by
  by_cases hrelease : control.payload.isRelease = true
  · obtain ⟨time, phase, sequence, payload⟩ := control
    cases payload with
    | releaseObservation observation =>
      obtain rfl : time = observation.visibleAt := hproper.dueAt _ rfl
      exact schedules_releaseObservation observation sequence
    | _ => cases hrelease
  · exact (acts_processControl hproper (by simpa using hrelease)).stateAfter.controls

end Release

section Commit
variable {event : DomainEvent} {occurrence : EventOccurrence}

theorem le_of_addMilliseconds {time visibleAt : MatchTime} {milliseconds : U64}
    (h : addMilliseconds time milliseconds = .ok visibleAt) : time ≤ visibleAt := by
  simp only [addMilliseconds, bind_eq_ok, okOr_eq_ok, Option.bind_eq_some_iff, pure_eq_ok] at h
  obtain ⟨microseconds, ⟨product, -, hproduct⟩, value, hvalue, rfl⟩ := h
  have hsum := (Signed.checkedAdd_eq_some _ _ _).1 hvalue
  have hnonneg : microseconds.val = product.val := (Signed.ofInt?_eq_some _ _).1 hproduct
  change time.unixMicroseconds.val ≤ value.val
  omega

theorem acts_scheduleAuctionMatch (trading : TradingContext) (visibleAt : MatchTime) :
    Along (Acts event.matchTime) NoReplayFault
      (scheduleAuctionMatch event occurrence trading visibleAt) self := by
  refine Along.ite (fun _ => Along.lift_bind (.mapError fun _ => rfl) fun clearingPrice _ => ?_)
    fun _ => .pure _
  cases clearingPrice with
  | none => exact .pure _
  | some clearingPrice =>
    refine Along.lift_bind (.mapError fun _ => rfl) fun evidence hevidence => Along.get_bind ?_
    have hmatch : evidence.matchTime = event.matchTime := by
      have hnew := (mapError_eq_ok _ _ _).1 hevidence
      unfold AuctionMatchEvidence.new at hnew
      split_ifs at hnew
      cases hnew
      rfl
    refine Along.ite (fun _ => ?_) fun _ => .pure _
    refine Along.bind (acts_schedule (.allocateAuctionMatch evidence) le_rfl ?_ rfl)
      fun _ _ _ => .pure _
    simp [ScheduledBacktestControl.dueAt, hmatch]

/-- What is kept of a commit until it becomes visible. -/
structure Buffered (setup : ScheduledSetup σ) (event : DomainEvent) (occurrence : EventOccurrence)
    (observation : BufferedObservation) : Prop where
  canonical : event.toCanonicalBytes = .ok observation.canonicalEvent
  ordinal : observation.runEventOrdinal = occurrence.runEventOrdinal
  fingerprint : observation.eventFingerprint = occurrence.eventFingerprint
  version : observation.instrumentStateVersion = occurrence.instrumentStateVersion
  visibleAt : addMilliseconds event.matchTime setup.marketDataLatencyMs = .ok observation.visibleAt

/-- A queue with one more control, the observation. -/
structure Releases (observation : BufferedObservation)
    (queue queue' : ControlTimeQueue ScheduledBacktestControl) : Prop where
  pending : queue'.pending.Perm
    (⟨observation.visibleAt, .releaseObservation, queue.nextSequence,
      .releaseObservation observation⟩ :: queue.pending)
  next : queue.nextSequence < queue'.nextSequence

theorem ne_occurrenceDiffers {e : MultiBacktestError} (h : NoReplayFault e) :
    e ≠ .replay .occurrenceDiffers := by
  rintro rfl
  exact absurd h (by simp [NoReplayFault, MultiBacktestError.isReplay])

/-- A commit may put an auction match into the queue, and always puts its observation behind it. -/
theorem ends_bufferCommitted (core : ReplayCore) :
    Ends (bufferCommitted setup core event occurrence) self
    (fun _ after => ∃ between observation, Acts event.matchTime self between ∧
      Buffered setup event occurrence observation ∧
      Releases observation between.controls after.controls ∧
      after = { between with controls := after.controls })
    (fun e after => Acts event.matchTime self after ∧ e ≠ .replay .occurrenceDiffers) := by
  have hfails : ∀ {β : Type} {x : Except MultiBacktestError β} {s : ScheduledCoordinator σ},
      Acts event.matchTime self s →
      FailsIn (fun e => e ≠ .replay .occurrenceDiffers) x →
      ∀ e, x = .error e → Acts event.matchTime self s ∧ e ≠ .replay .occurrenceDiffers :=
    fun hs hx e he => ⟨hs, hx e he⟩
  have hself : Acts event.matchTime self self := Std.Refl.refl _
  refine Ends.lift_bind (fun segment _ => ?_) (hfails hself (.okOr (by simp)))
  refine Ends.lift_bind (fun state _ => ?_) (hfails hself (.okOr (by simp)))
  refine Ends.lift_bind (fun trading _ => ?_) (hfails hself (.mapError (by simp)))
  refine Ends.lift_bind (fun visibleAt hvisible => ?_) (hfails hself (.mapError (by simp)))
  have hauction : Along (Acts event.matchTime) (fun e => e ≠ .replay .occurrenceDiffers)
      (scheduleAuctionMatch event occurrence trading visibleAt) self :=
    Along.imp (acts_scheduleAuctionMatch trading visibleAt) (fun _ h => h) fun _ h =>
      ne_occurrenceDiffers h
  refine Meets.bind hauction fun _ between hbetween => ?_
  refine Ends.lift_bind (fun canonicalEvent hcanonical => ?_)
    (hfails hbetween (.mapError (by simp)))
  let observation : BufferedObservation := {
    canonicalEvent := canonicalEvent
    runEventOrdinal := occurrence.runEventOrdinal
    eventFingerprint := occurrence.eventFingerprint
    instrumentStateVersion := occurrence.instrumentStateVersion
    trading := trading
    visibleAt := visibleAt }
  have hschedule :=
    schedule_ends between.controls visibleAt .releaseObservation (.releaseObservation observation)
  refine Meets.bind (Meets.zoom (Meets.imp hschedule ?_ ?_)) fun _ after hafter => hafter
  · rintro sequence queue ⟨rfl, hpending, hnext⟩
    have hbuffered : Buffered setup event occurrence observation :=
      ⟨(mapError_eq_ok _ _ _).1 hcanonical, rfl, rfl, rfl, (mapError_eq_ok _ _ _).1 hvisible⟩
    exact ⟨between, observation, hbetween, hbuffered, ⟨hpending, hnext⟩, rfl⟩
  · rintro e queue rfl
    exact ⟨hbetween, by simp⟩

end Commit

end ScheduledCoordinator

end Osmium
