import Osmium.Proofs.Reducer
import Osmium.Sanity.Frame
import Osmium.Spec.Trading

/-! Auction rounds: what the state says of the round an event belongs to, where evidence of one
round shows in another, and when the trading context sees what the reducer resolved. -/

namespace Osmium
open Machine Bytes Result

section Resolution

/-- An observation completed by the running round. -/
def AuctionObservation.resolve (self : AuctionObservation) (running : Option AuctionObservation) :
    AuctionObservation :=
  match running with
  | none => self
  | some previous => if startsNewAuction previous self = true then self else self.merge previous

theorem mergeWithCurrentAuction_eq (state : MarketState) (observation : AuctionObservation) :
    mergeWithCurrentAuction state observation =
      observation.resolve (currentAuctionObservation state) := rfl

def MarketSignal.resolve (running : Option AuctionObservation) : MarketSignal → MarketSignal
  | .auctionCollecting observation => .auctionCollecting (observation.resolve running)
  | .auctionUncross observation => .auctionUncross (observation.resolve running)
  | .continuous => .continuous
  | .closed => .closed

theorem resolveSignal_eq (draft : Draft) (signal : MarketSignal) :
    draft.resolveSignal signal = signal.resolve (currentAuctionObservation draft.next) := by
  cases signal with
  | continuous => rfl
  | closed => rfl
  | auctionCollecting observation => rfl
  | auctionUncross observation => rfl

/-- The observation of the running round as an event finds it: a reset ends the round, and a
boundary that carries values over ends an indicative auction only. -/
def runningAuction (state : MarketState) (context : ReducerContext) : Option AuctionObservation :=
  if state.currentSegmentId = some context.sessionSegmentId then currentAuctionObservation state
  else match state.currentSegmentId, context.segmentBoundaryPolicy with
    | some _, .resetObservableFields => none
    | none, .resetObservableFields => currentAuctionObservation state
    | _, .carry =>
      match state.phase.known? with
      | some (.auction auction) => some auction.observation
      | _ => none

theorem currentAuctionObservation_clear (draft : Draft) (clearedAt : AppliedEventRef) :
    currentAuctionObservation (draft.clearIndicativeAuction clearedAt).next =
      match draft.next.phase.known? with
      | some (.auction auction) => some auction.observation
      | _ => none := by
  have hphase : (draft.clearIndicativeAuction clearedAt).next.phase = draft.next.phase := by
    unfold Draft.clearIndicativeAuction
    split <;> rfl
  have hnone : (draft.clearIndicativeAuction clearedAt).next.indicativeAuction.known? = none := by
    unfold Draft.clearIndicativeAuction
    cases hauction : draft.next.indicativeAuction with
    | unavailable reason => simp only [hauction]; rfl
    | known value observedAt => rfl
    | unknown raw observedAt => rfl
  unfold currentAuctionObservation
  rw [hphase, hnone]
  cases hknown : draft.next.phase.known? with
  | none => rfl
  | some phase => cases phase <;> rfl

theorem currentAuctionObservation_enterSegment (state : MarketState) (context : ReducerContext)
    (eventRef : AppliedEventRef) :
    currentAuctionObservation (MarketStateReducer.enterSegment state context eventRef).next =
      runningAuction state context := by
  unfold MarketStateReducer.enterSegment runningAuction
  dsimp only
  split_ifs with hsame
  · rfl
  · cases hsegment : state.currentSegmentId with
    | none =>
      cases hpolicy : context.segmentBoundaryPolicy with
      | carry => exact currentAuctionObservation_clear ⟨state, ∅, ∅, none⟩ eventRef
      | resetObservableFields => rfl
    | some segment =>
      cases hpolicy : context.segmentBoundaryPolicy with
      | carry => exact currentAuctionObservation_clear ⟨state, ∅, ∅, none⟩ eventRef
      | resetObservableFields => rfl

/-- What a reduction does to the auction fields, by the market signal of its event. -/
theorem apply_auctions {hash : List UInt8 → Digest} {reducer : MarketStateReducer}
    {state next : MarketState}
    {event : DomainEvent} {context : ReducerContext} {receipt : TransitionReceipt}
    (h : reducer.apply hash state event context = .ok (next, receipt)) :
    ∃ eventRef, AppliedEventRef.fromEvent hash event = .ok eventRef ∧
      (event.payload.marketSignal = .noObservation →
        SameAuctions next (MarketStateReducer.enterSegment state context eventRef).next) ∧
      (∀ signal, event.payload.marketSignal = .set signal →
        next.marketSignal = .known (signal.resolve (runningAuction state context)) eventRef ∧
        next.phase = phaseField (signal.resolve (runningAuction state context)) eventRef) ∧
      (∀ auction, event.payload = .indicativeAuction auction → next.indicativeAuction =
        .known (auction.withObservation
          (auction.observation.resolve (runningAuction state context))) eventRef) ∧
      ((∀ signal, event.payload.marketSignal ≠ .set signal) →
        event.payload.marketSignal ≠ .noObservation →
        next.phase.known? = none) := by
  obtain ⟨eventRef, draft, version, -, -, href, hdraft, rfl, -, -, -, -⟩ :=
    MarketStateReducer.apply_ok h
  refine ⟨eventRef, href, ?_⟩
  have hentered := currentAuctionObservation_enterSegment state context eventRef
  by_cases hkind : ∃ auction, event.payload = .indicativeAuction auction
  · obtain ⟨auction, hauction⟩ := hkind
    have hsignal : event.payload.marketSignal = .set (.auctionCollecting auction.observation) := by
      rw [hauction]; rfl
    rw [hauction] at hdraft
    obtain rfl := Except.ok.inj hdraft
    -- the observation is merged into its own field first, and from there into the signal
    let entered := (MarketStateReducer.enterSegment state context eventRef).next
    let written := { entered with
      indicativeAuction :=
        .known
          (auction.withObservation (mergeWithCurrentAuction entered auction.observation)) eventRef }
    have hfirst : mergeWithCurrentAuction entered auction.observation =
        auction.observation.resolve (runningAuction state context) := by
      rw [mergeWithCurrentAuction_eq, hentered]
    have hsecond : mergeWithCurrentAuction written auction.observation =
        auction.observation.resolve (runningAuction state context) :=
      (mergeWithCurrentAuction_indicative ⟨rfl, rfl, rfl⟩).trans hfirst
    rw [hsignal]
    refine ⟨nofun, fun signal heq => ?_, fun other hother => ?_, fun hnever =>
      absurd rfl (hnever _)⟩
    · obtain rfl : MarketSignal.auctionCollecting auction.observation = signal := by simpa using heq
      refine ⟨?_, ?_⟩
      · change StateField.known (MarketSignal.auctionCollecting
            (mergeWithCurrentAuction written auction.observation)) eventRef = _
        rw [hsecond]
        rfl
      · change phaseField (MarketSignal.auctionCollecting
            (mergeWithCurrentAuction written auction.observation)) eventRef = _
        rw [hsecond]
        rfl
    · obtain rfl : auction = other := by rw [hauction] at hother; simpa using hother
      change StateField.known (auction.withObservation
          (mergeWithCurrentAuction entered auction.observation)) eventRef = _
      rw [hfirst]
  · rcases applyPayload_auctions hdraft with hsame | ⟨auction, hauction, -⟩
    · have hcurrent : currentAuctionObservation draft.next = runningAuction state context :=
        hsame.current.trans hentered
      refine ⟨fun hnone => ?_, fun signal hsignal => ?_, fun auction hauction =>
        absurd ⟨auction, hauction⟩ hkind, fun hnever hobserved => ?_⟩
      · rw [hnone]
        exact ⟨hsame.signal, hsame.phase, hsame.indicative⟩
      · rw [hsignal]
        refine ⟨?_, ?_⟩
        · change StateField.known (draft.resolveSignal signal) eventRef = _
          rw [resolveSignal_eq, hcurrent]
        · change phaseField (draft.resolveSignal signal) eventRef = _
          rw [resolveSignal_eq, hcurrent]
      · cases hsignal : event.payload.marketSignal with
        | noObservation => exact absurd hsignal hobserved
        | set signal => exact absurd hsignal (hnever signal)
        | clear => rfl
        | unknown raw => rfl
    · exact absurd ⟨auction, hauction⟩ hkind

end Resolution

section Rounds

/-- What the events of a round have observed, the latest first. -/
abbrev Round := List AuctionObservation

namespace Round

/-- The purpose last known in the round. -/
def lastPurpose (round : Round) : Option AuctionPurpose :=
  round.findSome? fun observation =>
    match observation.purpose with
    | .known purpose => some purpose
    | .noObservation | .unknown => none

/-- An observation with a known purpose that is not the one last known opens a round of its own. -/
def openedBy (round : Round) (observation : AuctionObservation) : Bool :=
  match observation.purpose, round.lastPurpose with
  | .known purpose, some last => purpose ≠ last
  | _, _ => false

def join (round : Round) (observation : AuctionObservation) : Round :=
  if round.openedBy observation = true then [observation] else observation :: round

/-- A reset ends the round. -/
def enter (round : Round) (state : MarketState) (context : ReducerContext) : Round :=
  if ResetsAt state context then [] else round

/-- The round with the observation of an event that belongs to it. -/
def withEvent (round : Round) (state : MarketState) (event : DomainEvent)
    (context : ReducerContext) : Round :=
  match event.payload.auction with
  | none => round.enter state context
  | some observation => (round.enter state context).join observation

/-- The round that runs after an event. An uncross is the last event of its round; where the state
goes on with a periodic auction, the next round starts as not delayed. A signal that is cleared or
not known leaves no round. -/
def after (round : Round) (state : MarketState) (event : DomainEvent) (context : ReducerContext)
    (next : MarketState) :
    Round :=
  match event.payload.marketSignal with
  | .noObservation => round.enter state context
  | .set (.auctionCollecting _) => round.withEvent state event context
  | .set (.auctionUncross _) =>
    match next.phase.known? with
    | some (.auction _) => [.periodicWithEvidence (.known false) .noObservation]
    | _ => []
  | .set .continuous | .set .closed | .clear | .unknown _ => []

/-- What an observation says of delay and direction was observed in the round. -/
structure Observed (round : Round) (observation : AuctionObservation) : Prop where
  delayed : ∀ value, observation.delayed = .known value →
      ∃ other ∈ round, other.delayed = .known value
  direction : ∀ value, observation.direction = .known value →
      ∃ other ∈ round, other.direction = .known value

theorem mem_join (round : Round) (observation : AuctionObservation) :
    observation ∈ round.join observation := by
  unfold join
  split_ifs
  · exact List.mem_singleton_self _
  · exact List.mem_cons_self

theorem observed_of_mem {round : Round} {observation : AuctionObservation}
    (h : observation ∈ round) :
    round.Observed observation :=
  ⟨fun _ hvalue => ⟨observation, h, hvalue⟩, fun _ hvalue => ⟨observation, h, hvalue⟩⟩

end Round

/-- The observation takes over what the earlier one knew of delay or direction, by saying nothing of
it. -/
def Inherits (previous observation : AuctionObservation) : Prop :=
  observation.delayed = .noObservation ∧ previous.delayed.isKnown = true ∨
    observation.direction = .noObservation ∧ previous.direction.isKnown = true

/-- An event that takes over evidence takes it from the phase of a running auction, and does not
open a round. -/
def KeepsRound (round : Round) (state : MarketState) (event : DomainEvent)
    (context : ReducerContext) : Prop :=
  ∀ observation ∈ event.payload.auction, ∀ previous ∈ runningAuction state context,
    startsNewAuction previous observation = false → Inherits previous observation →
      (∃ auction, state.phase.known? = some (.auction auction)) ∧
        (round.enter state context).openedBy observation = false

/-- The states of a run with their rounds, each step subject to a condition. -/
inductive RoundRun (hash : List UInt8 → Digest) (reducer : MarketStateReducer)
    (instrument : InstrumentId) (tradingDate : TradingDate)
    (allowed : Round → MarketState → DomainEvent → ReducerContext → Prop) :
    MarketState → Round → Prop
  | new : RoundRun hash reducer instrument tradingDate allowed (.new instrument tradingDate) []
  | step {state next : MarketState} {round : Round} {event : DomainEvent} {context : ReducerContext}
      {receipt : TransitionReceipt}
      (hrun : RoundRun hash reducer instrument tradingDate allowed state round)
      (hallowed : allowed round state event context)
      (happly : reducer.apply hash state event context = .ok (next, receipt)) :
      RoundRun hash reducer instrument tradingDate allowed next
        (round.after state event context next)

/-- The phase of a running auction knows only what its round observed. -/
def PhaseObserved (round : Round) (state : MarketState) : Prop :=
  ∀ auction, state.phase.known? = some (.auction auction) → round.Observed auction.observation

section Step
variable {hash : List UInt8 → Digest} {reducer : MarketStateReducer} {state next : MarketState}
  {round : Round}
  {event : DomainEvent} {context : ReducerContext} {receipt : TransitionReceipt}

theorem phase_clearIndicativeAuction (draft : Draft) (clearedAt : AppliedEventRef) :
    (draft.clearIndicativeAuction clearedAt).next.phase = draft.next.phase := by
  unfold Draft.clearIndicativeAuction
  split <;> rfl

theorem phase_enterSegment (eventRef : AppliedEventRef) :
    (MarketStateReducer.enterSegment state context eventRef).next.phase =
      if ResetsAt state context then .initial else state.phase := by
  unfold MarketStateReducer.enterSegment
  dsimp only
  by_cases hsame : state.currentSegmentId = some context.sessionSegmentId
  · rw [if_pos hsame, if_neg fun h => h.2.1 hsame]
  · rw [if_neg hsame]
    have hcleared := phase_clearIndicativeAuction ⟨state, ∅, ∅, none⟩ eventRef
    cases hpolicy : context.segmentBoundaryPolicy with
    | carry =>
      have hreset : ¬ ResetsAt state context := fun h => nomatch hpolicy.symm.trans h.2.2
      rw [if_neg hreset]
      cases state.currentSegmentId with
      | none => exact hcleared
      | some segment => exact hcleared
    | resetObservableFields =>
      by_cases hnone : state.currentSegmentId = none
      · rw [if_neg fun h => h.1 hnone]
        simp only [hnone]
        rfl
      · rw [if_pos ⟨hnone, hsame, hpolicy⟩]
        obtain ⟨segment, hsegment⟩ := Option.ne_none_iff_exists'.1 hnone
        simp only [hsegment]
        rfl

/-- Where the phase is that of an auction, it is the running one. -/
theorem runningAuction_of_phase {auction : AuctionState}
    (hphase : state.phase.known? = some (.auction auction))
    {previous : AuctionObservation} (hprevious : runningAuction state context = some previous) :
    ¬ ResetsAt state context ∧ previous = auction.observation := by
  have hcurrent : currentAuctionObservation state = some auction.observation := by
    simp [currentAuctionObservation, hphase]
  unfold runningAuction at hprevious
  by_cases hsame : state.currentSegmentId = some context.sessionSegmentId
  · rw [if_pos hsame, hcurrent] at hprevious
    exact ⟨fun h => h.2.1 hsame, (Option.some.inj hprevious).symm⟩
  · rw [if_neg hsame] at hprevious
    cases hsegment : state.currentSegmentId with
    | none =>
      refine ⟨fun h => h.1 hsegment, ?_⟩
      cases hpolicy : context.segmentBoundaryPolicy with
      | carry => simpa [hsegment, hpolicy, hphase, eq_comm] using hprevious
      | resetObservableFields => simpa [hsegment, hpolicy, hcurrent, eq_comm] using hprevious
    | some segment =>
      cases hpolicy : context.segmentBoundaryPolicy with
      | carry =>
        exact ⟨fun h => absurd (hpolicy.symm.trans h.2.2)
          (by simp), by simpa [hsegment, hpolicy, hphase, eq_comm] using hprevious⟩
      | resetObservableFields => simp [hsegment, hpolicy] at hprevious

theorem KeepsRound.observed (h : PhaseObserved round state)
    (hkeeps : KeepsRound round state event context)
    {observation : AuctionObservation} (hobservation : event.payload.auction = some observation) :
    (round.withEvent state event context).Observed
      (observation.resolve (runningAuction state context)) := by
  have hround : round.withEvent state event context = (round.enter state context).join
      observation := by
    rw [Round.withEvent, hobservation]
  rw [hround]
  have hself := Round.observed_of_mem (Round.mem_join (round.enter state context) observation)
  cases hrunning : runningAuction state context with
  | none => exact hself
  | some previous =>
    unfold AuctionObservation.resolve
    by_cases hnew : startsNewAuction previous observation = true
    · simp only [if_pos hnew]
      exact hself
    · simp only [if_neg hnew]
      -- what is taken over was observed before in the round that the observation joins
      have hbefore (hinherits : Inherits previous observation) :
          ((round.enter state context).join observation).Observed previous := by
        obtain ⟨⟨auction, hphase⟩, hjoins⟩ := hkeeps observation hobservation previous hrunning
          (Bool.eq_false_iff.2 hnew) hinherits
        obtain ⟨hreset, rfl⟩ := runningAuction_of_phase hphase hrunning
        have hobserved := h auction hphase
        rw [Round.join, if_neg (by simp [hjoins]), Round.enter, if_neg hreset]
        exact ⟨fun value hvalue => (hobserved.delayed value hvalue).imp fun _ hother =>
          ⟨.tail _ hother.1, hother.2⟩,
          fun value hvalue => (hobserved.direction value hvalue).imp
            fun _ hother => ⟨.tail _ hother.1, hother.2⟩⟩
      refine ⟨fun value hvalue => ?_, fun value hvalue => ?_⟩
      · cases hdelayed : observation.delayed with
        | noObservation =>
          have hprevious : previous.delayed = .known value := by
            simpa [AuctionObservation.merge, hdelayed, mergeEvidence] using hvalue
          exact (hbefore (.inl ⟨hdelayed, by rw [hprevious]; rfl⟩)).delayed value hprevious
        | known own =>
          exact hself.delayed value
            (by simpa [AuctionObservation.merge, hdelayed, mergeEvidence] using hvalue)
        | unknown => simp [AuctionObservation.merge, hdelayed, mergeEvidence] at hvalue
      · cases hdirection : observation.direction with
        | noObservation =>
          have hprevious : previous.direction = .known value := by
            simpa [AuctionObservation.merge, hdirection, mergeEvidence] using hvalue
          exact (hbefore (.inr ⟨hdirection, by rw [hprevious]; rfl⟩)).direction value hprevious
        | known own =>
          exact hself.direction value
            (by simpa [AuctionObservation.merge, hdirection, mergeEvidence] using hvalue)
        | unknown => simp [AuctionObservation.merge, hdirection, mergeEvidence] at hvalue

/-- After a step that keeps to its round, the phase still knows only what the round observed. -/
theorem PhaseObserved.step (h : PhaseObserved round state)
    (hkeeps : KeepsRound round state event context)
    (happly : reducer.apply hash state event context = .ok (next, receipt)) :
    PhaseObserved (round.after state event context next) next := by
  obtain ⟨eventRef, -, hnone, hset, -, hlost⟩ := apply_auctions happly
  intro auction hauction
  unfold Round.after
  cases hsignal : event.payload.marketSignal with
  | noObservation =>
    rw [(hnone hsignal).phase, phase_enterSegment] at hauction
    by_cases hreset : ResetsAt state context
    · rw [if_pos hreset] at hauction
      cases hauction
    · rw [if_neg hreset] at hauction
      simp only [Round.enter, if_neg hreset]
      exact h auction hauction
  | clear =>
    rw [hlost (by simp [hsignal]) (by simp [hsignal])] at hauction
    cases hauction
  | unknown raw =>
    rw [hlost (by simp [hsignal]) (by simp [hsignal])] at hauction
    cases hauction
  | set signal =>
    have hphase := (hset signal hsignal).2
    cases signal with
    | continuous =>
      rw [hphase] at hauction
      cases hauction
    | closed =>
      rw [hphase] at hauction
      cases hauction
    | auctionCollecting observation =>
      rw [hphase] at hauction
      obtain rfl : AuctionState.mk (observation.resolve (runningAuction state context)) =
          auction := by
        simpa [phaseField, MarketSignal.resolve, postMarketPhase, StateField.known?] using hauction
      exact KeepsRound.observed h hkeeps
        (by simp [EventPayload.auction, hsignal, MarketSignal.auction])
    | auctionUncross observation =>
      simp only [hauction]
      rw [hphase] at hauction
      simp only [phaseField, MarketSignal.resolve, postMarketPhase] at hauction
      cases hpurpose : (observation.resolve (runningAuction state context)).purpose with
      | noObservation => simp [hpurpose, StateField.known?] at hauction
      | unknown => simp [hpurpose, StateField.known?] at hauction
      | known purpose =>
        cases purpose with
        | opening => simp [hpurpose, StateField.known?] at hauction
        | closing => simp [hpurpose, StateField.known?] at hauction
        | volatilityInterruption => simp [hpurpose, StateField.known?] at hauction
        | periodic =>
          obtain rfl : AuctionState.mk
              (nextPeriodicAuctionRound (observation.resolve (runningAuction state context))) =
              auction := by simpa [hpurpose, StateField.known?] using hauction
          exact ⟨fun value hvalue => ⟨_, List.mem_singleton_self _, hvalue⟩,
            fun value hnone => by cases hnone⟩

end Step

theorem RoundRun.observed {hash : List UInt8 → Digest} {reducer : MarketStateReducer}
    {instrument : InstrumentId} {tradingDate : TradingDate} {state : MarketState} {round : Round}
    (h : RoundRun hash reducer instrument tradingDate KeepsRound state round) :
    PhaseObserved round state := by
  induction h with
  | new => exact fun _ => nofun
  | step _ hkeeps happly ih => exact ih.step hkeeps happly

/-- In every run an indicative auction is held as one resolved observation, and an uncross leads to
the phase of its resolved purpose. Where no event takes evidence over from an earlier round, none
shows in a later one. -/
theorem auction_round_lifecycle (hash : List UInt8 → Digest) (reducer : MarketStateReducer)
    (instrument : InstrumentId) (tradingDate : TradingDate) :
    (∀ state round event context next receipt,
      RoundRun hash reducer instrument tradingDate (fun _ _ _ _ => True) state round →
      reducer.apply hash state event context = .ok (next, receipt) →
      (∀ auction, event.payload = .indicativeAuction auction → ∃ resolved eventRef,
        next.indicativeAuction = .known (auction.withObservation resolved) eventRef ∧
        next.marketSignal = .known (.auctionCollecting resolved) eventRef ∧
        next.phase = .known (.auction ⟨resolved⟩) eventRef) ∧
      ∀ observation, event.payload.marketSignal = .set (.auctionUncross observation) →
      ∃ resolved eventRef,
        next.marketSignal = .known (.auctionUncross resolved) eventRef ∧
        next.phase = match resolved.purpose with
          | .known .opening | .known .volatilityInterruption => .known .continuous eventRef
          | .known .closing => .known .closed eventRef
          | .known .periodic =>
            .known (.auction ⟨.periodicWithEvidence (.known false) resolved.disposal⟩) eventRef
          | .noObservation | .unknown => .unknown (.text auctionPurposeUnavailable) eventRef) ∧
    ∀ state round, RoundRun hash reducer instrument tradingDate KeepsRound state round →
      (∀ auction, state.phase.known? = some (.auction auction) →
        round.Observed auction.observation) ∧
      ∀ event context next receipt, KeepsRound round state event context →
        reducer.apply hash state event context = .ok (next, receipt) →
        ∀ observation ∈ event.payload.auction, ∃ signal resolved,
          next.marketSignal.known? = some signal ∧
          signal.auction = some resolved ∧
          (round.withEvent state event context).Observed resolved := by
  refine ⟨fun state round event context next receipt _ happly => ?_, fun state round hrun => ?_⟩
  · obtain ⟨eventRef, -, -, hset, hindicative, -⟩ := apply_auctions happly
    refine ⟨fun auction hauction => ?_, fun observation hsignal => ?_⟩
    · have hsignal : event.payload.marketSignal =
          .set (.auctionCollecting auction.observation) := by rw [hauction]; rfl
      exact ⟨_, eventRef, hindicative auction hauction, hset _ hsignal⟩
    · obtain ⟨hwritten, hphase⟩ := hset _ hsignal
      refine ⟨_, eventRef, hwritten, ?_⟩
      rw [hphase]
      simp only [phaseField, MarketSignal.resolve, postMarketPhase, nextPeriodicAuctionRound]
      cases (observation.resolve (runningAuction state context)).purpose with
      | noObservation => rfl
      | unknown => rfl
      | known purpose => cases purpose <;> rfl
  · refine ⟨hrun.observed,
      fun event context next receipt hkeeps happly observation hobservation => ?_⟩
    obtain ⟨eventRef, -, -, hset, -, -⟩ := apply_auctions happly
    have hobserved := KeepsRound.observed hrun.observed hkeeps hobservation
    cases hsignal : event.payload.marketSignal with
    | set signal =>
      refine ⟨_, _, by rw [(hset signal hsignal).1]; rfl, ?_, hobserved⟩
      simp only [EventPayload.auction, hsignal, Option.mem_def] at hobservation
      cases signal with
      | continuous => cases hobservation
      | closed => cases hobservation
      | auctionCollecting own =>
        obtain rfl := Option.some.inj hobservation
        rfl
      | auctionUncross own =>
        obtain rfl := Option.some.inj hobservation
        rfl
    | noObservation => simp [EventPayload.auction, hsignal] at hobservation
    | clear => simp [EventPayload.auction, hsignal] at hobservation
    | unknown raw => simp [EventPayload.auction, hsignal] at hobservation

theorem runningAuction_interruptionUp {state : MarketState}
    (h : sampleReducer.applyAll sampleHash [interruptionUp] (.new sampleInstrument firstDay) =
      .ok state) :
    runningAuction state (sampleContext firstDay) =
      some (.volatilityInterruption .up false false) := by
  obtain ⟨hsegment, hphase⟩ := running_interruptionUp h
  rw [runningAuction, if_pos hsegment, currentAuctionObservation, hphase]

/-- The record is of the round of the interruption, whose direction it takes over: a direction that
the round observed. -/
theorem delayed_interruption_observed : ∃ next round,
    sampleReducer.applyAll sampleHash [interruptionUp, delayedRecord]
      (.new sampleInstrument firstDay) = .ok next ∧
    RoundRun sampleHash sampleReducer sampleInstrument firstDay KeepsRound next round ∧
    round = [⟨.noObservation, .known true, .noObservation, .noObservation⟩,
      .volatilityInterruption .up false false] ∧
    next.phase.known? =
      some (.auction ⟨⟨.known .volatilityInterruption, .known true, .known false, .known .up⟩⟩) ∧
    round.Observed ⟨.known .volatilityInterruption, .known true, .known false, .known .up⟩ := by
  have hphases : (sampleReducer.applyAll sampleHash [interruptionUp, delayedRecord]
      (.new sampleInstrument firstDay)).toOption.bind (fun state => state.phase.known?) =
      some (.auction
        ⟨⟨.known .volatilityInterruption, .known true, .known false,
          .known .up⟩⟩) := by decide +kernel
  obtain ⟨next, hrun⟩ :=
    exists_of_isOk (x := sampleReducer.applyAll sampleHash [interruptionUp, delayedRecord]
    (.new sampleInstrument firstDay)) (by decide +kernel)
  rw [hrun] at hphases
  have hsteps := hrun
  simp only [MarketStateReducer.applyAll, bind_eq_ok] at hsteps
  obtain ⟨⟨state, receipt⟩, hfirst, ⟨last, receipt'⟩, hsecond, hlast⟩ := hsteps
  obtain rfl : last = next := Except.ok.inj hlast
  have hstate : sampleReducer.applyAll sampleHash [interruptionUp]
      (.new sampleInstrument firstDay) = .ok state := by
    rw [MarketStateReducer.applyAll, hfirst]
    rfl
  have hround : RoundRun sampleHash sampleReducer sampleInstrument firstDay KeepsRound state
      [.volatilityInterruption .up false false] :=
    RoundRun.new.step (fun observation _ previous hprevious => by cases hprevious) hfirst
  have hkeeps : KeepsRound [.volatilityInterruption .up false false] state delayedRecord.1
      delayedRecord.2 := by
    intro observation hobservation _ _ _ _
    cases hobservation
    exact ⟨⟨_, (running_interruptionUp hstate).2⟩, by simp [Round.openedBy]⟩
  have hafter := hround.step hkeeps hsecond
  refine ⟨last, _, hrun, hafter, ?_, hphases, ?_⟩
  · have hsignal : delayedRecord.1.payload.marketSignal =
        .set (.auctionCollecting ⟨.noObservation, .known true, .noObservation, .noObservation⟩) :=
      rfl
    have hauction : delayedRecord.1.payload.auction =
        some ⟨.noObservation, .known true, .noObservation, .noObservation⟩ :=
      rfl
    have hreset : ¬ ResetsAt state delayedRecord.2 :=
      fun h => h.2.1 (running_interruptionUp hstate).1
    simp [Round.after, hsignal, Round.withEvent, hauction, Round.enter, hreset, Round.join,
      Round.openedBy]
  · exact ((auction_round_lifecycle sampleHash sampleReducer sampleInstrument firstDay).2 _ _
      hafter).1 _ hphases

/-- Reduces events one after the other, with their rounds. -/
def roundAll (hash : List UInt8 → Digest) (reducer : MarketStateReducer) :
    List ReducerInput → MarketState × Round → Except StateTransitionError (MarketState × Round)
  | [], reached => .ok reached
  | (event, context) :: rest, (state, round) => do
    let (next, _) ← reducer.apply hash state event context
    roundAll hash reducer rest (next, round.after state event context next)

theorem RoundRun.all {hash : List UInt8 → Digest} {reducer : MarketStateReducer}
    {instrument : InstrumentId}
    {tradingDate : TradingDate} {state final : MarketState} {round last : Round}
    (h : RoundRun hash reducer instrument tradingDate (fun _ _ _ _ => True) state round)
    (inputs : List ReducerInput)
    (hall : roundAll hash reducer inputs (state, round) = .ok (final, last)) :
    RoundRun hash reducer instrument tradingDate (fun _ _ _ _ => True) final last := by
  induction inputs generalizing state round with
  | nil =>
    obtain ⟨rfl, rfl⟩ := Prod.mk.inj (Except.ok.inj hall)
    exact h
  | cons input rest ih =>
    simp only [roundAll, bind_eq_ok] at hall
    obtain ⟨⟨next, receipt⟩, happly, hrest⟩ := hall
    exact ih (h.step trivial happly) hrest

/-- An indicative auction of a volatility interruption upwards, an opening auction, and a signal
nobody knows. -/
def interruptedOpening : List ReducerInput :=
  [({ auctionStatus (.new .opening false false) 10 with
      payload :=
        .indicativeAuction
          ⟨.volatilityInterruption .up false false, .noObservation, .noObservation, .noObservation,
        .noObservation, .none, rfl⟩ }, sampleContext firstDay),
    (auctionStatus (.new .opening false false) 11, sampleContext firstDay),
    ({ auctionStatus (.new .opening false false) 12 with
      payload := .marketStatus ((MarketStatusObservation.new .noObservation .none).withMarketSignal
        (.unknown (.text auctionPurposeUnavailable))) }, sampleContext firstDay)]

/-- An auction that is told nothing about. -/
def unqualifiedAuction : DomainEvent :=
  auctionStatus ⟨.noObservation, .noObservation, .noObservation, .noObservation⟩ 13

/-- The direction of the interruption is taken over by an auction two rounds later. -/
theorem direction_shows_in_later_round : ∃ state round next receipt,
    RoundRun sampleHash sampleReducer sampleInstrument firstDay (fun _ _ _ _ => True) state round ∧
    roundAll sampleHash sampleReducer interruptedOpening (.new sampleInstrument firstDay, []) =
      .ok (state, round) ∧
    sampleReducer.apply sampleHash state unqualifiedAuction (sampleContext firstDay) =
      .ok (next, receipt) ∧
    next.marketSignal.known? = some (.auctionCollecting (.volatilityInterruption .up false false)) ∧
    round.withEvent state unqualifiedAuction (sampleContext firstDay) =
      [⟨.noObservation, .noObservation, .noObservation, .noObservation⟩] := by
  obtain ⟨⟨state, round⟩, hall⟩ :=
    exists_of_isOk (show (roundAll sampleHash sampleReducer interruptedOpening
    (.new sampleInstrument firstDay, [])).isOk = true by decide +kernel)
  have hlast :
      (roundAll sampleHash sampleReducer interruptedOpening
        (.new sampleInstrument firstDay, [])).toOption.any
      (fun reached =>
        decide (reached.2.withEvent reached.1 unqualifiedAuction (sampleContext firstDay) =
          [⟨.noObservation, .noObservation, .noObservation, .noObservation⟩]) &&
        (sampleReducer.apply sampleHash reached.1 unqualifiedAuction
          (sampleContext firstDay)).toOption.any fun applied =>
          applied.1.marketSignal.known? =
            some (.auctionCollecting (.volatilityInterruption .up false false))) = true := by
    decide +kernel
  rw [hall] at hlast
  simp only [Except.toOption, Option.any_some, Bool.and_eq_true, decide_eq_true_eq] at hlast
  obtain ⟨hround, happly⟩ := hlast
  cases happlied :
    sampleReducer.apply sampleHash state unqualifiedAuction (sampleContext firstDay) with
  | error e => simp [happlied] at happly
  | ok applied =>
    simp only [happlied, Option.any_some, decide_eq_true_eq] at happly
    exact ⟨state, round, applied.1, applied.2, RoundRun.new.all _ hall, hall, happlied,
      happly, hround⟩

end Rounds

section Context
open MarketTradingContextEvaluator

/-- The observation says something of everything that the earlier one does. -/
def Restates (observation previous : AuctionObservation) : Prop :=
  (observation.purpose = .noObservation → previous.purpose = .noObservation) ∧
    (observation.delayed = .noObservation → previous.delayed = .noObservation) ∧
    (observation.disposal = .noObservation → previous.disposal = .noObservation) ∧
    (observation.direction = .noObservation → previous.direction = .noObservation)

theorem mergeEvidence_eq_iff {α : Type} (prior current : AuctionEvidence α) :
    mergeEvidence prior current = current ↔
    (current = .noObservation → prior = .noObservation) := by
  cases current with
  | noObservation => simp [mergeEvidence]
  | known value => simp [mergeEvidence]
  | unknown => simp [mergeEvidence]

theorem resolve_eq_iff (observation : AuctionObservation) (running : Option AuctionObservation) :
    observation.resolve running = observation ↔
      ∀ previous ∈ running, startsNewAuction previous observation = false →
      Restates observation previous := by
  cases running with
  | none => simp [AuctionObservation.resolve]
  | some previous =>
    simp only [AuctionObservation.resolve, Option.mem_def, Option.some.injEq, forall_eq']
    by_cases hnew : startsNewAuction previous observation = true
    · simp [hnew]
    · rw [if_neg hnew, AuctionObservation.ext_iff]
      simp only [AuctionObservation.merge, mergeEvidence_eq_iff, Restates, Bool.eq_false_iff.2 hnew,
        forall_const]

/-- The trading context decides on what the event itself says. -/
theorem evaluate_auction {event : DomainEvent} {occurrence : EventOccurrence} {state : MarketState}
    {segment : SessionSegment} {trading : TradingContext} {signal : MarketSignal}
    {observation : AuctionObservation} (h : evaluate event occurrence state segment = .ok trading)
    (hsignal : event.payload.marketSignal = .set signal)
    (hobservation : signal.auction = some observation) :
    trading.auction = some observation ∧
      trading.newOrderEntry = orderEntryForSignal (.set signal) (.enabled .callAuction)
        (some observation)
        trading.session.phase := by
  simp only [evaluate, bind_eq_ok, pure_eq_ok, hsignal] at h
  obtain ⟨_, -, phase, -, rfl⟩ := h
  cases signal with
  | continuous => cases hobservation
  | closed => cases hobservation
  | auctionCollecting own =>
    obtain rfl := Option.some.inj hobservation
    exact ⟨rfl, rfl⟩
  | auctionUncross own =>
    obtain rfl := Option.some.inj hobservation
    exact ⟨rfl, rfl⟩

theorem auction_resolve {signal : MarketSignal} {observation : AuctionObservation}
    (h : signal.auction = some observation) (running : Option AuctionObservation) :
    (signal.resolve running).auction = some (observation.resolve running) := by
  cases signal with
  | continuous => cases h
  | closed => cases h
  | auctionCollecting own =>
    obtain rfl := Option.some.inj h
    rfl
  | auctionUncross own =>
    obtain rfl := Option.some.inj h
    rfl

theorem resolve_signal_eq {signal : MarketSignal} {observation : AuctionObservation}
    (h : signal.auction = some observation)
    {running : Option AuctionObservation} (hsame : observation.resolve running = observation) :
    signal.resolve running = signal := by
  cases signal with
  | continuous => rfl
  | closed => rfl
  | auctionCollecting own =>
    obtain rfl := Option.some.inj h
    rw [MarketSignal.resolve, hsame]
  | auctionUncross own =>
    obtain rfl := Option.some.inj h
    rw [MarketSignal.resolve, hsame]

/-- The context of an auction event shows and decides on what the reducer resolved exactly when the
event restates everything that the running round knows. -/
theorem context_sees_resolved_iff (hash : List UInt8 → Digest) (reducer : MarketStateReducer)
    (state next : MarketState)
    (event : DomainEvent) (context : ReducerContext) (receipt : TransitionReceipt)
    (occurrence : EventOccurrence)
    (segment : SessionSegment) (trading : TradingContext) (observation : AuctionObservation)
    (happly : reducer.apply hash state event context = .ok (next, receipt))
    (hcontext : evaluate event occurrence next segment = .ok trading)
    (hobservation : event.payload.auction = some observation) :
    (∃ signal, next.marketSignal.known? = some signal ∧ trading.auction = signal.auction ∧
      trading.newOrderEntry = orderEntryForSignal (.set signal)
        (.enabled .callAuction) signal.auction
        trading.session.phase) ↔
    ∀ previous ∈ runningAuction state context, startsNewAuction previous observation = false →
      Restates observation previous := by
  obtain ⟨eventRef, -, -, hset, -, -⟩ := apply_auctions happly
  rw [← resolve_eq_iff]
  cases hsignal : event.payload.marketSignal with
  | noObservation => simp [EventPayload.auction, hsignal] at hobservation
  | clear => simp [EventPayload.auction, hsignal] at hobservation
  | unknown raw => simp [EventPayload.auction, hsignal] at hobservation
  | set signal =>
    have hown : signal.auction = some observation := by
      simpa [EventPayload.auction, hsignal] using hobservation
    obtain ⟨hauction, hentry⟩ := evaluate_auction hcontext hsignal hown
    have hwritten : next.marketSignal.known? =
        some (signal.resolve (runningAuction state context)) := by
      rw [(hset signal hsignal).1]
      rfl
    refine ⟨fun h => ?_, fun hsame => ?_⟩
    · obtain ⟨resolved, hresolved, hsees, -⟩ := h
      obtain rfl := Option.some.inj (hwritten.symm.trans hresolved)
      rw [hauction, auction_resolve hown] at hsees
      exact (Option.some.inj hsees).symm
    · refine ⟨signal, by rw [hwritten, resolve_signal_eq hown hsame], hauction.trans hown.symm, ?_⟩
      rw [hentry, hown]

/-- A window of a second around the sample events. -/
def sampleSegment : SessionSegment :=
  ⟨regularSegment, .regular, firstDay, sampleTime 0, sampleTime 1000000, by decide +kernel,
  by decide +kernel⟩

def occurrenceAfter (event : DomainEvent) (version : ℕ) : EventOccurrence where
  runEventOrdinal := Unsigned.wrap 64 version
  orderingKey :=
    ⟨event.matchTime, event.instrument.market.discriminant, event.instrument.symbol,
      event.sourceFormat, 0, 0,
    none, ⟨sampleHash []⟩⟩
  eventFingerprint := ((event.fingerprint sampleHash).toOption.getD ⟨sampleHash []⟩)
  instrumentStateVersion := Unsigned.wrap 64 version

/-- The states before and after the last event of a run, with the context of that event. -/
def contextAfter (inputs : List ReducerInput) (event : DomainEvent) :
    Except Unit (MarketState × MarketState × TransitionReceipt × TradingContext) := do
  let state ← (sampleReducer.applyAll sampleHash inputs (.new sampleInstrument firstDay)).mapError
      fun _ => ()
  let (next, receipt) ←
      (sampleReducer.apply sampleHash state event (sampleContext firstDay)).mapError fun _ => ()
  let trading ← (evaluate event (occurrenceAfter event (inputs.length + 1)) next
      sampleSegment).mapError fun _ => ()
  return (state, next, receipt, trading)

theorem contextAfter_ok {inputs : List ReducerInput} {event : DomainEvent}
    {state next : MarketState} {receipt : TransitionReceipt} {trading : TradingContext}
    (h : contextAfter inputs event = .ok (state, next, receipt, trading)) :
    sampleReducer.applyAll sampleHash inputs (.new sampleInstrument firstDay) = .ok state ∧
      sampleReducer.apply sampleHash state event (sampleContext firstDay) = .ok (next, receipt) ∧
      evaluate event (occurrenceAfter event (inputs.length + 1)) next sampleSegment =
        .ok trading := by
  simp only [contextAfter, bind_eq_ok, mapError_eq_ok, pure_eq_ok, Prod.mk.injEq] at h
  obtain ⟨_, hstate, ⟨_, _⟩, happly, _, hcontext, rfl, rfl, rfl, rfl⟩ := h
  exact ⟨hstate, happly, hcontext⟩

/-- An interruption that is delayed and says everything again. -/
def restatedInterruption : DomainEvent :=
  auctionStatus ⟨.known .volatilityInterruption, .known true, .known false, .known .up⟩ 11

/-- An event that restates the running interruption is seen as it was resolved. -/
theorem restated_interruption_seen : ∃ state next receipt trading,
    sampleReducer.applyAll sampleHash [interruptionUp]
      (.new sampleInstrument firstDay) = .ok state ∧
    runningAuction state (sampleContext firstDay) = some (.volatilityInterruption .up false false) ∧
    sampleReducer.apply sampleHash state restatedInterruption (sampleContext firstDay) =
      .ok (next, receipt) ∧
    evaluate restatedInterruption (occurrenceAfter restatedInterruption 2) next sampleSegment =
      .ok trading ∧
    ∃ signal, next.marketSignal.known? = some signal ∧ trading.auction = signal.auction := by
  obtain ⟨⟨state, next, receipt, trading⟩, hrun⟩ := exists_of_isOk
    (show (contextAfter [interruptionUp] restatedInterruption).isOk = true by decide +kernel)
  obtain ⟨hstate, happly, hcontext⟩ := contextAfter_ok hrun
  obtain ⟨signal, hsignal, hauction, -⟩ :=
    (context_sees_resolved_iff _ _ _ _ _ _ _ _ _ _ _ happly hcontext rfl).2
    fun previous _ _ => ⟨nofun, nofun, nofun, nofun⟩
  exact ⟨state, next, receipt, trading, hstate, runningAuction_interruptionUp hstate, happly,
    hcontext, signal, hsignal, hauction⟩

/-- An uncross that says nothing of the auction it ends. -/
def unqualifiedUncross : DomainEvent :=
  { auctionStatus (.new .opening false false) 11 with
    payload := .marketStatus ((MarketStatusObservation.new .noObservation .none).withMarketSignal
      (.set (.auctionUncross ⟨.noObservation, .noObservation, .noObservation, .noObservation⟩))) }

/-- The uncross of a known opening auction is resolved as opening and leads to continuous trading,
and the context shows an auction nobody knows and no decision on orders. -/
theorem uncross_of_opening_not_seen : ∃ state next receipt trading,
    sampleReducer.applyAll sampleHash
      [(auctionStatus (.new .opening false false) 10, sampleContext firstDay)]
      (.new sampleInstrument firstDay) = .ok state ∧
    sampleReducer.apply sampleHash state unqualifiedUncross (sampleContext firstDay) =
      .ok (next, receipt) ∧
    evaluate unqualifiedUncross (occurrenceAfter unqualifiedUncross 2) next sampleSegment =
      .ok trading ∧
    next.marketSignal.known? = some (.auctionUncross (.new .opening false false)) ∧
    next.phase.known? = some .continuous ∧
    trading.auction = some ⟨.noObservation, .noObservation, .noObservation, .noObservation⟩ ∧
    trading.newOrderEntry = .unknown := by
  obtain ⟨⟨state, next, receipt, trading⟩, hrun⟩ := exists_of_isOk (show (contextAfter
    [(auctionStatus (.new .opening false false) 10, sampleContext firstDay)]
      unqualifiedUncross).isOk = true by decide +kernel)
  have hfacts :
      (contextAfter [(auctionStatus (.new .opening false false) 10, sampleContext firstDay)]
      unqualifiedUncross).toOption.any (fun reached =>
        reached.2.1.marketSignal.known? = some (.auctionUncross (.new .opening false false)) ∧
        reached.2.1.phase.known? = some .continuous ∧
        reached.2.2.2.auction =
          some ⟨.noObservation, .noObservation, .noObservation, .noObservation⟩ ∧
        reached.2.2.2.newOrderEntry = .unknown) = true := by
    decide +kernel
  rw [hrun] at hfacts
  obtain ⟨hstate, happly, hcontext⟩ := contextAfter_ok hrun
  exact ⟨state, next, receipt, trading, hstate, happly, hcontext, of_decide_eq_true hfacts⟩

end Context

end Osmium
