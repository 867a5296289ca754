import Osmium.Lib.Merge
import Osmium.Spec.Replay

/-! Event streams and their merge. A frozen plan binds streams; a replay opens each of them once and
always applies the least of their heads. The batch replay of the same events sorts them first. -/

namespace Osmium
open Machine Bytes Result Stateful

/-- One selected stream of a frozen plan. -/
structure ReplayStreamBinding where
  descriptorId : Digest
  instrument : InstrumentId
  tradingDate : TradingDate
  sourceRevisionIdentity : Digest
  cacheIdentity : Digest
deriving DecidableEq

structure ReplayPlan where
  bindings : List ReplayStreamBinding

/-- An opened stream: the events it still yields, and the failure it ends with, if it does not end
cleanly. -/
structure EventStream where
  events : List DomainEvent
  failure : Option Text
deriving DecidableEq

def EventStream.nextEvent (self : EventStream) : Except Text (Option DomainEvent × EventStream) :=
  match self.events, self.failure with
  | event :: rest, _ => .ok (some event, { self with events := rest })
  | [], none => .ok (none, self)
  | [], some failure => .error failure

abbrev ReplayStreamFactory := ReplayStreamBinding → Except Text EventStream

structure PreparedOrderEvent where
  event : DomainEvent
  key : OrderingKey
  canonical : List UInt8
deriving DecidableEq

def PreparedOrderEvent.new (hash : List UInt8 → Digest) (event : DomainEvent) :
    Except OrderingError PreparedOrderEvent := do
  let (key, canonical) ← OrderingKey.forEventAndCanonical hash event
  return ⟨event, key, canonical⟩

section Batch
variable (hash : List UInt8 → Digest)

def prepareAll : List DomainEvent → Except OrderingError (List PreparedOrderEvent)
  | [] => .ok []
  | event :: rest => do
    let prepared ← PreparedOrderEvent.new hash event
    return prepared :: (← prepareAll rest)

def keyBefore (a b : PreparedOrderEvent) : Prop := a.key ≤ b.key

instance (a b : PreparedOrderEvent) : Decidable (keyBefore a b) :=
  inferInstanceAs (Decidable (_ ≤ _))

/-- Sorts by the full ordering key without dropping duplicates. The sort of the source is unstable,
which shows only where two equal keys have different bytes, and that is refused. -/
def orderEvents (events : List DomainEvent) : Except OrderingError (List DomainEvent) := do
  let prepared ← prepareAll hash events
  let sorted := prepared.insertionSort keyBefore
  ensure (anyAdjacent (fun a b => a.key = b.key && a.canonical ≠ b.canonical) sorted = false)
    .eventFingerprintCollision
  return sorted.map PreparedOrderEvent.event

def ReplayCore.applyAll : List DomainEvent → EStateM ReplayError ReplayCore Unit
  | [] => pure ()
  | event :: rest => do
    let _ ← ReplayCore.applyOrdered hash event
    applyAll rest

/-- Establishes deterministic order for an in-memory rebuild input, then replays it. -/
def ReplayCore.replay (events : List DomainEvent) : EStateM ReplayError ReplayCore Unit := do
  let ordered ← lift ((orderEvents hash events).mapError .ordering)
  ReplayCore.applyAll hash ordered

end Batch

inductive HeadFault
  | stream (message : Text)
  | ordering (error : OrderingError)
deriving DecidableEq

def HeadFault.replayError : HeadFault → ReplayError
  | .stream message => .streamFailed message
  | .ordering error => .ordering error

/-- The event an opened stream is at, and the stream after it. -/
structure MergeHead where
  index : ℕ
  prepared : PreparedOrderEvent
  stream : EventStream

def MergeHead.before (a b : MergeHead) : Prop :=
  a.prepared.key < b.prepared.key ∨ a.prepared.key = b.prepared.key ∧ a.index ≤ b.index

instance (a b : MergeHead) : Decidable (a.before b) := inferInstanceAs (Decidable (_ ∨ _))

section Merge
variable (hash : List UInt8 → Digest)

def nextHead (index : ℕ) (stream : EventStream) : Except HeadFault (Option MergeHead) := do
  let (event, stream) ← stream.nextEvent.mapError .stream
  match event with
  | none => return none
  | some event =>
    return some ⟨index, ← (PreparedOrderEvent.new hash event).mapError .ordering, stream⟩

/-- The heap of heads, least first. -/
def pushHead (head : Option MergeHead) (heads : List MergeHead) : List MergeHead :=
  match head with
  | none => heads
  | some head => heads.orderedInsert MergeHead.before head

def openHeads : List EventStream → ℕ → List MergeHead → Except HeadFault (List MergeHead)
  | [], _, heads => .ok heads
  | stream :: rest, index, heads => do
    let head ← nextHead hash index stream
    openHeads rest (index + 1) (pushHead head heads)

/-- The number of events that the heads and their streams still hold. -/
def remainingEvents (heads : List MergeHead) : ℕ :=
  (heads.map fun head => head.stream.events.length + 1).sum

/-- Takes the least head, handles its event, and puts the next event of its stream among the heads.
The bound is the number of events left, so that it never cuts the loop short. -/
def mergeLoop {ε s : Type} (step : PreparedOrderEvent → EStateM ε s Unit) (raise : HeadFault → ε) :
    ℕ → List MergeHead → EStateM ε s Unit
  | 0, _ | _, [] => pure ()
  | fuel + 1, head :: heads => do
    step head.prepared
    let next ← lift ((nextHead hash head.index head.stream).mapError raise)
    mergeLoop step raise fuel (pushHead next heads)

def mergeStreams {ε s : Type} (step : PreparedOrderEvent → EStateM ε s Unit) (raise : HeadFault → ε)
    (streams : List EventStream) : EStateM ε s Unit := do
  let heads ← lift ((openHeads hash streams 0 []).mapError raise)
  mergeLoop hash step raise (remainingEvents heads) heads

end Merge

section Frozen
variable (hash : List UInt8 → Digest)

def ReplayCore.hasScheduledTradingDate (self : ReplayCore) (instrument : InstrumentId)
    (tradingDate : TradingDate) : Bool :=
  self.reducerContextWindows[instrument]?.any fun windows =>
    windows.any fun window => window.context.tradingDate = tradingDate

/-- The streams of the bindings, opened in turn. -/
def ReplayCore.openStreams (self : ReplayCore) (factory : ReplayStreamFactory) :
    List ReplayStreamBinding → Except ReplayError (List EventStream)
  | [] => .ok []
  | binding :: rest => do
    let state ← okOr .planOutsideUniverse self.states[binding.instrument]?
    ensure (state.tradingDate = binding.tradingDate ∨
      self.hasScheduledTradingDate binding.instrument binding.tradingDate = true)
        .planTradingDateMismatch
    let stream ← (factory binding).mapError .streamOpen
    return stream :: (← self.openStreams factory rest)

/-- What stops a frozen replay: the replay itself or its callback. -/
inductive FrozenReplayError (γ : Type)
  | replay (error : ReplayError)
  | callback (error : γ)
deriving DecidableEq

/-- A callback sees the core after each commit and may change it. -/
abbrev ReplayCallback (γ τ : Type) := DomainEvent → CoreCommit → EStateM γ (ReplayCore × τ) Unit

def commitPrepared {γ τ : Type} (callback : ReplayCallback γ τ) (prepared : PreparedOrderEvent) :
    EStateM (FrozenReplayError γ) (ReplayCore × τ) Unit := do
  let commit ← zoom Prod.fst (fun self core => (core, self.2)) .replay
    (ReplayCore.applyPreparedOrdered hash prepared.event prepared.key prepared.canonical)
  zoom id (fun _ self => self) .callback (callback prepared.event commit)

def ReplayCore.replayFrozenMultiWith {γ τ : Type} (plan : ReplayPlan)
    (factory : ReplayStreamFactory)
    (callback : ReplayCallback γ τ) : EStateM (FrozenReplayError γ) (ReplayCore × τ) Unit := do
  let self ← get
  let streams ← lift ((self.1.openStreams factory plan.bindings).mapError .replay)
  mergeStreams hash (commitPrepared hash callback) (.replay ∘ HeadFault.replayError) streams

/-- The frozen replay without a callback. -/
def ReplayCore.replayFrozenMulti (plan : ReplayPlan) (factory : ReplayStreamFactory) :
    EStateM (FrozenReplayError Empty) (ReplayCore × Unit) Unit :=
  ReplayCore.replayFrozenMultiWith hash plan factory fun _ _ => pure ()

end Frozen

end Osmium
