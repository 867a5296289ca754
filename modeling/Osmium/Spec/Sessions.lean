import Osmium.Spec.MultiRunner
import Osmium.Spec.Timestamp

/-! Session plans: the trading sessions of an instrument on one date, as the run planner computes
them, and what the command line makes of them for the replay core. -/

namespace Osmium
open Machine Bytes Result Calendar

inductive SessionProfileId
  | twseRegular
  | taifexIndexFutures
  | taifexStockFutures
  | taifexStockFuturesRegularOnly
  | tpexRegular
  | taifexIndexOptions
  | taifexCalendarSpreadRegularOnly
deriving DecidableEq

def SessionProfileId.discriminant : SessionProfileId → UInt8
  | .twseRegular => 1
  | .taifexIndexFutures => 2
  | .taifexStockFutures => 3
  | .taifexStockFuturesRegularOnly => 4
  | .tpexRegular => 5
  | .taifexIndexOptions => 6
  | .taifexCalendarSpreadRegularOnly => 7

def SessionProfileId.allows (self : SessionProfileId) (kind : SessionKind) : Bool :=
  match self with
  | .twseRegular | .tpexRegular | .taifexStockFuturesRegularOnly
  | .taifexCalendarSpreadRegularOnly => kind = .regular
  | .taifexIndexFutures | .taifexStockFutures | .taifexIndexOptions => true

inductive SessionPlanError
  | emptySessions
  | nonBusinessTradingDate (date : TradingDate)
  | sessionNotSupported (profile : SessionProfileId) (kind : SessionKind)
  | invalidTimestamp (error : MatchTimeError)
  | calendarOverflow
  | windowOverflow
  | canonicalLengthOverflow
deriving DecidableEq

/-- Five minutes. -/
def replayMarginMicroseconds : I64 := Signed.wrap 64 300000000

structure SessionWindow where
  kind : SessionKind
  tradingDate : TradingDate
  openTime : MatchTime
  closeTime : MatchTime
  replayStart : MatchTime
  replayEndExclusive : MatchTime
deriving DecidableEq

/-- 1970-01-01 was a Thursday, 4 when Sunday is 0. -/
def isWeekend (date : TradingDate) : Bool :=
  (date.epochDays.val + 4) % 7 = 0 || (date.epochDays.val + 4) % 7 = 6

/-- Steps back from a day to one that is no weekend. The days of a week are enough steps. -/
def previousBusinessDateFrom : ℕ → I32 → Except SessionPlanError TradingDate
  | 0, _ => .error .calendarOverflow
  | steps + 1, epochDays => do
    let candidate ← (TradingDate.fromEpochDays epochDays).mapError fun _ => .calendarOverflow
    if isWeekend candidate = false then return candidate
    else
      let epochDays ← okOr .calendarOverflow (epochDays.checkedSub (Signed.wrap 32 1))
      previousBusinessDateFrom steps epochDays

def previousBusinessDate (date : TradingDate) : Except SessionPlanError TradingDate := do
  let epochDays ← okOr .calendarOverflow (date.epochDays.checkedSub (Signed.wrap 32 1))
  previousBusinessDateFrom 7 epochDays

/-- `HH:MM:SS`. -/
def clockText (hour minute second : ℕ) : List UInt8 :=
  padded 2 hour ++ [58] ++ padded 2 minute ++ [58] ++ padded 2 second

/-- +08:00 -/
def taipeiOffset : List UInt8 := [43, 48, 56, 58, 48, 48]

def parseLocalTime (date : TradingDate) (time : List UInt8) : Except SessionPlanError MatchTime :=
  (MatchTime.parse (date.display ++ [84] ++ time ++ taipeiOffset)).mapError .invalidTimestamp

/-- The days a session opens and closes on and the times of day, by profile and kind. -/
def sessionTimes (profile : SessionProfileId) (kind : SessionKind) (tradingDate : TradingDate) :
    Except SessionPlanError (TradingDate × List UInt8 × TradingDate × List UInt8) :=
  match profile, kind with
  | .twseRegular, .regular | .tpexRegular, .regular =>
    .ok (tradingDate, clockText 9 0 0, tradingDate, clockText 13 30 0)
  | .taifexIndexFutures, .regular | .taifexIndexOptions, .regular | .taifexStockFutures, .regular
  | .taifexStockFuturesRegularOnly, .regular | .taifexCalendarSpreadRegularOnly, .regular =>
    .ok (tradingDate, clockText 8 45 0, tradingDate, clockText 13 45 0)
  | .taifexIndexFutures, .afterHours | .taifexIndexOptions, .afterHours => do
    let openDate ← previousBusinessDate tradingDate
    return (openDate, clockText 15 0 0, tradingDate, clockText 5 0 0)
  | .taifexStockFutures, .afterHours => do
    let openDate ← previousBusinessDate tradingDate
    return (openDate, clockText 17 25 0, tradingDate, clockText 5 0 0)
  | profile, kind => .error (.sessionNotSupported profile kind)

def buildWindow (profile : SessionProfileId) (kind : SessionKind) (tradingDate : TradingDate) :
    Except SessionPlanError SessionWindow := do
  let (openDate, openTime, closeDate, closeTime) ← sessionTimes profile kind tradingDate
  let openTime ← parseLocalTime openDate openTime
  let closeTime ← parseLocalTime closeDate closeTime
  let replayStart ← okOr .windowOverflow
      (openTime.unixMicroseconds.checkedSub replayMarginMicroseconds)
  let replayEndExclusive ← okOr .windowOverflow
      (closeTime.unixMicroseconds.checkedAdd replayMarginMicroseconds)
  return ⟨kind, tradingDate, openTime, closeTime, ⟨replayStart⟩, ⟨replayEndExclusive⟩⟩

def buildWindows (profile : SessionProfileId) (tradingDate : TradingDate) :
    List SessionKind → Except SessionPlanError (List SessionWindow)
  | [] => .ok []
  | kind :: rest => do
    let window ← buildWindow profile kind tradingDate
    return window :: (← buildWindows profile tradingDate rest)

structure SessionPlan where
  instrument : InstrumentId
  tradingDate : TradingDate
  profile : SessionProfileId
  windows : List SessionWindow
  identity : Digest

def sessionCalendarVersion : U16 := ⟨1, Unsigned.one_fits⟩

def sessionProfileVersion : U16 := ⟨2, by decide⟩

def sessionWindowPolicyVersion : U16 := ⟨1, Unsigned.one_fits⟩

def SessionWindow.canonicalBytes (self : SessionWindow) : List UInt8 :=
  self.kind.discriminant :: ofSigned 8 self.openTime.unixMicroseconds ++
    ofSigned 8 self.closeTime.unixMicroseconds ++
    ofSigned 8 self.replayStart.unixMicroseconds ++
      ofSigned 8 self.replayEndExclusive.unixMicroseconds

/-- The bytes a plan's identity is hashed from, led by OSSESSION01. -/
def sessionPlanBytes (instrument : InstrumentId) (tradingDate : TradingDate)
    (profile : SessionProfileId)
    (windows : List SessionWindow) : Except SessionPlanError (List UInt8) := do
  let symbolLength ← okOr .canonicalLengthOverflow
      (Unsigned.ofNat? 32 instrument.symbol.text.bytes.length)
  let windowCount ← okOr .canonicalLengthOverflow (Unsigned.ofNat? 32 windows.length)
  return [79, 83, 83, 69, 83, 83, 73, 79, 78, 48, 49] ++ ofUnsigned 2 sessionCalendarVersion ++
    ofUnsigned 2 sessionProfileVersion ++ ofUnsigned 2 sessionWindowPolicyVersion ++
      [instrument.market.discriminant] ++
    ofUnsigned 4 symbolLength ++ instrument.symbol.text.bytes ++ tradingDate.toCanonicalBytes ++
      [profile.discriminant] ++
    ofUnsigned 4 windowCount ++ windows.flatMap SessionWindow.canonicalBytes

def sessionKindBefore (a b : SessionKind) : Prop := a.discriminant ≤ b.discriminant

instance (a b : SessionKind) : Decidable (sessionKindBefore a b) :=
  inferInstanceAs (Decidable (_ ≤ _))

def SessionPlan.withProfile (hash : List UInt8 → Digest) (instrument : InstrumentId)
    (tradingDate : TradingDate) (profile : SessionProfileId) (sessionKinds : List SessionKind) :
    Except SessionPlanError SessionPlan := do
  ensure (isWeekend tradingDate = false) (.nonBusinessTradingDate tradingDate)
  let kinds := (sessionKinds.insertionSort sessionKindBefore).destutter (· ≠ ·)
  ensure (kinds ≠ []) .emptySessions
  match kinds.find? fun kind => profile.allows kind = false with
  | some kind => throw (.sessionNotSupported profile kind)
  | none =>
    let windows ← buildWindows profile tradingDate kinds
    let bytes ← sessionPlanBytes instrument tradingDate profile windows
    return ⟨instrument, tradingDate, profile, windows, hash bytes⟩

/-- What the session schedule is built from. -/
def SessionPlan.partition (self : SessionPlan) : PlanPartition where
  instrument := self.instrument
  tradingDate := self.tradingDate
  windows := self.windows.map fun window => (window.kind, window.openTime, window.closeTime)

inductive ReplayContextWindowError | invalidRange
deriving DecidableEq

def ReplayContextWindow.new (start endExclusive : MatchTime) (context : ReducerContext) :
    Except ReplayContextWindowError ReplayContextWindow :=
  if h : start < endExclusive then .ok ⟨start, endExclusive, context, h⟩ else .error .invalidRange

/-- The context the replay core reduces a session's events in. -/
def sessionContext (tradingDate : TradingDate) (kind : SessionKind) : ReducerContext :=
  ⟨tradingDate, segmentIdOf kind, .resetObservableFields, Unsigned.wrap 16 1⟩

def contextWindows (tradingDate : TradingDate) :
    List SessionWindow → Except ReplayContextWindowError (List ReplayContextWindow)
  | [] => .ok []
  | window :: rest => do
    let first ← ReplayContextWindow.new window.replayStart window.replayEndExclusive
        (sessionContext tradingDate window.kind)
    return first :: (← contextWindows tradingDate rest)

/-- The context windows of all plans of an instrument. -/
def planContextWindows : List SessionPlan →
    Except ReplayContextWindowError (List ReplayContextWindow)
  | [] => .ok []
  | plan :: rest => do
    let windows ← contextWindows plan.tradingDate plan.windows
    return windows ++ (← planContextWindows rest)

end Osmium
