import Osmium.Spec.RunConfig

/-! Execution plans: what is to be done about every partition of a run, given what is known of its
source and its cache, and the bytes that the identity of the plan is hashed from. -/

namespace Osmium
open Machine Bytes Codec Result

namespace RunPlanner

def executionPlanVersion : U16 := ⟨1, Unsigned.one_fits⟩

inductive CompletionPolicy | strict | explicitDegraded
deriving DecidableEq

def CompletionPolicy.discriminant : CompletionPolicy → UInt8
  | .strict => 1
  | .explicitDegraded => 2

inductive NetworkRequirement | notRequired | required
deriving DecidableEq

def NetworkRequirement.discriminant : NetworkRequirement → UInt8
  | .notRequired => 1
  | .required => 2

inductive IncompleteReason
  | cursorNotTerminal
  | coverageUnconfirmed
  | dailyInstrumentMissing
  | unsupportedFormat
  | sessionOwnershipUnconfirmed
deriving DecidableEq

def IncompleteReason.discriminant : IncompleteReason → UInt8
  | .cursorNotTerminal => 1
  | .coverageUnconfirmed => 2
  | .dailyInstrumentMissing => 3
  | .unsupportedFormat => 4
  | .sessionOwnershipUnconfirmed => 5

inductive CorruptReason
  | manifestInvalid
  | referenceMismatch
  | payloadMissing
  | payloadChecksumMismatch
  | compressionFrameInvalid
  | versionIncompatible
deriving DecidableEq

def CorruptReason.discriminant : CorruptReason → UInt8
  | .manifestInvalid => 1
  | .referenceMismatch => 2
  | .payloadMissing => 3
  | .payloadChecksumMismatch => 4
  | .compressionFrameInvalid => 5
  | .versionIncompatible => 6

inductive SourceState
  | missing
  | building
  | complete (revision : Digest)
  | incomplete (reason : IncompleteReason)
  | corrupt (reason : CorruptReason)
deriving DecidableEq

/-- The byte of the state's kind. -/
def SourceState.kind : SourceState → UInt8
  | .missing => 1
  | .building => 2
  | .complete _ => 3
  | .incomplete _ => 4
  | .corrupt _ => 5

def SourceState.isIncomplete : SourceState → Bool
  | .incomplete _ => true
  | _ => false

inductive CacheState
  | missing
  | building
  | valid (identity : Digest)
  | stale
  | corrupt
deriving DecidableEq

inductive SourceAction
  | reuseCompleteSource (revision : Digest)
  | downloadMissingSource
  | resumeOrRestartBuilding
  | rejectIncomplete (reason : IncompleteReason)
  | rejectCorrupt (reason : CorruptReason)
  | coverageUnavailable
deriving DecidableEq

def SourceAction.requiresNetwork : SourceAction → Bool
  | .downloadMissingSource | .resumeOrRestartBuilding => true
  | _ => false

inductive VerificationAction
  | verifyCompleteSource
  | awaitSourcePreparation
  | rejectIncomplete
  | rejectCorrupt
  | coverageUnavailable
deriving DecidableEq

def VerificationAction.discriminant : VerificationAction → UInt8
  | .verifyCompleteSource => 1
  | .awaitSourcePreparation => 2
  | .rejectIncomplete => 3
  | .rejectCorrupt => 4
  | .coverageUnavailable => 5

inductive CacheAction
  | reuseValidCache (identity : Digest)
  | rebuildCacheFromCompleteSource
  | awaitCompleteSource
deriving DecidableEq

inductive PlanError
  | emptyPartitions
  | duplicatePartition (identity : Digest)
  | duplicateLogicalPartition (instrument : InstrumentId) (tradingDate : TradingDate)
  | missingRequestedPartition (instrument : InstrumentId) (tradingDate : TradingDate)
  | partitionOutsideConfig (identity : Digest)
  | degradedScopeWithStrictPolicy
  | unknownDegradedScope (identity : Digest)
  | invalidDegradedScope (identity : Digest)
  | sessionPlanMismatch (identity : Digest)
  | canonicalLengthOverflow
deriving DecidableEq

section Partitions

structure PlannedPartition where
  key : SourcePartitionKey
  sessionPlan : SessionPlan
  sourceState : SourceState
  sourceAction : SourceAction
  verificationAction : VerificationAction
  cacheAction : CacheAction

def validateSessionPlan (key : SourcePartitionKey) (sessionPlan : SessionPlan) :
    Except PlanError Unit :=
  ensure (sessionPlan.instrument = key.instrument ∧ sessionPlan.tradingDate = key.tradingDate ∧
    sessionPlan.identity = key.sessionPlanIdentity ∧
    sessionPlan.windows.map SessionWindow.kind = key.sessionKinds)
    (.sessionPlanMismatch key.identity)

namespace PlannedPartition

def sourceActionOf : SourceState → SourceAction
  | .missing => .downloadMissingSource
  | .building => .resumeOrRestartBuilding
  | .complete revision => .reuseCompleteSource revision
  | .incomplete reason => .rejectIncomplete reason
  | .corrupt reason => .rejectCorrupt reason

def verificationActionOf : SourceState → VerificationAction
  | .missing | .building => .awaitSourcePreparation
  | .complete _ => .verifyCompleteSource
  | .incomplete _ => .rejectIncomplete
  | .corrupt _ => .rejectCorrupt

def cacheActionOf : SourceState → CacheState → CacheAction
  | .complete _, .valid identity => .reuseValidCache identity
  | .complete _, _ => .rebuildCacheFromCompleteSource
  | _, _ => .awaitCompleteSource

def classify (key : SourcePartitionKey) (sessionPlan : SessionPlan) (sourceState : SourceState)
    (cacheState : CacheState) :
    Except PlanError PlannedPartition := do
  validateSessionPlan key sessionPlan
  return {
    key := key
    sessionPlan := sessionPlan
    sourceState := sourceState
    sourceAction := sourceActionOf sourceState
    verificationAction := verificationActionOf sourceState
    cacheAction := cacheActionOf sourceState cacheState }

/-- A partition that the archive does not cover. -/
def coverageUnavailable (key : SourcePartitionKey) (sessionPlan : SessionPlan) :
    Except PlanError PlannedPartition := do
  validateSessionPlan key sessionPlan
  return {
    key := key
    sessionPlan := sessionPlan
    sourceState := .missing
    sourceAction := .coverageUnavailable
    verificationAction := .coverageUnavailable
    cacheAction := .awaitCompleteSource }

end PlannedPartition

end Partitions

section Plan

structure ExecutionPlan where
  config : EffectiveRunConfig
  partitions : List PlannedPartition
  completionPolicy : CompletionPolicy
  networkRequirement : NetworkRequirement
  degradedScopes : List Digest
  canonical : List UInt8
  identity : Digest

/-- The partitions by the canonical bytes of their keys. -/
def inKeyOrder (partitions : List PlannedPartition) : List PlannedPartition :=
  Keyed.sort (fun partition => partition.key.canonical) partitions

/-- What a partition asks for. -/
def logicalRequest (key : SourcePartitionKey) : InstrumentId × TradingDate :=
  (key.instrument, key.tradingDate)

def validatePartition (config : EffectiveRunConfig) (key : SourcePartitionKey) :
    Except PlanError Unit :=
  ensure (key.instrument ∈ config.universeInstruments ∧ key.tradingDate ∈ config.tradingDates ∧
    ∀ kind ∈ key.sessionKinds, kind ∈ config.sessionKinds) (.partitionOutsideConfig key.identity)

/-- The checks of the partitions in order, which look at their keys only: inside the run, and
neither the identity nor what is asked for met before. What all of them ask for. -/
def validatePartitions (config : EffectiveRunConfig) (identities : List Digest)
    (requests : List (InstrumentId × TradingDate)) :
    List SourcePartitionKey → Except PlanError (List (InstrumentId × TradingDate))
  | [] => .ok requests
  | key :: rest => do
    validatePartition config key
    ensure (key.identity ∉ identities) (.duplicatePartition key.identity)
    ensure (logicalRequest key ∉ requests)
      (.duplicateLogicalPartition key.instrument key.tradingDate)
    validatePartitions config (key.identity :: identities) (logicalRequest key :: requests) rest

def checkRequested (config : EffectiveRunConfig) (requests : List (InstrumentId × TradingDate)) :
    Except PlanError Unit :=
  config.universeInstruments.forM fun instrument => config.tradingDates.forM fun tradingDate =>
    ensure ((instrument, tradingDate) ∈ requests)
      (.missingRequestedPartition instrument tradingDate)

def completionPolicyOf (sourcePolicy : SourcePolicy) (degradedScopes : List Digest) :
    Except PlanError CompletionPolicy :=
  match sourcePolicy with
  | .strict => do
    ensure (degradedScopes = []) .degradedScopeWithStrictPolicy
    return .strict
  | .explicitDegraded => return .explicitDegraded

def validateScope (partitions : List PlannedPartition) (scope : Digest) : Except PlanError Unit :=
  match partitions.find? fun partition => partition.key.identity = scope with
  | none => .error (.unknownDegradedScope scope)
  | some partition =>
    ensure (partition.sourceState.isIncomplete = true) (.invalidDegradedScope scope)

def networkRequirementOf (partitions : List PlannedPartition) : NetworkRequirement :=
  if (partitions.any fun partition => partition.sourceAction.requiresNetwork) = true then
    .required else .notRequired

def appendSourceState (state : SourceState) : Encoding :=
  .ok [state.kind] ++ match state with
    | .complete revision => .ok revision.bytes
    | .incomplete reason => .ok [reason.discriminant]
    | .corrupt reason => .ok [reason.discriminant]
    | .missing | .building => .ok []

def appendSourceAction : SourceAction → Encoding
  | .reuseCompleteSource revision => .ok (1 :: revision.bytes)
  | .downloadMissingSource => .ok [2]
  | .resumeOrRestartBuilding => .ok [3]
  | .rejectIncomplete reason => .ok [4, reason.discriminant]
  | .rejectCorrupt reason => .ok [5, reason.discriminant]
  | .coverageUnavailable => .ok [6]

def appendCacheAction : CacheAction → Encoding
  | .reuseValidCache identity => .ok (1 :: identity.bytes)
  | .rebuildCacheFromCompleteSource => .ok [2]
  | .awaitCompleteSource => .ok [3]

def appendPartition (partition : PlannedPartition) : Encoding :=
  appendBytes partition.key.canonical ++ appendSourceState partition.sourceState ++
    appendSourceAction partition.sourceAction ++
    .ok [partition.verificationAction.discriminant] ++ appendCacheAction partition.cacheAction

def appendScope (scope : Digest) : Encoding := .ok scope.bytes

/-- OSPLAN01 -/
def planMagic : List UInt8 := [79, 83, 80, 76, 65, 78, 48, 49]

/-- The versions of everything a plan rests on. -/
def planningVersionSet : List UInt8 :=
  ofUnsigned 2 configSchemaVersion ++ ofUnsigned 2 effectiveConfigVersion ++
    ofUnsigned 2 sourcePolicyVersion ++
    ofUnsigned 2 cachePolicyVersion ++ ofUnsigned 2 replayDataPolicyVersion ++
      ofUnsigned 2 sourcePartitionKeyVersion ++
    ofUnsigned 2 executionPlanVersion

def ExecutionPlan.encode (self : ExecutionPlan) : Encoding :=
  .ok (planMagic ++ ofUnsigned 2 executionPlanVersion ++ planningVersionSet ++
    self.config.checksum.bytes) ++
    appendCounted appendPartition self.partitions ++
    .ok [self.completionPolicy.discriminant, self.networkRequirement.discriminant] ++
    appendCounted appendScope self.degradedScopes

def ExecutionPlan.new (hash : List UInt8 → Digest) (config : EffectiveRunConfig)
    (partitions : List PlannedPartition)
    (degradedScopes : List Digest) : Except PlanError ExecutionPlan := do
  ensure (partitions ≠ []) .emptyPartitions
  let partitions := inKeyOrder partitions
  let requests ← validatePartitions config [] [] (partitions.map PlannedPartition.key)
  checkRequested config requests
  let degradedScopes := (Std.ExtTreeSet.ofList degradedScopes).toList
  let completionPolicy ← completionPolicyOf config.sourcePolicy degradedScopes
  degradedScopes.forM (validateScope partitions)
  let plan : ExecutionPlan := {
    config := config
    partitions := partitions
    completionPolicy := completionPolicy
    networkRequirement := networkRequirementOf partitions
    degradedScopes := degradedScopes
    canonical := []
    identity := EffectiveRunConfig.zeroDigest }
  let canonical ← plan.encode.mapError fun _ => .canonicalLengthOverflow
  return { plan with canonical := canonical, identity := hash canonical }

end Plan

end RunPlanner

end Osmium
