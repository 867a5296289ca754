import Osmium.Proofs.RunConfig
import Osmium.Spec.ExecutionPlan

/-! What a plan is, once it is accepted: every partition of the run once, the same plan in whatever
order the partitions are found, and bytes that determine all that is to be done. -/

namespace Osmium
open Machine Bytes Codec Result CanonicalParser

namespace RunPlanner

section Keys
variable {hash : List UInt8 → Digest} {a b : SourcePartitionKey}

/-- A key has been made by its constructor. -/
def Made (hash : List UInt8 → Digest) (key : SourcePartitionKey) : Prop :=
  ∃ kinds, SourcePartitionKey.new hash key.source key.instrument key.tradingDate kinds
    key.sessionPlanIdentity = .ok key

/-- OSPK and the version. -/
def keyHeader : List UInt8 := [79, 83, 80, 75] ++ ofUnsigned 2 sourcePartitionKeyVersion

/-- The bytes of a key, one part after the other. -/
def keyEncoding (key : SourcePartitionKey) : Encoding :=
  .ok keyHeader ++ appendText key.source.text ++ appendInstrument key.instrument ++
    appendDate key.tradingDate ++
    appendCounted appendSession key.sessionKinds ++ bytesOf Digest.bytes key.sessionPlanIdentity

theorem encodeAll_appendSession (kinds : List SessionKind) :
    encodeAll appendSession kinds = .ok (kinds.map SessionKind.discriminant) := by
  induction kinds with
  | nil => rfl
  | cons kind rest ih => rw [encodeAll, ih]; rfl

theorem keyEncoding_of_made (h : Made hash a) : keyEncoding a = .ok a.canonical ∧
    a.identity = hash a.canonical := by
  obtain ⟨kinds, h⟩ := h
  simp only [SourcePartitionKey.new, bind_eq_ok, ensure_eq_ok, pure_eq_ok] at h
  obtain ⟨-, -, canonical, hcanonical, hkey⟩ := h
  have hkinds := congrArg SourcePartitionKey.sessionKinds hkey
  have hbytes := congrArg SourcePartitionKey.canonical hkey
  have hidentity := congrArg SourcePartitionKey.identity hkey
  dsimp only at hkinds hbytes hidentity
  rw [hkinds, hbytes] at hcanonical
  refine ⟨?_, by rw [← hidentity, hbytes]⟩
  simp only [SourcePartitionKey.canonicalBytes, bind_eq_ok, pure_eq_ok, okOr_eq_ok] at hcanonical
  obtain ⟨sourceLength, hsource, symbolLength, hsymbol, kindCount, hcount, hcanonical⟩ := hcanonical
  simp [keyEncoding, appendText, appendBytes, appendInstrument, appendCounted, appendLength,
    encodeAll_appendSession, hsource, hsymbol,
    hcount, okOr, appendDate, bytesOf, keyHeader, ← hcanonical]

/-- The canonical bytes of a key determine it. -/
theorem key_of_canonical (ha : Made hash a) (hb : Made hash b)
    (h : a.canonical = b.canonical) : a = b := by
  obtain ⟨hbytes, hidentity⟩ := keyEncoding_of_made ha
  obtain ⟨hbytes', hidentity'⟩ := keyEncoding_of_made hb
  have hparts :=
    (((((constant_prefixFree keyHeader).seq text_prefixFree).seq instrument_prefixFree).seq
      date_prefixFree).seq
    (counted_prefixFree (byteOf_prefixFree SessionKind.discriminant_injective))).seq
      (bytesOf_prefixFree digest_prefixFree)
  obtain ⟨hvalue, -, -⟩ := hparts
    ((((((), a.source.text), a.instrument), a.tradingDate), a.sessionKinds), a.sessionPlanIdentity)
    ((((((), b.source.text), b.instrument), b.tradingDate), b.sessionKinds), b.sessionPlanIdentity)
      a.canonical b.canonical [] []
    hbytes hbytes' (by rw [h])
  simp only [Prod.mk.injEq, true_and] at hvalue
  obtain ⟨⟨⟨⟨hsource, hinstrument⟩, hdate⟩, hkinds⟩, hplan⟩ := hvalue
  have hsame : a.identity = b.identity := by rw [hidentity, hidentity', h]
  cases a
  cases b
  cases sourceId_ext hsource
  cases hinstrument
  cases hdate
  cases hkinds
  cases hplan
  cases h
  cases hsame
  rfl

end Keys

section Order
variable {hash : List UInt8 → Digest} {config : EffectiveRunConfig}
  {partitions partitions' : List PlannedPartition}

theorem validatePartitions_ok {identities : List Digest}
    {requests accepted : List (InstrumentId × TradingDate)} {keys : List SourcePartitionKey}
    (h : validatePartitions config identities requests keys = .ok accepted)
    (hidentities : identities.Nodup) (hrequests : requests.Nodup) :
    (∀ key ∈ keys, validatePartition config key = .ok ()) ∧
      ((keys.map SourcePartitionKey.identity).reverse ++ identities).Nodup ∧ accepted.Nodup ∧
      accepted = (keys.map logicalRequest).reverse ++ requests := by
  induction keys generalizing identities requests with
  | nil =>
    obtain rfl := Except.ok.inj h
    exact ⟨by simp, by simpa using hidentities, hrequests, rfl⟩
  | cons key rest ih =>
    simp only [validatePartitions, bind_eq_ok, ensure_eq_ok] at h
    obtain ⟨⟨⟩, hinside, -, hfresh, -, hasked, hrest⟩ := h
    obtain ⟨hall, hnodup, hnodup', rfl⟩ :=
      ih hrest (List.nodup_cons.2 ⟨hfresh, hidentities⟩) (List.nodup_cons.2 ⟨hasked, hrequests⟩)
    refine ⟨List.forall_mem_cons.2 ⟨hinside, hall⟩, ?_, hnodup', ?_⟩
    · rwa [List.map_cons, List.reverse_cons, List.append_assoc]
    · rw [List.map_cons, List.reverse_cons, List.append_assoc]
      rfl

/-- The keys in order do not depend on the order in which the partitions are found. -/
theorem keys_perm (hmade : ∀ partition ∈ partitions, Made hash partition.key)
    (hperm : partitions.Perm partitions') :
    (inKeyOrder partitions).map PlannedPartition.key =
      (inKeyOrder partitions').map PlannedPartition.key := by
  have hboth : (inKeyOrder partitions).Perm (inKeyOrder partitions') :=
    ((Keyed.sort_perm _ _).trans hperm).trans (Keyed.sort_perm _ _).symm
  have hmem : ∀ key ∈ (inKeyOrder partitions).map PlannedPartition.key, Made hash key := by
    intro key hkey
    obtain ⟨partition, hpartition, rfl⟩ := List.mem_map.1 hkey
    exact hmade partition ((Keyed.mem_sort _).1 hpartition)
  have hkeys := hboth.map PlannedPartition.key
  have hsorted : ∀ l : List PlannedPartition,
      ((inKeyOrder l).map PlannedPartition.key).Pairwise
        (Keyed.before SourcePartitionKey.canonical) :=
    fun l => List.pairwise_map.2 (Keyed.sort_sorted _ l)
  refine List.Perm.eq_of_pairwise (fun a b ha hb hab hba => ?_) (hsorted partitions)
    (hsorted partitions') hkeys
  exact key_of_canonical (hmem a ha) (hmem b (hkeys.mem_iff.2 hb)) (Keyed.key_eq_of_before hab hba)

/-- Nor do the partitions where no two have the same key. -/
theorem inKeyOrder_perm (hmade : ∀ partition ∈ partitions, Made hash partition.key)
    (hperm : partitions.Perm partitions')
    (hnodup :
      (((inKeyOrder partitions).map PlannedPartition.key).map SourcePartitionKey.identity).Nodup) :
    inKeyOrder partitions = inKeyOrder partitions' := by
  refine Keyed.sort_eq_of_perm hperm fun a ha b hb hkey => ?_
  have hsame := key_of_canonical (hmade a ha) (hmade b hb) hkey
  rw [List.map_map] at hnodup
  exact List.inj_on_of_nodup_map hnodup ((Keyed.mem_sort _).2 ha) ((Keyed.mem_sort _).2 hb)
    (congrArg SourcePartitionKey.identity hsame)

/-- A plan is the same, or refused for the same reason, in whatever order its partitions are found
and its degraded scopes are named. -/
theorem plan_order_free (hash : List UInt8 → Digest) (config : EffectiveRunConfig)
    (partitions partitions' : List PlannedPartition) (degradedScopes degradedScopes' : List Digest)
    (hmade : ∀ partition ∈ partitions, Made hash partition.key)
    (hperm : partitions.Perm partitions')
    (hscopes : ∀ scope, scope ∈ degradedScopes ↔ scope ∈ degradedScopes') :
    ExecutionPlan.new hash config partitions degradedScopes =
      ExecutionPlan.new hash config partitions' degradedScopes' := by
  have hset : Std.ExtTreeSet.ofList degradedScopes = Std.ExtTreeSet.ofList degradedScopes' := by
    refine Std.ExtTreeSet.ext_mem fun scope => ?_
    rw [Std.ExtTreeSet.mem_ofList, Std.ExtTreeSet.mem_ofList, List.contains_iff_mem,
      List.contains_iff_mem, hscopes]
  have hkeys := keys_perm hmade hperm
  have hempty : (partitions ≠ []) ↔ (partitions' ≠ []) := by
    rw [← List.length_pos_iff, hperm.length_eq, List.length_pos_iff]
  cases hvalid : validatePartitions config []
    [] ((inKeyOrder partitions).map PlannedPartition.key) with
  | error e => simp only [ExecutionPlan.new, hempty, ← hkeys, hvalid, bind, Except.bind]
  | ok requests =>
    obtain ⟨-, hnodup, -, -⟩ := validatePartitions_ok hvalid .nil .nil
    rw [List.append_nil, List.nodup_reverse] at hnodup
    simp only [ExecutionPlan.new, hempty, hset, inKeyOrder_perm hmade hperm hnodup]

end Order

section Coverage
variable {hash : List UInt8 → Digest} {config : EffectiveRunConfig}
  {partitions : List PlannedPartition}
  {degradedScopes : List Digest} {plan : ExecutionPlan}

/-- What a plan is, once it is accepted: one partition for each instrument of the run on each of its
dates and no other, degraded scopes only where the run allows them and only for partitions that are
incomplete. -/
structure Covering (plan : ExecutionPlan) : Prop where
  once : ∀ instrument ∈ plan.config.universeInstruments, ∀ tradingDate ∈ plan.config.tradingDates,
    ∃! partition, partition ∈ plan.partitions ∧
    logicalRequest partition.key = (instrument, tradingDate)
  inside : ∀ partition ∈ plan.partitions, validatePartition plan.config partition.key = .ok ()
  identities : ((plan.partitions.map PlannedPartition.key).map SourcePartitionKey.identity).Nodup
  ordered : plan.partitions.Pairwise (Keyed.before fun partition => partition.key.canonical)
  completion : completionPolicyOf plan.config.sourcePolicy plan.degradedScopes =
      .ok plan.completionPolicy
  degraded : ∀ scope ∈ plan.degradedScopes, ∃ partition ∈ plan.partitions,
    partition.key.identity = scope ∧ partition.sourceState.isIncomplete = true
  network : plan.networkRequirement = networkRequirementOf plan.partitions
  canonical : plan.encode = .ok plan.canonical

theorem validateScope_ok {scope : Digest} (h : validateScope partitions scope = .ok ()) :
    ∃ partition ∈ partitions, partition.key.identity = scope ∧
    partition.sourceState.isIncomplete = true := by
  unfold validateScope at h
  split at h
  · cases h
  · next partition hfound =>
    exact ⟨partition, List.mem_of_find?_eq_some
      hfound, by simpa using List.find?_some hfound, (ensure_eq_ok _ _ _).1 h⟩

theorem once_of_requests {requests : List (InstrumentId × TradingDate)} (hnodup : requests.Nodup)
    (hrequests : requests = ((partitions.map PlannedPartition.key).map logicalRequest).reverse)
    {instrument : InstrumentId} {tradingDate : TradingDate}
    (hmem : (instrument, tradingDate) ∈ requests) :
    ∃! partition, partition ∈ partitions ∧
    logicalRequest partition.key = (instrument, tradingDate) := by
  subst hrequests
  rw [List.nodup_reverse, List.map_map] at hnodup
  rw [List.mem_reverse, List.map_map] at hmem
  obtain ⟨partition, hpartition, hasked⟩ := List.mem_map.1 hmem
  refine ⟨partition, ⟨hpartition, hasked⟩, fun other hother => ?_⟩
  exact List.inj_on_of_nodup_map hnodup hother.1 hpartition (hother.2.trans hasked.symm)

theorem covering_of_accepted
    (h : ExecutionPlan.new hash config partitions degradedScopes = .ok plan) :
    Covering plan ∧ plan.config = config ∧ plan.partitions.Perm partitions ∧
      (∀ scope, scope ∈ plan.degradedScopes ↔ scope ∈ degradedScopes) ∧
      plan.identity = hash plan.canonical := by
  simp only [ExecutionPlan.new, bind_eq_ok, ensure_eq_ok, pure_eq_ok, mapError_eq_ok] at h
  obtain ⟨-, -, requests, hvalid, ⟨⟩, hrequested, policy, hpolicy, ⟨⟩, hscopes, canonical,
      hcanonical, rfl⟩ := h
  obtain ⟨hinside, hidentities, hnodup, hrequests⟩ := validatePartitions_ok hvalid .nil .nil
  rw [List.append_nil] at hidentities hrequests
  refine ⟨?_, rfl, Keyed.sort_perm _ _, fun scope => ?_, rfl⟩
  · refine {
      once := fun instrument hinstrument tradingDate hdate => ?_
      inside := fun partition hpartition => hinside _ (List.mem_map.2 ⟨partition, hpartition, rfl⟩)
      identities := List.nodup_reverse.1 hidentities
      ordered := Keyed.sort_sorted _ _
      completion := hpolicy
      degraded := fun scope hscope => validateScope_ok (forM_eq_ok.1 hscopes scope hscope)
      network := rfl
      canonical := hcanonical }
    have hdates := forM_eq_ok.1 (forM_eq_ok.1 hrequested instrument hinstrument) tradingDate hdate
    exact once_of_requests hnodup hrequests ((ensure_eq_ok _ _ _).1 hdates)
  · rw [Std.ExtTreeSet.mem_toList, Std.ExtTreeSet.mem_ofList, List.contains_iff_mem]

end Coverage

section Encodings

theorem IncompleteReason.discriminant_injective :
    Function.Injective IncompleteReason.discriminant := by
  intro a b h; cases a <;> cases b <;> first | rfl | exact absurd h (by decide)

theorem CorruptReason.discriminant_injective : Function.Injective CorruptReason.discriminant := by
  intro a b h; cases a <;> cases b <;> first | rfl | exact absurd h (by decide)

theorem VerificationAction.discriminant_injective :
    Function.Injective VerificationAction.discriminant := by
  intro a b h; cases a <;> cases b <;> first | rfl | exact absurd h (by decide)

theorem CompletionPolicy.discriminant_injective :
    Function.Injective CompletionPolicy.discriminant := by
  intro a b h; cases a <;> cases b <;> first | rfl | exact absurd h (by decide)

theorem NetworkRequirement.discriminant_injective :
    Function.Injective NetworkRequirement.discriminant := by
  intro a b h; cases a <;> cases b <;> first | rfl | exact absurd h (by decide)

theorem incompleteReason_prefixFree :
    PrefixFree fun (reason : IncompleteReason) b =>
      byteOf IncompleteReason.discriminant reason = .ok b :=
  byteOf_prefixFree IncompleteReason.discriminant_injective

theorem corruptReason_prefixFree :
    PrefixFree fun (reason : CorruptReason) b => byteOf CorruptReason.discriminant reason = .ok b :=
  byteOf_prefixFree CorruptReason.discriminant_injective

theorem digestBytes_prefixFree :
    PrefixFree fun (digest : Digest) b => bytesOf Digest.bytes digest = .ok b :=
  bytesOf_prefixFree digest_prefixFree

/-- A value that is found in the bytes is found under its constructor. -/
theorem found_under {α β : Type} {enc : α → Encoding} (henc : PrefixFree fun a b => enc a = .ok b)
    (make : α → β) {a a' : α}
    {b b' r r' : List UInt8} (h : enc a = .ok b) (h' : enc a' = .ok b') (heq : b ++ r = b' ++ r') :
    make a = make a' ∧ b = b' ∧ r = r' := by
  obtain ⟨rfl, hrest⟩ := henc a a' b b' r r' h h' heq
  exact ⟨rfl, hrest⟩

/-- No bytes for a value that is known. -/
theorem nothing_left {b b' r r' : List UInt8} (h : (.ok [] : Encoding) = .ok b)
    (h' : (.ok [] : Encoding) = .ok b') (heq : b ++ r = b' ++ r') : b = b' ∧ r = r' := by
  obtain rfl := Except.ok.inj h
  obtain rfl := Except.ok.inj h'
  exact ⟨rfl, heq⟩

theorem sourceState_prefixFree : PrefixFree fun (state : SourceState) b =>
    appendSourceState state = .ok b := by
  refine PrefixFree.tagged SourceState.kind _ (fun _ => rfl) fun a a' htag b b' r r' h h' heq => ?_
  cases a <;> cases a' <;> simp [SourceState.kind] at htag
  case missing.missing => exact ⟨rfl, nothing_left h h' heq⟩
  case building.building => exact ⟨rfl, nothing_left h h' heq⟩
  case complete.complete => exact found_under digestBytes_prefixFree SourceState.complete h h' heq
  case incomplete.incomplete =>
    exact found_under incompleteReason_prefixFree SourceState.incomplete h h' heq
  case corrupt.corrupt => exact found_under corruptReason_prefixFree SourceState.corrupt h h' heq

def SourceAction.tag : SourceAction → UInt8
  | .reuseCompleteSource _ => 1
  | .downloadMissingSource => 2
  | .resumeOrRestartBuilding => 3
  | .rejectIncomplete _ => 4
  | .rejectCorrupt _ => 5
  | .coverageUnavailable => 6

def SourceAction.body : SourceAction → Encoding
  | .reuseCompleteSource revision => .ok revision.bytes
  | .rejectIncomplete reason => .ok [reason.discriminant]
  | .rejectCorrupt reason => .ok [reason.discriminant]
  | .downloadMissingSource | .resumeOrRestartBuilding | .coverageUnavailable => .ok []

theorem sourceAction_prefixFree : PrefixFree fun (action : SourceAction) b =>
    appendSourceAction action = .ok b := by
  refine PrefixFree.tagged SourceAction.tag SourceAction.body (fun a => by cases a <;> rfl)
    fun a a' htag b b' r r' h h' heq => ?_
  cases a <;> cases a' <;> simp [SourceAction.tag] at htag
  case reuseCompleteSource.reuseCompleteSource =>
    exact found_under digestBytes_prefixFree SourceAction.reuseCompleteSource h h' heq
  case downloadMissingSource.downloadMissingSource => exact ⟨rfl, nothing_left h h' heq⟩
  case resumeOrRestartBuilding.resumeOrRestartBuilding => exact ⟨rfl, nothing_left h h' heq⟩
  case rejectIncomplete.rejectIncomplete =>
    exact found_under incompleteReason_prefixFree SourceAction.rejectIncomplete h h' heq
  case rejectCorrupt.rejectCorrupt =>
    exact found_under corruptReason_prefixFree SourceAction.rejectCorrupt h h' heq
  case coverageUnavailable.coverageUnavailable => exact ⟨rfl, nothing_left h h' heq⟩

def CacheAction.tag : CacheAction → UInt8
  | .reuseValidCache _ => 1
  | .rebuildCacheFromCompleteSource => 2
  | .awaitCompleteSource => 3

def CacheAction.body : CacheAction → Encoding
  | .reuseValidCache identity => .ok identity.bytes
  | .rebuildCacheFromCompleteSource | .awaitCompleteSource => .ok []

theorem cacheAction_prefixFree : PrefixFree fun (action : CacheAction) b =>
    appendCacheAction action = .ok b := by
  refine PrefixFree.tagged CacheAction.tag CacheAction.body (fun a => by cases a <;> rfl)
    fun a a' htag b b' r r' h h' heq => ?_
  cases a <;> cases a' <;> simp [CacheAction.tag] at htag
  case reuseValidCache.reuseValidCache =>
    exact found_under digestBytes_prefixFree CacheAction.reuseValidCache h h' heq
  case rebuildCacheFromCompleteSource.rebuildCacheFromCompleteSource =>
    exact ⟨rfl, nothing_left h h' heq⟩
  case awaitCompleteSource.awaitCompleteSource => exact ⟨rfl, nothing_left h h' heq⟩

end Encodings

section PlanIdentity
variable {hash : List UInt8 → Digest} {plan : ExecutionPlan}

/-- What the plan's bytes hold of a partition. -/
def written (partition : PlannedPartition) :=
  ((((partition.key.canonical, partition.sourceState), partition.sourceAction),
    partition.verificationAction), partition.cacheAction)

def appendWritten (value : (((List UInt8 × SourceState) × SourceAction) × VerificationAction) ×
    CacheAction) : Encoding :=
  appendBytes value.1.1.1.1 ++ appendSourceState value.1.1.1.2 ++ appendSourceAction value.1.1.2 ++
    byteOf VerificationAction.discriminant value.1.2 ++ appendCacheAction value.2

theorem appendWritten_prefixFree : PrefixFree fun value b => appendWritten value = .ok b :=
  (((reads_bytes.prefixFree.seq sourceState_prefixFree).seq sourceAction_prefixFree).seq
    (byteOf_prefixFree VerificationAction.discriminant_injective)).seq cacheAction_prefixFree

theorem encodeAll_written (partitions : List PlannedPartition) :
    encodeAll appendPartition partitions = encodeAll appendWritten (partitions.map written) := by
  induction partitions with
  | nil => rfl
  | cons partition rest ih => rw [List.map_cons, encodeAll, encodeAll, ih]; rfl

def planHeader : List UInt8 := planMagic ++ ofUnsigned 2 executionPlanVersion ++ planningVersionSet

/-- All that the bytes of a plan are made of. -/
def ExecutionPlan.contents (self : ExecutionPlan) :=
  ((((((), self.config.checksum), self.partitions.map written), self.completionPolicy),
    self.networkRequirement), self.degradedScopes)

theorem encode_parts (self : ExecutionPlan) : self.encode =
    .ok planHeader ++ bytesOf Digest.bytes self.config.checksum ++
      (appendLength (self.partitions.map written).length ++
        encodeAll appendWritten (self.partitions.map written)) ++
      byteOf CompletionPolicy.discriminant self.completionPolicy ++
        byteOf NetworkRequirement.discriminant self.networkRequirement ++
      (appendLength self.degradedScopes.length ++
        encodeAll (bytesOf Digest.bytes) self.degradedScopes) := by
  have hscope : bytesOf Digest.bytes = appendScope := rfl
  rw [← encodeAll_written, List.length_map]
  simp [ExecutionPlan.encode, planHeader, hscope, appendCounted, byteOf, bytesOf,
    encoded_append_assoc]

theorem contents_eq_of_encoded {a b : ExecutionPlan} {bytes : List UInt8}
    (ha : a.encode = .ok bytes) (hb : b.encode = .ok bytes) :
    a.contents = b.contents := by
  have hparts := (((((constant_prefixFree planHeader).seq digestBytes_prefixFree).seq
    (counted_prefixFree appendWritten_prefixFree)).seq
      (byteOf_prefixFree CompletionPolicy.discriminant_injective)).seq
    (byteOf_prefixFree NetworkRequirement.discriminant_injective)).seq
      (counted_prefixFree digestBytes_prefixFree)
  exact (hparts a.contents b.contents bytes bytes []
    [] ((encode_parts a).symm.trans ha) ((encode_parts b).symm.trans hb) rfl).1

/-- What is to be done about a partition. -/
def decisions (partition : PlannedPartition) :=
  (partition.key, partition.sourceState, partition.sourceAction, partition.verificationAction,
    partition.cacheAction)

/-- The bytes of the keys stand for the keys. -/
theorem decisions_of_written {l l' : List PlannedPartition}
    (hl : ∀ partition ∈ l, Made hash partition.key)
    (hl' : ∀ partition ∈ l', Made hash partition.key) (h : l.map written = l'.map written) :
    l.map decisions = l'.map decisions := by
  induction l generalizing l' with
  | nil =>
    obtain rfl := List.map_eq_nil_iff.1 h.symm
    rfl
  | cons partition rest ih =>
    cases l' with
    | nil => cases h
    | cons other rest' =>
      obtain ⟨hfirst, hrest⟩ := List.cons.inj h
      simp only [written, Prod.mk.injEq] at hfirst
      obtain ⟨⟨⟨⟨hkey, hstate⟩, haction⟩, hverification⟩, hcache⟩ := hfirst
      rw [List.forall_mem_cons] at hl hl'
      rw [List.map_cons, List.map_cons, ih hl.2 hl'.2 hrest, decisions, decisions,
        key_of_canonical hl.1 hl'.1 hkey, hstate, haction, hverification, hcache]

/-- The canonical bytes of a plan determine all that is to be done, and the run it is done for up to
its checksum. -/
theorem plan_determined {config config' : EffectiveRunConfig}
    {partitions partitions' : List PlannedPartition}
    {degradedScopes degradedScopes' : List Digest} {plan plan' : ExecutionPlan}
    (hmade : ∀ partition ∈ partitions, Made hash partition.key)
    (hmade' : ∀ partition ∈ partitions', Made hash partition.key)
    (h : ExecutionPlan.new hash config partitions degradedScopes = .ok plan)
    (h' : ExecutionPlan.new hash config' partitions' degradedScopes' = .ok plan')
    (hbytes : plan.canonical = plan'.canonical) :
    plan.config.checksum = plan'.config.checksum ∧
    plan.partitions.map decisions = plan'.partitions.map decisions ∧
      plan.completionPolicy = plan'.completionPolicy ∧
      plan.networkRequirement = plan'.networkRequirement ∧
      plan.degradedScopes = plan'.degradedScopes := by
  obtain ⟨hcovering, -, hperm, -, -⟩ := covering_of_accepted h
  obtain ⟨hcovering', -, hperm', -, -⟩ := covering_of_accepted h'
  have hcontents := contents_eq_of_encoded hcovering.canonical (hbytes ▸ hcovering'.canonical)
  simp only [ExecutionPlan.contents, Prod.mk.injEq, true_and] at hcontents
  obtain ⟨⟨⟨⟨hchecksum, hwritten⟩, hcompletion⟩, hnetwork⟩, hscopes⟩ := hcontents
  have hdecisions :=
    decisions_of_written (fun partition hpartition => hmade partition (hperm.mem_iff.1 hpartition))
    (fun partition hpartition => hmade' partition (hperm'.mem_iff.1 hpartition)) hwritten
  exact ⟨hchecksum, hdecisions, hcompletion, hnetwork, hscopes⟩

end PlanIdentity

section Decisions
variable {partition : PlannedPartition}

/-- A partition of a plan has been made from what is known of it. -/
def Classified (partition : PlannedPartition) : Prop :=
  (∃ sourceState cacheState,
    PlannedPartition.classify partition.key partition.sessionPlan sourceState cacheState =
      .ok partition) ∨
    PlannedPartition.coverageUnavailable partition.key partition.sessionPlan = .ok partition

theorem Classified.sessionPlan_identity (h : Classified partition) :
    partition.sessionPlan.identity = partition.key.sessionPlanIdentity := by
  simp only [Classified, PlannedPartition.classify, PlannedPartition.coverageUnavailable,
    validateSessionPlan, bind_eq_ok, ensure_eq_ok, pure_eq_ok] at h
  rcases h with ⟨-, -, -, ⟨-, -, hidentity, -⟩, -⟩ | ⟨-, ⟨-, -, hidentity, -⟩, -⟩
  · exact hidentity
  · exact hidentity

/-- The actions of a partition are those of its state, or the archive does not cover it. -/
theorem Classified.actions (h : Classified partition) :
    (partition.sourceAction = PlannedPartition.sourceActionOf partition.sourceState ∧
      partition.verificationAction = PlannedPartition.verificationActionOf partition.sourceState ∧
      ∃ cacheState, partition.cacheAction =
        PlannedPartition.cacheActionOf partition.sourceState cacheState) ∨
    (partition.sourceState = .missing ∧ partition.sourceAction = .coverageUnavailable ∧
      partition.cacheAction = .awaitCompleteSource) := by
  rcases h with ⟨sourceState, cacheState, h⟩ | h
  · simp only [PlannedPartition.classify, bind_eq_ok, pure_eq_ok] at h
    obtain ⟨-, -, hpartition⟩ := h
    rw [← hpartition]
    exact .inl ⟨rfl, rfl, cacheState, rfl⟩
  · simp only [PlannedPartition.coverageUnavailable, bind_eq_ok, pure_eq_ok] at h
    obtain ⟨-, -, hpartition⟩ := h
    rw [← hpartition]
    exact .inr ⟨rfl, rfl, rfl⟩

/-- The source of a partition is still to be prepared. -/
def Preparing (partition : PlannedPartition) : Prop :=
  (partition.sourceState = .missing ∧ partition.sourceAction ≠ .coverageUnavailable) ∨
  partition.sourceState = .building

theorem Classified.requiresNetwork_iff (h : Classified partition) :
    partition.sourceAction.requiresNetwork = true ↔ Preparing partition := by
  rcases h.actions with ⟨haction, -, -⟩ | ⟨hstate, haction, -⟩
  · rw [Preparing, haction]
    cases partition.sourceState <;>
      simp [PlannedPartition.sourceActionOf, SourceAction.requiresNetwork]
  · simp [Preparing, hstate, haction, SourceAction.requiresNetwork]

theorem Classified.reuse (h : Classified partition) {identity : Digest}
    (hreuse : partition.cacheAction = .reuseValidCache identity) :
    ∃ revision, partition.sourceState = .complete revision ∧
    partition.sourceAction = .reuseCompleteSource revision ∧
      partition.verificationAction = .verifyCompleteSource := by
  rcases h.actions with ⟨haction, hverification, cacheState, hcache⟩ | ⟨-, -, hcache⟩
  · rw [hcache] at hreuse
    rw [haction, hverification]
    cases hstate : partition.sourceState with
    | complete revision => exact ⟨revision, rfl, rfl, rfl⟩
    | missing => rw [hstate] at hreuse; cases hreuse
    | building => rw [hstate] at hreuse; cases hreuse
    | incomplete reason => rw [hstate] at hreuse; cases hreuse
    | corrupt reason => rw [hstate] at hreuse; cases hreuse
  · rw [hcache] at hreuse
    cases hreuse

theorem Classified.incomplete (h : Classified partition)
    (hincomplete : partition.sourceState.isIncomplete = true) :
    ∃ reason, partition.sourceAction = .rejectIncomplete reason ∧
    partition.verificationAction = .rejectIncomplete ∧
      partition.cacheAction = .awaitCompleteSource := by
  rcases h.actions with ⟨haction, hverification, cacheState, hcache⟩ | ⟨hstate, -, -⟩
  · rw [haction, hverification, hcache]
    cases hstate : partition.sourceState with
    | incomplete reason => exact ⟨reason, rfl, rfl, rfl⟩
    | missing => rw [hstate] at hincomplete; cases hincomplete
    | building => rw [hstate] at hincomplete; cases hincomplete
    | complete revision => rw [hstate] at hincomplete; cases hincomplete
    | corrupt reason => rw [hstate] at hincomplete; cases hincomplete
  · rw [hstate] at hincomplete
    cases hincomplete

/-- What an accepted plan does: a cache is read again only behind a complete source that is
verified, the network is needed just where a source is still to be prepared, and a degraded scope is
a partition that is refused as incomplete in a run that allows it. -/
theorem accepted_plan_sound (hash : List UInt8 → Digest) (config : EffectiveRunConfig)
    (partitions : List PlannedPartition) (degradedScopes : List Digest) (plan : ExecutionPlan)
    (hclassified : ∀ partition ∈ partitions, Classified partition)
    (h : ExecutionPlan.new hash config partitions degradedScopes = .ok plan) :
    (∀ partition ∈ plan.partitions,
      partition.sessionPlan.identity = partition.key.sessionPlanIdentity ∧
      ∀ identity, partition.cacheAction = .reuseValidCache identity →
      ∃ revision, partition.sourceState = .complete revision ∧
        partition.sourceAction = .reuseCompleteSource revision ∧
        partition.verificationAction = .verifyCompleteSource) ∧
    (plan.networkRequirement = .required ↔ ∃ partition ∈ plan.partitions, Preparing partition) ∧
    ∀ scope ∈ plan.degradedScopes, plan.config.sourcePolicy = .explicitDegraded ∧
    ∃ partition ∈ plan.partitions,
      partition.key.identity = scope ∧ ∃ reason, partition.sourceAction = .rejectIncomplete reason ∧
        partition.verificationAction = .rejectIncomplete ∧
        partition.cacheAction = .awaitCompleteSource := by
  obtain ⟨hcovering, -, hperm, -, -⟩ := covering_of_accepted h
  have hall : ∀ partition ∈ plan.partitions, Classified partition :=
    fun partition hpartition => hclassified partition (hperm.mem_iff.1 hpartition)
  refine ⟨fun partition hpartition => ?_, ?_, fun scope hscope => ⟨?_, ?_⟩⟩
  · exact ⟨(hall partition hpartition).sessionPlan_identity, fun _ =>
      (hall partition hpartition).reuse⟩
  · rw [hcovering.network, networkRequirementOf]
    split_ifs with hany
    · rw [List.any_eq_true] at hany
      obtain ⟨partition, hpartition, hneeds⟩ := hany
      exact iff_of_true rfl
        ⟨partition, hpartition, (hall partition hpartition).requiresNetwork_iff.1 hneeds⟩
    · refine iff_of_false (by decide) fun hpreparing => hany ?_
      obtain ⟨partition, hpartition, hneeds⟩ := hpreparing
      exact List.any_eq_true.2
        ⟨partition, hpartition, (hall partition hpartition).requiresNetwork_iff.2 hneeds⟩
  · have hcompletion := hcovering.completion
    cases hpolicy : plan.config.sourcePolicy with
    | explicitDegraded => rfl
    | strict =>
      simp only [hpolicy, completionPolicyOf, bind_eq_ok, ensure_eq_ok] at hcompletion
      obtain ⟨-, hnone, -⟩ := hcompletion
      rw [hnone] at hscope
      cases hscope
  · obtain ⟨partition, hpartition, hidentity, hincomplete⟩ := hcovering.degraded scope hscope
    exact ⟨partition, hpartition, hidentity, (hall partition hpartition).incomplete hincomplete⟩

end Decisions

section Runs

/-- Runs and plans have one identity: a configuration resolves to the same run, and a plan is the
same, in whatever order their parts come; the canonical bytes of a run are those of no other run,
and those of a plan determine what it does; and a plan has one partition for each instrument of its
run on each date. -/
theorem canonical_identity (hash : List UInt8 → Digest) :
    (∀ a b, SameRun a b →
      (∀ effective, EffectiveRunConfig.resolve hash a = .ok effective ↔
        EffectiveRunConfig.resolve hash b = .ok effective) ∧
        (a.instrumentEconomics = b.instrumentEconomics →
          EffectiveRunConfig.resolve hash a = EffectiveRunConfig.resolve hash b)) ∧
    (∀ a b x y, EffectiveRunConfig.resolve hash a = .ok x →
      EffectiveRunConfig.resolve hash b = .ok y →
      (x.canonicalSemantics = y.canonicalSemantics ↔ y = { x with dataRoot := y.dataRoot })) ∧
    (∀ config partitions partitions' degradedScopes degradedScopes',
      (∀ partition ∈ partitions, Made hash partition.key) →
      partitions.Perm partitions' → (∀ scope, scope ∈ degradedScopes ↔ scope ∈ degradedScopes') →
      ExecutionPlan.new hash config partitions degradedScopes =
        ExecutionPlan.new hash config partitions' degradedScopes') ∧
    (∀ config partitions degradedScopes plan,
      ExecutionPlan.new hash config partitions degradedScopes = .ok plan →
      Covering plan ∧ plan.config = config ∧ plan.partitions.Perm partitions ∧
        (∀ scope, scope ∈ plan.degradedScopes ↔ scope ∈ degradedScopes) ∧
        plan.identity = hash plan.canonical) ∧
    ∀ config config' partitions partitions' degradedScopes degradedScopes' plan plan',
      (∀ partition ∈ partitions, Made hash partition.key) →
      (∀ partition ∈ partitions', Made hash partition.key) →
      ExecutionPlan.new hash config partitions degradedScopes = .ok plan →
      ExecutionPlan.new hash config' partitions' degradedScopes' = .ok plan' →
      plan.canonical = plan'.canonical →
      plan.config.checksum = plan'.config.checksum ∧
      plan.partitions.map decisions = plan'.partitions.map decisions ∧
        plan.completionPolicy = plan'.completionPolicy ∧
        plan.networkRequirement = plan'.networkRequirement ∧
        plan.degradedScopes = plan'.degradedScopes := by
  refine ⟨fun a b h => run_order_free hash a b h, fun a b x y hx hy =>
    run_identity_iff hash a b x y hx hy, ?_, ?_, ?_⟩
  · intro config partitions partitions' degradedScopes degradedScopes' hmade hperm hscopes
    exact plan_order_free hash config partitions partitions' degradedScopes degradedScopes' hmade
      hperm hscopes
  · intro config partitions degradedScopes plan h
    exact covering_of_accepted h
  · intro config config' partitions partitions' degradedScopes degradedScopes' plan plan' hmade
      hmade' h h' hbytes
    exact plan_determined hmade hmade' h h' hbytes

/-- A run of one date. -/
def dayRun : RunConfig := sampleRun [firstDay] [firstSymbol, secondSymbol]

def plannedPartition (symbol : Symbol) (sourceState : SourceState) (cacheState : CacheState) :
    Option PlannedPartition := do
  let sessionPlan ←
      (SessionPlan.withProfile sampleHash ⟨.twse, symbol⟩ firstDay .twseRegular [.regular]).toOption
  let key ← (SourcePartitionKey.new sampleHash sampleSource ⟨.twse, symbol⟩ firstDay
      [.regular] sessionPlan.identity).toOption
  (PlannedPartition.classify key sessionPlan sourceState cacheState).toOption

theorem made_of_new {hash : List UInt8 → Digest} {source : SourceId} {instrument : InstrumentId}
    {tradingDate : TradingDate}
    {kinds : List SessionKind} {sessionPlanIdentity : Digest} {key : SourcePartitionKey}
    (h : SourcePartitionKey.new hash source instrument tradingDate kinds sessionPlanIdentity =
      .ok key) : Made hash key := by
  have hnew := h
  simp only [SourcePartitionKey.new, bind_eq_ok, ensure_eq_ok, pure_eq_ok] at h
  obtain ⟨-, -, canonical, -, hkey⟩ := h
  refine ⟨kinds, ?_⟩
  rw [← hnew, ← hkey]

theorem plannedPartition_made {symbol : Symbol} {sourceState : SourceState}
    {cacheState : CacheState} {partition : PlannedPartition}
    (h : plannedPartition symbol sourceState cacheState = some partition) :
    Made sampleHash partition.key ∧ Classified partition := by
  simp only [plannedPartition, Option.bind_eq_bind, Option.bind_eq_some_iff, toOption_eq_some] at h
  obtain ⟨sessionPlan, -, key, hkey, hclassify⟩ := h
  have hpartition := hclassify
  simp only [PlannedPartition.classify, bind_eq_ok, pure_eq_ok] at hclassify
  obtain ⟨-, -, rfl⟩ := hclassify
  exact ⟨made_of_new hkey, .inl ⟨sourceState, cacheState, hpartition⟩⟩

/-- The plan of the day's run, with one source still missing. -/
def dayPlan : Option (EffectiveRunConfig × PlannedPartition × PlannedPartition × ExecutionPlan) :=
  do
  let effective ← (EffectiveRunConfig.resolve sampleHash dayRun).toOption
  let first ← plannedPartition firstSymbol .missing .missing
  let second ← plannedPartition secondSymbol (.complete EffectiveRunConfig.zeroDigest) .missing
  let plan ← (ExecutionPlan.new sampleHash effective [first, second] []).toOption
  return (effective, first, second, plan)

theorem dayPlan_accepted : ∃ effective first second plan,
    EffectiveRunConfig.resolve sampleHash dayRun = .ok effective ∧
    plannedPartition firstSymbol .missing .missing = some first ∧
    plannedPartition secondSymbol (.complete EffectiveRunConfig.zeroDigest) .missing = some second ∧
    ExecutionPlan.new sampleHash effective [first, second] [] = .ok plan := by
  obtain ⟨found, hfound⟩ :=
    Option.isSome_iff_exists.1 (show dayPlan.isSome = true by decide +kernel)
  simp only [dayPlan, Option.bind_eq_bind, Option.bind_eq_some_iff, toOption_eq_some] at hfound
  obtain ⟨effective, heffective, first, hfirst, second, hsecond, plan, hplan, -⟩ := hfound
  exact ⟨effective, first, second, plan, heffective, hfirst, hsecond, hplan⟩

/-- A run and its plan in one order and the other. -/
theorem day_planned_alike : ∃ listed effective first second plan,
    EffectiveRunConfig.resolve sampleHash listedRun = .ok listed ∧
    EffectiveRunConfig.resolve sampleHash relistedRun = .ok listed ∧
    EffectiveRunConfig.resolve sampleHash dayRun = .ok effective ∧
    ExecutionPlan.new sampleHash effective [first, second] [] = .ok plan ∧
    ExecutionPlan.new sampleHash effective [second, first] [] = .ok plan ∧ Covering plan := by
  obtain ⟨listed, hlisted⟩ := listedRun_accepted
  obtain ⟨effective, first, second, plan, heffective, hfirst, hsecond, hplan⟩ := dayPlan_accepted
  obtain ⟨hresolve, -, horder, hcover, -⟩ := canonical_identity sampleHash
  have hmade : ∀ partition ∈ [first, second], Made sampleHash partition.key := by
    simp [(plannedPartition_made hfirst).1, (plannedPartition_made hsecond).1]
  have hrelisted := ((hresolve listedRun relistedRun relisted_sameRun).1 listed).1 hlisted
  refine ⟨listed, effective, first, second, plan, hlisted, hrelisted, heffective, hplan, ?_,
    (hcover effective _ _ plan hplan).1⟩
  rw [← horder effective [first, second] [second, first] [] [] hmade (.swap _ _ _) fun _ => Iff.rfl]
  exact hplan

/-- A run that allows a source to be incomplete. -/
def degradedRun : RunConfig :=
  { dayRun with sourcePolicy := some .explicitDegraded, replayDataPolicy := some .explicitDegraded }

/-- One source is incomplete and the cache of the other is valid. -/
def degradedPlan :
    Option (EffectiveRunConfig × PlannedPartition × PlannedPartition × ExecutionPlan) := do
  let effective ← (EffectiveRunConfig.resolve sampleHash degradedRun).toOption
  let first ← plannedPartition firstSymbol (.incomplete .cursorNotTerminal) .missing
  let second ← plannedPartition secondSymbol (.complete EffectiveRunConfig.zeroDigest)
      (.valid EffectiveRunConfig.zeroDigest)
  let plan ← (ExecutionPlan.new sampleHash effective [first, second] [first.key.identity]).toOption
  return (effective, first, second, plan)

/-- Nothing is fetched: the one source is read again from its cache and the other is left out. -/
theorem degraded_plan_sound : ∃ effective first second plan,
    ExecutionPlan.new sampleHash effective [first, second] [first.key.identity] = .ok plan ∧
    (∃ partition ∈ plan.partitions,
      partition.cacheAction = .reuseValidCache EffectiveRunConfig.zeroDigest ∧
      partition.verificationAction = .verifyCompleteSource) ∧
    plan.networkRequirement ≠ .required ∧
    ∃ partition ∈ plan.partitions, partition.key.identity ∈ plan.degradedScopes ∧
      partition.verificationAction = .rejectIncomplete := by
  obtain ⟨found, hfound, htest⟩ : ∃ found, degradedPlan = some found ∧
      (∃ partition ∈ found.2.2.2.partitions,
        partition.cacheAction = .reuseValidCache EffectiveRunConfig.zeroDigest) ∧
      (∀ partition ∈ found.2.2.2.partitions, partition.sourceState ≠ .missing ∧
        partition.sourceState ≠ .building) ∧
      found.2.2.2.degradedScopes ≠ [] := by
    have htest : degradedPlan.any (fun found =>
        found.2.2.2.partitions.any (fun partition =>
          decide (partition.cacheAction = .reuseValidCache EffectiveRunConfig.zeroDigest)) &&
        found.2.2.2.partitions.all (fun partition =>
          decide (partition.sourceState ≠ .missing ∧ partition.sourceState ≠ .building)) &&
        decide (found.2.2.2.degradedScopes ≠ [])) = true := by decide +kernel
    simpa only [Option.any_eq_true, Bool.and_eq_true, List.any_eq_true, List.all_eq_true,
      decide_eq_true_eq, and_assoc] using htest
  obtain ⟨⟨partition, hpartition, hreused⟩, hprepared, hscopes⟩ := htest
  simp only [degradedPlan, Option.bind_eq_bind, Option.bind_eq_some_iff, toOption_eq_some] at hfound
  obtain ⟨effective, -, first, hfirst, second, hsecond, plan, hplan, heq⟩ := hfound
  obtain rfl := Option.some.inj heq
  have hclassified : ∀ partition ∈ [first, second], Classified partition := by
    simp [(plannedPartition_made hfirst).2, (plannedPartition_made hsecond).2]
  obtain ⟨hpartitions, hnetwork, hdegraded⟩ :=
    accepted_plan_sound sampleHash effective _ _ plan hclassified hplan
  refine ⟨effective, first, second, plan, hplan, ⟨partition, hpartition, hreused, ?_⟩,
    fun hrequired => ?_, ?_⟩
  · obtain ⟨revision, -, -, hverified⟩ := (hpartitions partition hpartition).2 _ hreused
    exact hverified
  · obtain ⟨other, hother, hpreparing⟩ := hnetwork.1 hrequired
    rcases hpreparing with ⟨hmissing, -⟩ | hbuilding
    · exact (hprepared other hother).1 hmissing
    · exact (hprepared other hother).2 hbuilding
  · obtain ⟨scope, hscope⟩ := List.exists_mem_of_ne_nil _ hscopes
    obtain ⟨-, refused, hrefused, hidentity, reason, -, hrejected, -⟩ := hdegraded scope hscope
    exact ⟨refused, hrefused, hidentity ▸ hscope, hrejected⟩

/-- A run whose economics are all refused. -/
def unitlessRun (symbols : List Symbol) : RunConfig :=
  { listedRun with instrumentEconomics := symbols.map fun symbol =>
      { equityEconomics symbol with unitsPerTradingUnit := Unsigned.wrap 64 0 } }

def refusalOf {α : Type} : Except ConfigError α → Option ConfigError
  | .ok _ => none
  | .error e => some e

/-- Which economics a run is refused for depends on the order in which it lists them. -/
theorem economics_refused_in_order :
    SameRun (unitlessRun [firstSymbol, secondSymbol]) (unitlessRun [secondSymbol, firstSymbol]) ∧
    EffectiveRunConfig.resolve sampleHash (unitlessRun [firstSymbol, secondSymbol]) ≠
      EffectiveRunConfig.resolve sampleHash (unitlessRun [secondSymbol, firstSymbol]) := by
  constructor
  · exact { rest := rfl, tradingDates := fun _ => Iff.rfl, universeInstruments := fun _ =>
      Iff.rfl, instrumentContracts := .refl _,
            sessionKinds := fun _ => Iff.rfl, simulation := ⟨rfl, .refl _⟩, instrumentEconomics :=
              .swap _ _ [] }
  · intro h
    have hrefusal := congrArg refusalOf h
    exact absurd hrefusal (by decide +kernel)

end Runs

end RunPlanner

end Osmium
