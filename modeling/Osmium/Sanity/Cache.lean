import Osmium.Spec.Cache

/-! What a cache build does to the file system, stage by stage: it fills a directory of its own, and
what it leaves when a stage fails is that directory. -/

namespace Osmium
open Machine Bytes Result Stateful Directories
open Files (FilePath)

namespace CacheBuilder
variable {env : CacheEnv} {attempt cacheRoot : FilePath} {base now : Nodes}
  {inside : List UInt8 → Option Node}
  {name : List UInt8}

/-- An error of the file system. -/
def isIo : CacheBuildError → Bool
  | .io _ => true
  | _ => false

/-- What the events are written as, or the first event that cannot be written. -/
def payloadOf : List DomainEvent → Except CacheBuildError (List UInt8)
  | [] => .ok []
  | event :: rest => do
    let bytes ← eventRecord event
    return bytes ++ (← payloadOf rest)

theorem io_eq {α : Type} {op : EStateM IoError Nodes α} {nodes next : Nodes} {a : α}
    (h : op nodes = .ok a next) :
    io op nodes = .ok a next := (zoom_ok _ _ _ _ _ _ _).2 ⟨next, h, rfl⟩

theorem io_error {α : Type} {op : EStateM IoError Nodes α} {nodes next : Nodes}
    {e : CacheBuildError} (h : io op nodes = .error e next) : isIo e = true := by
  obtain ⟨_, _, _, rfl, -⟩ := (zoom_error _ _ _ _ _ _ _).1 h
  rfl

/-- What fails without touching the disk. -/
def NotIo (error : CacheBuildError) : Prop := isIo error = false

theorem eventRecord_failsIn (event : DomainEvent) : FailsIn NotIo (eventRecord event) := by
  refine FailsIn.bind (FailsIn.mapError fun _ => rfl) fun bytes =>
    FailsIn.bind (FailsIn.okOr rfl) fun length => ?_
  exact FailsIn.bind (FailsIn.ensure rfl) fun _ => FailsIn.pure _

theorem payloadOf_failsIn (events : List DomainEvent) : FailsIn NotIo (payloadOf events) := by
  induction events with
  | nil => exact FailsIn.pure _
  | cons event rest ih =>
    exact FailsIn.bind (eventRecord_failsIn event) fun _ => FailsIn.bind ih fun _ => FailsIn.pure _

/-- The events are written as far as they can be, and nothing else is touched. -/
theorem writeEvents_filling (h : Filling attempt base inside now) {old : List UInt8}
    (hname : inside name = some (.file old)) (events : List DomainEvent) :
    (∀ payload, payloadOf events = .ok payload →
      ∃ next, writeEvents (attempt ++ [name]) events now = .ok payload next ∧
      Filling attempt base (Function.update inside name (some (.file (old ++ payload)))) next) ∧
    ∀ e, payloadOf events = .error e →
    ∃ next bytes, writeEvents (attempt ++ [name]) events now = .error e next ∧
      Filling attempt base (Function.update inside name (some (.file bytes))) next := by
  induction events generalizing now inside old with
  | nil =>
    refine ⟨fun payload hpayload => ?_, fun e he => by cases he⟩
    cases hpayload
    have hsame : Function.update inside name (some (.file old)) = inside := by
      rw [← hname, Function.update_eq_self]
    exact ⟨now, rfl, by rwa [List.append_nil, hsame]⟩
  | cons event rest ih =>
    cases hrecord : eventRecord event with
    | error error =>
      have hpayload : payloadOf (event :: rest) = .error error := by rw [payloadOf, hrecord]; rfl
      refine ⟨fun payload hok => (by rw [hpayload] at hok; cases hok), fun e he => ?_⟩
      rw [hpayload] at he
      cases he
      have hsame : Function.update inside name (some (.file old)) = inside := by
        rw [← hname, Function.update_eq_self]
      refine ⟨now, old, ?_, by rwa [hsame]⟩
      rw [writeEvents, lift_bind_error hrecord]
    | ok bytes =>
      obtain ⟨next, happend, hfilling⟩ := h.append hname bytes
      have hrun : writeEvents (attempt ++ [name]) (event :: rest) now =
          (writeEvents (attempt ++ [name]) rest >>= fun payload =>
            pure (bytes ++ payload)) next := by
        rw [writeEvents, lift_bind hrecord, bind_of_ok (io_eq happend)]
      obtain ⟨hok, herror⟩ := ih hfilling (Function.update_self _ _ _)
      simp only [Function.update_idem] at hok herror
      refine ⟨fun payload hpayload => ?_, fun e he => ?_⟩
      · cases hrest : payloadOf rest with
        | error error =>
          rw [payloadOf, hrecord, hrest] at hpayload
          cases hpayload
        | ok tail =>
          rw [payloadOf, hrecord, hrest] at hpayload
          cases hpayload
          obtain ⟨last, hwrite, hlast⟩ := hok tail hrest
          refine ⟨last, ?_, ?_⟩
          · rw [hrun, bind_of_ok hwrite]
            rfl
          · rwa [← List.append_assoc]
      · cases hrest : payloadOf rest with
        | ok tail =>
          rw [payloadOf, hrecord, hrest] at he
          cases he
        | error error =>
          rw [payloadOf, hrecord, hrest] at he
          cases he
          obtain ⟨last, written, hwrite, hlast⟩ := herror e hrest
          exact ⟨last, written, by rw [hrun, bind_of_error hwrite], hlast⟩

/-- What the events file begins with. -/
def eventsHeader (events : List DomainEvent) : List UInt8 :=
  cacheMagic ++ ofUnsigned 2 cacheFormatVersion ++ ofUnsigned 8 (Unsigned.wrap 64 events.length)

/-- One file in an otherwise empty directory. -/
def only (name : List UInt8) (bytes : List UInt8) : List UInt8 → Option Node :=
  Function.update (fun _ => none) name (some (.file bytes))

theorem filling_fresh {tree : Tree} (h : attempt ∉ tree.nodes) :
    Filling attempt (withDirectories attempt tree.nodes) (fun _ => none)
      (withDirectories attempt tree.nodes) := by
  refine ⟨fun _ _ => rfl, ?_, fun name => ?_⟩
  · have hnone : tree.nodes[attempt]? = none := Std.ExtTreeMap.getElem?_eq_none h
    rw [getElem?_withDirectories, if_pos List.prefix_rfl, hnone]
    rfl
  · rw [getElem?_withDirectories, if_neg (not_prefix_self attempt name)]
    exact Std.ExtTreeMap.getElem?_eq_none (tree.absent_below h (List.prefix_append _ _))

theorem stageEvents_filling {tree : Tree} (hfresh : attempt ∉ tree.nodes)
    (hopen : blocked tree.nodes attempt = false) (events : List DomainEvent) :
    (∀ payload, payloadOf events = .ok payload →
      ∃ next, stageEvents attempt events tree.nodes = .ok payload next ∧
      Filling attempt (withDirectories attempt tree.nodes)
        (only eventsName (eventsHeader events ++ payload)) next) ∧
    ∀ e, payloadOf events = .error e →
    ∃ next, stageEvents attempt events tree.nodes = .error e next ∧
      ∃ inside, Filling attempt (withDirectories attempt tree.nodes) inside next := by
  have hfree : (fun _ => none : List UInt8 → Option Node) eventsTemporaryName = none := rfl
  obtain ⟨created, hcreate, hcreated⟩ := (filling_fresh hfresh).createNew hfree
  obtain ⟨headed, happend, hheaded⟩ :=
    hcreated.append (Function.update_self _ _ _) (eventsHeader events)
  rw [List.nil_append, Function.update_idem] at hheaded
  have hrun : stageEvents attempt events tree.nodes = (do
      let payload ← writeEvents (attempt ++ [eventsTemporaryName]) events
      io (syncAll (attempt ++ [eventsTemporaryName]))
      io (rename (attempt ++ [eventsTemporaryName]) (attempt ++ [eventsName]))
      return payload : BuildOp (List UInt8)) headed := by
    rw [stageEvents, bind_of_ok (io_eq (createDirAll_eq hopen))]
    exact (bind_of_ok (io_eq hcreate) _).trans (bind_of_ok (io_eq happend) _)
  obtain ⟨hok, herror⟩ := writeEvents_filling hheaded (Function.update_self _ _ _) events
  refine ⟨fun payload hpayload => ?_, fun e he => ?_⟩
  · obtain ⟨written, hwrite, hwritten⟩ := hok payload hpayload
    rw [Function.update_idem] at hwritten
    have hsync := hwritten.syncAll (Function.update_self _ _ _)
    have hne : eventsName ≠ eventsTemporaryName := by decide
    have htarget : Function.update (fun _ => none) eventsTemporaryName
        (some (Node.file (eventsHeader events ++ payload)))
        eventsName = none := Function.update_of_ne hne _ _
    obtain ⟨next, hrename, hnext⟩ := hwritten.rename (Function.update_self _ _ _) htarget
    refine ⟨next, ?_, ?_⟩
    · rw [hrun, bind_of_ok hwrite, bind_of_ok (io_eq hsync), bind_of_ok (io_eq hrename)]
      rfl
    · rwa [Function.update_idem, Function.update_eq_self_iff.2 rfl] at hnext
  · obtain ⟨next, bytes, hwrite, hnext⟩ := herror e he
    exact ⟨next, by rw [hrun, bind_of_error hwrite], _, hnext⟩

/-- The events and their descriptor. -/
def built (events descriptor : List UInt8) : List UInt8 → Option Node :=
  Function.update (only eventsName events) descriptorName (some (.file descriptor))

theorem writeAtomic_filling {events : List UInt8}
    (h : Filling attempt base (only eventsName events) now)
    (descriptor : List UInt8) : ∃ next, writeAtomic (attempt ++ [descriptorName]) descriptor now =
      .ok () next ∧
      Filling attempt base (built events descriptor) next := by
  have htmp : Files.withExtension (attempt ++ [descriptorName]) temporaryExtension =
      attempt ++ [descriptorStem ++ 46 :: temporaryExtension] :=
    Files.withExtension_append (by decide) (by decide)
  have hevents : descriptorStem ++ 46 :: temporaryExtension ≠ eventsName := by decide
  have hne : descriptorName ≠ descriptorStem ++ 46 :: temporaryExtension := by decide
  have hfree : only eventsName events (descriptorStem ++ 46 :: temporaryExtension) = none :=
    Function.update_of_ne hevents _ _
  obtain ⟨created, hcreate, hcreated⟩ := h.createNew hfree
  obtain ⟨written, hwrite, hwritten⟩ := hcreated.append (Function.update_self _ _ _) descriptor
  rw [List.nil_append, Function.update_idem] at hwritten
  have hsync := hwritten.syncAll (Function.update_self _ _ _)
  have htarget :
      Function.update (only eventsName events) (descriptorStem ++ 46 :: temporaryExtension)
      (some (.file descriptor)) descriptorName = none := by
    rw [Function.update_of_ne hne]
    exact Function.update_of_ne (by decide) _ _
  obtain ⟨next, hrename, hnext⟩ := hwritten.rename (Function.update_self _ _ _) htarget
  refine ⟨next, ?_, ?_⟩
  · rw [writeAtomic, htmp, bind_of_ok hcreate, bind_of_ok hwrite, bind_of_ok hsync]
    exact hrename
  · rwa [Function.update_idem, ← hfree, Function.update_eq_self] at hnext

section Keeping
variable {env : CacheEnv} {attempt cacheRoot : FilePath} {nodes : Nodes}

theorem io_worksIn {α : Type} {op : EStateM IoError Nodes α}
    (h : Along (WorksIn attempt) AnyFailure op nodes) :
    Along (WorksIn attempt) AnyFailure (io op) nodes :=
  Along.zoom (fun _ => trivial) fun _ hafter => hafter ▸ h.stateAfter

theorem writeEvents_worksIn (path : FilePath) (hpath : attempt <+: path) (events : List DomainEvent)
    (nodes : Nodes) :
    Along (WorksIn attempt) AnyFailure (writeEvents path events) nodes := by
  induction events generalizing nodes with
  | nil => exact Along.pure _
  | cons event rest ih =>
    refine Along.lift_bind (failsIn_any _) fun bytes _ =>
      (io_worksIn (append_worksIn hpath bytes nodes)).bind fun _ s' _ => ?_
    exact (ih s').bind fun _ _ _ => Along.pure _

theorem stageEvents_worksIn (events : List DomainEvent) (nodes : Nodes) :
    Along (WorksIn attempt) AnyFailure (stageEvents attempt events) nodes := by
  have hunder : ∀ name, attempt <+: attempt ++ [name] := fun _ => List.prefix_append _ _
  refine (io_worksIn (createDirAll_worksIn _ _)).bind fun _ s₁ _ => ?_
  refine (io_worksIn (createNew_worksIn _ _)).bind fun _ s₂ _ => ?_
  refine (io_worksIn (append_worksIn (hunder _) _ _)).bind fun _ s₃ _ => ?_
  refine (writeEvents_worksIn _ (hunder _) events _).bind fun payload s₄ _ => ?_
  refine (io_worksIn (syncAll_worksIn _ _)).bind fun _ s₅ _ => ?_
  exact (io_worksIn (rename_worksIn _ (hunder _) (.inl (hunder _)))).bind fun _ _ _ => Along.pure _

theorem writeAtomic_worksIn (bytes : List UInt8) (nodes : Nodes) :
    Along (WorksIn attempt) AnyFailure (writeAtomic (attempt ++ [descriptorName]) bytes) nodes := by
  have htmp : Files.withExtension (attempt ++ [descriptorName]) temporaryExtension =
      attempt ++ [descriptorStem ++ 46 :: temporaryExtension] :=
    Files.withExtension_append (by decide) (by decide)
  have hunder : ∀ name, attempt <+: attempt ++ [name] := fun _ => List.prefix_append _ _
  unfold writeAtomic
  rw [htmp]
  refine (createNew_worksIn _ _).bind fun _ s₁ _ => ?_
  refine (append_worksIn (hunder _) _ _).bind fun _ s₂ _ => ?_
  refine (syncAll_worksIn _ _).bind fun _ s₃ _ => ?_
  exact rename_worksIn _ (hunder _) (.inl (hunder _))

theorem publishAttempt_worksIn (cacheRoot : FilePath) (descriptor : CacheDescriptor)
    (nodes : Nodes) :
    Along (WorksIn attempt) AnyFailure (publishAttempt attempt cacheRoot descriptor) nodes := by
  refine (io_worksIn (createDirAll_worksIn _ _)).bind fun _ s₁ _ => ?_
  refine Along.get_bind (Along.lift_bind (failsIn_any _) fun _ hfree => ?_)
  have hfree := (ensure_eq_ok _ _ _).1 hfree
  refine (io_worksIn (rename_worksIn _ List.prefix_rfl (.inr hfree))).bind fun _ s₂ _ => ?_
  exact (io_worksIn (syncAll_worksIn _ _)).bind fun _ _ _ => Along.pure _

/-- A build works in a directory that is not there when it begins. -/
theorem publishEvents_extends (source : VerificationReport) (stagingRoot cacheRoot : FilePath)
    (instrument : InstrumentId) (tradingDate : TradingDate) (partitionIdentity : Option Text)
    (mapping : NormalizerMappingIdentity) (events : List DomainEvent) (nodes : Nodes) :
    Along Extends AnyFailure (publishEvents env source stagingRoot cacheRoot
      instrument tradingDate partitionIdentity mapping events) nodes := by
  refine Along.get_bind (Along.lift_bind (failsIn_any _) fun _ hfresh => ?_)
  have hfresh := (ensure_eq_ok _ _ _).1 hfresh
  have hworks : Along (WorksIn (stagingRoot ++ [cacheBuildName])) AnyFailure (do
      let payload ← stageEvents (stagingRoot ++ [cacheBuildName]) events
      let descriptor :=
        buildDescriptor env source instrument tradingDate partitionIdentity mapping events payload
      io (writeAtomic (stagingRoot ++ [cacheBuildName] ++ [descriptorName])
        (env.descriptorToVec descriptor))
      io (syncAll (stagingRoot ++ [cacheBuildName]))
      publishAttempt (stagingRoot ++ [cacheBuildName]) cacheRoot descriptor) nodes := by
    refine (stageEvents_worksIn events nodes).bind fun payload s₁ _ => ?_
    refine (io_worksIn (writeAtomic_worksIn _ _)).bind fun _ s₂ _ => ?_
    refine (io_worksIn (syncAll_worksIn _ _)).bind fun _ s₃ _ => ?_
    exact publishAttempt_worksIn _ _ _
  exact hworks.imp (fun after h => h.extends_of_fresh hfresh) fun _ => id

theorem buildExternalPartition_extends (storage : StorageEnv) (dataRoot : FilePath)
    (key : SourcePartitionKey)
    (mapping : NormalizerMappingIdentity) (events : List DomainEvent) (nodes : Nodes) :
    Along Extends AnyFailure
      (buildExternalPartition env storage dataRoot key mapping events) nodes := by
  refine Along.get_bind (Along.lift_bind (failsIn_any _) fun source _ =>
    Along.lift_bind (failsIn_any _) fun ordered _ =>
    Along.lift_bind (failsIn_any _) fun _ _ => ?_)
  exact publishEvents_extends ..

theorem buildExternalCurrent_extends (storage : StorageEnv) (dataRoot : FilePath)
    (instrument : InstrumentId)
    (tradingDate : TradingDate) (mapping : NormalizerMappingIdentity) (events : List DomainEvent)
    (nodes : Nodes) :
    Along Extends AnyFailure
      (buildExternalCurrent env storage dataRoot instrument tradingDate mapping events) nodes := by
  refine Along.get_bind (Along.lift_bind (failsIn_any _) fun source _ =>
    Along.lift_bind (failsIn_any _) fun ordered _ =>
    Along.lift_bind (failsIn_any _) fun _ _ => ?_)
  exact publishEvents_extends ..

/-- A cache build, whatever it is built for and however it ends. -/
inductive BuildStep (env : CacheEnv) (nodes : Nodes) : Nodes → Prop
  | partition (storage : StorageEnv) (dataRoot : FilePath) (key : SourcePartitionKey)
      (mapping : NormalizerMappingIdentity)
      (events : List DomainEvent) :
      BuildStep env nodes
        (stateAfter (buildExternalPartition env storage dataRoot key mapping events nodes))
  | current (storage : StorageEnv) (dataRoot : FilePath) (instrument : InstrumentId)
      (tradingDate : TradingDate)
      (mapping : NormalizerMappingIdentity) (events : List DomainEvent) :
      BuildStep env nodes (stateAfter
        (buildExternalCurrent env storage dataRoot instrument tradingDate mapping events nodes))

theorem BuildStep.extendsNodes {before after : Nodes} (h : BuildStep env before after) :
    Extends before after := by
  cases h with
  | partition storage dataRoot key mapping events =>
    exact (buildExternalPartition_extends storage dataRoot key mapping events before).stateAfter
  | current storage dataRoot instrument tradingDate mapping events =>
    exact (buildExternalCurrent_extends storage dataRoot instrument tradingDate mapping events
      before).stateAfter

/-- Any number of builds one after the other. -/
abbrev BuildRun (env : CacheEnv) : Nodes → Nodes → Prop := Relation.ReflTransGen (BuildStep env)

theorem BuildRun.extendsNodes {before after : Nodes} (h : BuildRun env before after) :
    Extends before after := by
  induction h with
  | refl => exact Std.Refl.refl _
  | tail _ hstep ih => exact IsTrans.trans _ _ _ ih hstep.extendsNodes

end Keeping

end CacheBuilder

end Osmium
