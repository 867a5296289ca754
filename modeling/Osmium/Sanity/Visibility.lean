import Osmium.Proofs.EventCodec
import Osmium.Sanity.Runner

/-! The visible core of a scheduled run. It commits the events that the authoritative core has
committed, in the same order, as far as their observations have been released. -/

namespace Osmium
open Machine Bytes Result Stateful SortedQueue

/-- The observation a control releases. -/
def ScheduledBacktestControl.observation? : ScheduledBacktestControl → Option BufferedObservation
  | .releaseObservation observation => some observation
  | _ => none

/-- The observations released by controls, in their order. -/
def releases (controls : List BacktestControl) : List BufferedObservation :=
  controls.filterMap fun control => control.payload.observation?

section Releases
variable {queue queue' : ControlTimeQueue ScheduledBacktestControl}

theorem releases_append (controls controls' : List BacktestControl) :
    releases (controls ++ controls') = releases controls ++ releases controls' :=
  List.filterMap_append

theorem releases_cons (control : BacktestControl) (rest : List BacktestControl) :
    releases (control :: rest) = control.payload.observation?.toList ++ releases rest := by
  cases hobserved : control.payload.observation? with
  | none => simp [releases, hobserved]
  | some observation => simp [releases, hobserved]

theorem observation?_of_isRelease {payload : ScheduledBacktestControl}
    (h : payload.isRelease = false) :
    payload.observation? = none := by
  cases payload with
  | releaseObservation observation => cases h
  | _ => rfl

/-- Only releases count. -/
theorem releases_filter (controls : List BacktestControl) :
    releases (controls.filter fun control => control.payload.isRelease) = releases controls := by
  induction controls with
  | nil => rfl
  | cons control rest ih =>
    obtain ⟨time, phase, sequence, payload⟩ := control
    cases payload with
    | releaseObservation observation => exact congrArg (observation :: ·) ih
    | _ => exact ih

theorem Adds.filter_eq {P : BacktestControl → Prop} (h : Adds P queue queue')
    (hP : ∀ control, P control → control.payload.isRelease = false) :
    queue'.pending.filter (fun control => control.payload.isRelease) =
      queue.pending.filter fun control => control.payload.isRelease := by
  obtain ⟨added, hperm, hadded⟩ := h.added
  exact queue.sorted.filter_of_perm queue'.sorted hperm fun control hcontrol =>
    hP control (hadded control hcontrol).1

/-- What a control schedules releases nothing. -/
theorem Adds.releases_eq {P : BacktestControl → Prop} (h : Adds P queue queue')
    (hP : ∀ control, P control → control.payload.isRelease = false) :
    releases queue'.pending = releases queue.pending := by
  rw [← releases_filter, h.filter_eq hP, releases_filter]

/-- An observation due no earlier than those that wait is released behind them. -/
theorem ScheduledCoordinator.Releases.releases_eq {observation : BufferedObservation}
    (h : Releases observation queue queue') (hproper : ∀ control ∈ queue.pending, Proper control)
    (hlast : ∀ control ∈ queue.pending, control.payload.isRelease = true →
      control.time ≤ observation.visibleAt) :
    releases queue'.pending = releases queue.pending ++ [observation] := by
  have hfilter := queue.sorted.filter_snoc
    (p := fun control : BacktestControl => control.payload.isRelease) queue'.sorted
    h.pending rfl fun control hmem hrelease => (ControlOrderingKey.lt_iff _ _).2 ?_
  · rw [← releases_filter, hfilter, releases_append, releases_filter]
    rfl
  · rcases (hlast control hmem hrelease).lt_or_eq with hlt | heq
    · exact .inl hlt
    · refine .inr ⟨heq, .inr ⟨?_, queue.fresh control hmem⟩⟩
      have hphase := (hproper control hmem).phase
      obtain ⟨time, phase, sequence, payload⟩ := control
      cases payload with
      | releaseObservation released => exact hphase
      | _ => cases hrelease

/-- What is committed later becomes visible no earlier. -/
theorem addMilliseconds_mono {time time' visibleAt visibleAt' : MatchTime} {milliseconds : U64}
    (hle : time ≤ time') (h : addMilliseconds time milliseconds = .ok visibleAt)
    (h' : addMilliseconds time' milliseconds = .ok visibleAt') :
    visibleAt ≤ visibleAt' := by
  simp only [addMilliseconds, bind_eq_ok, okOr_eq_ok, pure_eq_ok] at h h'
  obtain ⟨microseconds, hmicroseconds, value, hvalue, rfl⟩ := h
  obtain ⟨microseconds', hmicroseconds', value', hvalue', rfl⟩ := h'
  obtain rfl := Option.some.inj (hmicroseconds.symm.trans hmicroseconds')
  have hsum := (Signed.checkedAdd_eq_some _ _ _).1 hvalue
  have hsum' := (Signed.checkedAdd_eq_some _ _ _).1 hvalue'
  have htime : time.unixMicroseconds.val ≤ time'.unixMicroseconds.val :=
    (MatchTime.le_iff _ _).1 hle
  change value.val ≤ value'.val
  omega

end Releases

/-- An event with what is kept of its commit until it becomes visible. -/
structure Recorded where
  event : DomainEvent
  observation : BufferedObservation

section Replays
variable {σ : Type} (setup : ScheduledSetup σ)

/-- The core commits the events one after the other, and each commit is the one its observation
tells of. -/
def Replays : ReplayCore → List Recorded → ReplayCore → Prop
  | core, [], final => final = core
  | core, recorded :: rest, final => ∃ commit next,
    ReplayCore.applyOrdered setup.hash recorded.event core = .ok commit next ∧
      ScheduledCoordinator.Buffered setup recorded.event commit.occurrence recorded.observation ∧
      Replays next rest final

variable {setup} {core final : ReplayCore}

theorem replays_append (log log' : List Recorded) :
    Replays setup core (log ++ log') final ↔
    ∃ mid, Replays setup core log mid ∧ Replays setup mid log' final := by
  induction log generalizing core with
  | nil => simp [Replays]
  | cons recorded rest ih =>
    simp only [List.cons_append, Replays, ih]
    constructor
    · rintro ⟨commit, next, hcommit, hbuffered, mid, hrest, hlog'⟩
      exact ⟨mid, ⟨commit, next, hcommit, hbuffered, hrest⟩, hlog'⟩
    · rintro ⟨mid, ⟨commit, next, hcommit, hbuffered, hrest⟩, hlog'⟩
      exact ⟨commit, next, hcommit, hbuffered, mid, hrest, hlog'⟩

theorem Replays.snoc {log : List Recorded} (h : Replays setup core log final) {recorded : Recorded}
    {commit : CoreCommit} {next : ReplayCore}
    (hcommit : ReplayCore.applyOrdered setup.hash recorded.event final = .ok commit next)
    (hbuffered :
      ScheduledCoordinator.Buffered setup recorded.event commit.occurrence recorded.observation) :
    Replays setup core (log ++ [recorded]) next :=
  (replays_append log [recorded]).2 ⟨final, h, commit, next, hcommit, hbuffered, rfl⟩

theorem Replays.applyAll {log : List Recorded} (h : Replays setup core log final) :
    ReplayCore.applyAll setup.hash (log.map Recorded.event) core = .ok () final := by
  induction log generalizing core with
  | nil =>
    obtain rfl := h
    rfl
  | cons recorded rest ih =>
    obtain ⟨commit, next, hcommit, -, hrest⟩ := h
    exact (bind_of_ok hcommit _).trans (ih hrest)

theorem Replays.canonical {log : List Recorded} (h : Replays setup core log final) :
    ∀ recorded ∈ log, recorded.event.toCanonicalBytes =
      .ok recorded.observation.canonicalEvent := by
  induction log generalizing core with
  | nil => simp
  | cons first rest ih =>
    obtain ⟨commit, next, -, hbuffered, hrest⟩ := h
    exact List.forall_mem_cons.2 ⟨hbuffered.canonical, ih hrest⟩

end Replays

namespace ScheduledCoordinator
variable {σ : Type} {setup : ScheduledSetup σ} {self : ScheduledCoordinator σ}

/-- The release of an observation commits its event to the visible core, or fails before it has. -/
theorem ends_releaseObservation {recorded : Recorded} {commit : CoreCommit} {core : ReplayCore}
    (controlSequence : U64)
    (hcommit : ReplayCore.applyOrdered setup.hash recorded.event self.visibleCore = .ok commit core)
    (hbuffered : Buffered setup recorded.event commit.occurrence recorded.observation) :
    Meets (releaseObservation setup recorded.observation controlSequence self)
      (fun _ after => after.visibleCore = core) (fun e _ => e ≠ .replay .occurrenceDiffers) := by
  cases hdecode : DomainEvent.fromCanonicalBytes recorded.observation.canonicalEvent with
  | error e =>
    have hrun : releaseObservation setup recorded.observation controlSequence self =
        .error _ self :=
      lift_bind_error (e := .replay (.decoding e)) (by rw [hdecode]; rfl) _ _
    rw [hrun]
    exact fun h => by cases h
  | ok event =>
    -- two events with the same canonical bytes are one
    obtain ⟨-, hbytes⟩ := (fromCanonicalBytes_eq_ok event _).1 hdecode
    obtain ⟨rfl, -⟩ :=
      event_prefixFree event recorded.event _ _ [] [] hbytes hbuffered.canonical rfl
    have hcheck : checkOccurrence commit.occurrence recorded.observation = .ok () :=
      (ensure_eq_ok _ _ ()).2
        ⟨hbuffered.ordinal.symm, hbuffered.fingerprint.symm, hbuffered.version.symm⟩
    refine Meets.imp (acts_releaseObservation controlSequence hdecode hcommit hcheck)
      (fun _ _ h => h.visibleCore) ?_
    exact fun e s h => ne_occurrenceDiffers h.2

end ScheduledCoordinator

end Osmium
