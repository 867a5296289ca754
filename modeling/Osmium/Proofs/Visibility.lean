import Osmium.Proofs.ControlOrder
import Osmium.Sanity.Visibility

/-! Visible replay. At any point of a scheduled run the visible core is the authoritative core as it
was after as many commits as observations have been released. -/

namespace Osmium
open Machine Result Stateful

/-- The observations that a trace has released. -/
def releasedOf {σ : Type} (trace : List (ControlStep σ)) : List BufferedObservation :=
  releases (trace.map ControlStep.control)

theorem releasedOf_append {σ : Type} (trace trace' : List (ControlStep σ)) :
    releasedOf (trace ++ trace') = releasedOf trace ++ releasedOf trace' := by
  rw [releasedOf, List.map_append, releases_append]
  rfl

theorem releasedOf_processed {σ : Type} (s : RunState σ) (control : BacktestControl)
    (waiting : List BacktestControl) (coordinator : ScheduledCoordinator σ) :
    releasedOf (s.processed control waiting coordinator).trace =
      releasedOf s.trace ++ control.payload.observation?.toList := by
  rw [RunState.processed, releasedOf_append]
  refine congrArg (releasedOf s.trace ++ ·) ?_
  exact (releases_cons control []).trans (List.append_nil _)

/-- The releases of a run against its commits, from a core they start at. -/
structure VisiblePrefix {σ : Type} (setup : ScheduledSetup σ) (start : ReplayCore)
    (s : RunState σ) : Prop where
  authoritative : ReplayCore.applyAll setup.hash s.committed start = .ok () s.core
  /-- Released is what was committed first, in the order of the commits. -/
  released : ∃ shown rest, s.committed = shown ++ rest ∧ List.Forall₂ (fun event observation =>
    event.toCanonicalBytes = .ok observation.canonicalEvent) shown (releasedOf s.trace)
  visible : ∀ earlier step later, s.trace = earlier ++ step :: later →
    ReplayCore.applyAll setup.hash (s.committed.take (releasedOf earlier).length) start =
      .ok () step.before.visibleCore

section Trailing
variable {σ : Type} {setup : ScheduledSetup σ} {start : ReplayCore} {waiting : List BacktestControl}
  {s : RunState σ}

/-- An event that can be committed next becomes visible no earlier than the control is due. -/
def DueByNow (setup : ScheduledSetup σ) (s : RunState σ) (control : BacktestControl) : Prop :=
  ∀ time visibleAt, (∀ now ∈ s.now, now ≤ time) →
  addMilliseconds time setup.marketDataLatencyMs = .ok visibleAt →
    control.time ≤ visibleAt

/-- The visible core trails the authoritative one by the observations that still wait, popped or
not. -/
structure Trailing (setup : ScheduledSetup σ) (start : ReplayCore) (waiting : List BacktestControl)
    (s : RunState σ) (shown rest : List Recorded) : Prop where
  committed : s.committed = (shown ++ rest).map Recorded.event
  behind : Replays setup start shown s.coordinator.visibleCore
  ahead : Replays setup s.coordinator.visibleCore rest s.core
  released : releasedOf s.trace = shown.map Recorded.observation
  waits : releases (waiting ++ s.queue.pending) = rest.map Recorded.observation
  due : ∀ control ∈ s.queue.pending, control.payload.isRelease = true → DueByNow setup s control
  visible : ∀ earlier step later, s.trace = earlier ++ step :: later →
    ReplayCore.applyAll setup.hash (s.committed.take (releasedOf earlier).length) start =
      .ok () step.before.visibleCore

variable {shown rest : List Recorded}

theorem Trailing.replays (h : Trailing setup start waiting s shown rest) :
    Replays setup start (shown ++ rest) s.core :=
  (replays_append shown rest).2 ⟨_, h.behind, h.ahead⟩

theorem forall₂_canonical {log : List Recorded}
    (h : ∀ recorded ∈ log, recorded.event.toCanonicalBytes =
      .ok recorded.observation.canonicalEvent) :
    List.Forall₂ (fun event observation => event.toCanonicalBytes = .ok observation.canonicalEvent)
      (log.map Recorded.event) (log.map Recorded.observation) := by
  rw [List.forall₂_map_left_iff, List.forall₂_map_right_iff]
  exact List.forall₂_same.2 h

theorem Trailing.visiblePrefix (h : Trailing setup start waiting s shown rest) :
    VisiblePrefix setup start s where
  authoritative := h.committed ▸ h.replays.applyAll
  released :=
    ⟨shown.map Recorded.event, rest.map Recorded.event, by rw [h.committed, List.map_append],
    h.released ▸ forall₂_canonical h.behind.canonical⟩
  visible := h.visible

theorem Trailing.pop (h : Trailing setup start [] s shown rest)
    (predicate : ControlOrderingKey → Bool) :
    Trailing setup start (s.queue.popWhile predicate).1
      (s.withQueue (s.queue.popWhile predicate).2) shown rest where
  committed := h.committed
  behind := h.behind
  ahead := h.ahead
  released := h.released
  waits := RunState.split_popWhile s predicate ▸ h.waits
  due control hmem := h.due control ((List.dropWhile_sublist _).mem hmem)
  visible := h.visible

/-- The trace with one more step keeps what holds before each of its steps, when it holds before the
last. -/
theorem forall_split_snoc {α : Type} {trace : List α} {last : α} {P : List α → α → Prop}
    (h : ∀ earlier step later, trace = earlier ++ step :: later → P earlier step)
    (hlast : P trace last) :
    ∀ earlier step later, trace ++ [last] = earlier ++ step :: later → P earlier step := by
  intro earlier step later hsplit
  rcases List.eq_nil_or_concat later with rfl | ⟨rest, other, rfl⟩
  · obtain ⟨rfl, hstep⟩ := List.append_inj' hsplit rfl
    obtain rfl : last = step := List.singleton_inj.1 hstep
    exact hlast
  · have hsplit' : trace ++ [last] = (earlier ++ step :: rest) ++ [other] := by
      rw [hsplit]
      simp
    exact h earlier step rest (List.append_inj' hsplit' rfl).1

section Process
variable {control : BacktestControl} {coordinator : ScheduledCoordinator σ}

/-- Before a control the visible core stands at the releases that went before it. -/
theorem Trailing.visible_snoc (h : Trailing setup start (control :: waiting) s shown rest) :
    ∀ earlier step later, (s.processed control waiting coordinator).trace =
      earlier ++ step :: later →
      ReplayCore.applyAll setup.hash (s.committed.take (releasedOf earlier).length) start =
        .ok () step.before.visibleCore := by
  refine forall_split_snoc h.visible ?_
  have htake : s.committed.take (releasedOf s.trace).length = shown.map Recorded.event := by
    rw [h.committed, h.released, List.map_append, List.length_map,
      ← List.length_map (f := Recorded.event), List.take_left]
  rw [htake]
  exact h.behind.applyAll

theorem Trailing.due_process (h : Trailing setup start (control :: waiting) s shown rest)
    (hadds : Adds (Ensues control.time) s.queue coordinator.controls) :
    ∀ other ∈ coordinator.controls.pending,
      other.payload.isRelease = true →
      DueByNow setup (s.processed control waiting coordinator) other := by
  intro other hmem hrelease
  have hfiltered : other ∈ coordinator.controls.pending.filter fun control =>
      control.payload.isRelease :=
    List.mem_filter.2 ⟨hmem, hrelease⟩
  rw [hadds.filter_eq fun _ hensues => hensues.noRelease] at hfiltered
  exact h.due other (List.mem_filter.1 hfiltered).1 hrelease

/-- What a control schedules is not released. -/
theorem releases_process (hadds : Adds (Ensues control.time) s.queue coordinator.controls) :
    releases (waiting ++ (s.processed control waiting coordinator).queue.pending) =
      releases (waiting ++ s.queue.pending) := by
  rw [releases_append, releases_append]
  exact congrArg (releases waiting ++ ·) (hadds.releases_eq fun _ hensues => hensues.noRelease)

/-- A control that releases nothing leaves the visible core where it is. -/
theorem Trailing.act (h : Trailing setup start (control :: waiting) s shown rest)
    (hadds : Adds (Ensues control.time) s.queue coordinator.controls)
    (hrelease : control.payload.isRelease = false)
    (hvisible : coordinator.visibleCore = s.coordinator.visibleCore) :
    Trailing setup start waiting (s.processed control waiting coordinator) shown rest := by
  have hnone := observation?_of_isRelease hrelease
  exact {
    committed := h.committed
    behind := hvisible ▸ h.behind
    ahead := hvisible ▸ h.ahead
    released := by rw [releasedOf_processed, hnone, h.released, Option.toList_none, List.append_nil]
    waits := by
      have hwaits := h.waits
      rw [List.cons_append, releases_cons, hnone, Option.toList_none, List.nil_append] at hwaits
      rw [releases_process hadds, hwaits]
    due := h.due_process hadds
    visible := h.visible_snoc }

/-- A release takes the visible core one commit on. -/
theorem Trailing.release (h : Trailing setup start (control :: waiting) s shown rest)
    {observation : BufferedObservation}
    (hadds : Adds (Ensues control.time) s.queue coordinator.controls)
    (hpayload : control.payload = .releaseObservation observation) :
    ∃ recorded rest', rest = recorded :: rest' ∧
      recorded.observation = observation ∧ ∃ commit core,
        ReplayCore.applyOrdered setup.hash recorded.event s.coordinator.visibleCore =
          .ok commit core ∧
          ScheduledCoordinator.Buffered setup recorded.event commit.occurrence
            recorded.observation ∧
            (coordinator.visibleCore = core →
              Trailing setup start waiting (s.processed control waiting coordinator)
                (shown ++ [recorded]) rest') := by
  have hobserved : control.payload.observation? = some observation := by rw [hpayload]; rfl
  have hwaits := h.waits
  rw [List.cons_append, releases_cons, hobserved, Option.toList_some, List.singleton_append]
    at hwaits
  cases rest with
  | nil => cases hwaits
  | cons recorded rest' =>
    obtain ⟨hfirst, hothers⟩ := List.cons.inj hwaits
    obtain ⟨commit, core, hcommit, hbuffered, hrest⟩ := h.ahead
    refine ⟨recorded, rest', rfl, hfirst.symm, commit, core, hcommit, hbuffered, fun hcore => ?_⟩
    exact {
      committed := by rw [List.append_assoc]; exact h.committed
      behind := hcore ▸ h.behind.snoc hcommit hbuffered
      ahead := hcore ▸ hrest
      released := by
        rw [releasedOf_processed, hobserved, h.released, List.map_append, hfirst]
        rfl
      waits := (releases_process hadds).trans hothers
      due := h.due_process hadds
      visible := h.visible_snoc }

/-- A release that fails has still taken its observation. -/
theorem Trailing.visiblePrefix_failed (h : Trailing setup start (control :: waiting) s shown rest)
    (hadds : Adds (Ensues control.time) s.queue coordinator.controls) :
    VisiblePrefix setup start (s.processed control waiting coordinator) := by
  cases hpayload : control.payload with
  | releaseObservation observation =>
    obtain ⟨recorded, rest', rfl, hobservation, commit, core, -, hbuffered, -⟩ :=
      h.release hadds hpayload
    have hcanonical : ∀ other ∈ shown ++ [recorded],
        other.event.toCanonicalBytes = .ok other.observation.canonicalEvent := by
      intro other hmem
      rcases List.mem_append.1 hmem with hold | hnew
      · exact h.behind.canonical other hold
      · rw [List.mem_singleton.1 hnew]
        exact hbuffered.canonical
    refine ⟨h.visiblePrefix.authoritative,
      ⟨(shown ++ [recorded]).map Recorded.event, rest'.map Recorded.event, ?_, ?_⟩, h.visible_snoc⟩
    · rw [← List.map_append, List.append_assoc]
      exact h.committed
    · have hreleased : releasedOf (s.processed control waiting coordinator).trace =
          (shown ++ [recorded]).map Recorded.observation := by
        rw [releasedOf_processed, hpayload, h.released, List.map_append, ← hobservation]
        rfl
      rw [hreleased]
      exact forall₂_canonical hcanonical
  | _ =>
    refine ⟨h.visiblePrefix.authoritative, ?_, h.visible_snoc⟩
    have hsame : releasedOf (s.processed control waiting coordinator).trace =
        releasedOf s.trace := by
      rw [releasedOf_processed, hpayload]
      exact List.append_nil _
    rw [hsame]
    exact h.visiblePrefix.released

theorem Trailing.process (h : Trailing setup start (control :: waiting) s shown rest)
    (hproper : Proper control) :
    Meets (ScheduledCoordinator.processControl setup control s.coordinator)
      (fun _ coordinator => ∃ shown rest,
        Trailing setup start waiting (s.processed control waiting coordinator) shown rest)
      (fun e coordinator => e ≠ .replay .occurrenceDiffers ∧
        VisiblePrefix setup start (s.processed control waiting coordinator)) := by
  have hadds : ∀ coordinator, coordinator =
      stateAfter (ScheduledCoordinator.processControl setup control s.coordinator) →
      Adds (Ensues control.time) s.queue coordinator.controls := by
    rintro coordinator rfl
    exact ScheduledCoordinator.schedules_processControl hproper
  have hends : Meets (ScheduledCoordinator.processControl setup control s.coordinator)
      (fun _ coordinator => Adds (Ensues control.time) s.queue coordinator.controls →
        ∃ shown rest,
          Trailing setup start waiting (s.processed control waiting coordinator) shown rest)
      (fun e _ => e ≠ .replay .occurrenceDiffers) := by
    by_cases hrelease : control.payload.isRelease = true
    · obtain ⟨time, phase, sequence, payload⟩ := control
      cases payload with
      | releaseObservation observation =>
        have hstay : Adds (Ensues time) s.queue s.coordinator.controls := Adds.refl
        obtain ⟨recorded, rest', rfl, rfl, commit, core, hcommit, hbuffered, -⟩ :=
          h.release hstay rfl
        refine Meets.imp (ScheduledCoordinator.ends_releaseObservation sequence hcommit hbuffered)
          ?_ fun _ _ hne => hne
        intro _ coordinator hcore hadds
        obtain ⟨recorded', rest'', heq, -, commit', core', hcommit', -, hkept⟩ :=
          h.release hadds rfl
        obtain ⟨rfl, rfl⟩ := List.cons.inj heq
        rw [hcommit] at hcommit'
        cases hcommit'
        exact ⟨_, _, hkept hcore⟩
      | _ => cases hrelease
    · have hnot : control.payload.isRelease = false := by simpa using hrelease
      refine Meets.imp (ScheduledCoordinator.acts_processControl hproper hnot)
        (fun _ coordinator hacts hadds => ?_)
        fun e _ hacts => ScheduledCoordinator.ne_occurrenceDiffers hacts.2
      exact ⟨shown, rest, h.act hadds hnot hacts.visibleCore⟩
  cases hrun : ScheduledCoordinator.processControl setup control s.coordinator with
  | ok _ coordinator =>
    rw [hrun] at hends
    exact hends (hadds coordinator (by rw [hrun]; rfl))
  | error e coordinator =>
    rw [hrun] at hends
    exact ⟨hends, h.visiblePrefix_failed (hadds coordinator (by rw [hrun]; rfl))⟩

end Process

section Commit
variable {event : DomainEvent} {s' : RunState σ}

theorem VisiblePrefix.released_le (h : VisiblePrefix setup start s)
    {earlier later : List (ControlStep σ)}
    {step : ControlStep σ} (hsplit : s.trace = earlier ++ step :: later) :
    (releasedOf earlier).length ≤ s.committed.length := by
  obtain ⟨shown, rest, hcommitted, hshown⟩ := h.released
  have hlength := hshown.length_eq
  rw [hsplit, releasedOf_append, List.length_append] at hlength
  rw [hcommitted, List.length_append]
  omega

theorem VisiblePrefix.commit (h : VisiblePrefix setup start s) {commit : CoreCommit}
    (hcommits : RunState.Commits setup event commit s s') : VisiblePrefix setup start s' where
  authoritative := by
    rw [hcommits.committed]
    exact ReplayCore.applyAll_snoc h.authoritative hcommits.applied
  released := by
    obtain ⟨shown, rest, hcommitted, hshown⟩ := h.released
    rw [hcommits.trace, hcommits.committed, hcommitted]
    exact ⟨shown, rest ++ [event], List.append_assoc _ _ _, hshown⟩
  visible earlier step later hsplit := by
    rw [hcommits.trace] at hsplit
    rw [hcommits.committed, List.take_append_of_le_length (h.released_le hsplit)]
    exact h.visible earlier step later hsplit

theorem Trailing.commit (h : Trailing setup start [] s shown rest)
    (hproper : RunState.AllProper [] s) {commit : CoreCommit} {observation : BufferedObservation}
    (hbuffers : RunState.Buffers setup event commit observation s s') :
    Trailing setup start [] s' shown (rest ++ [⟨event, observation⟩]) := by
  have hcommits := hbuffers.toCommits
  obtain ⟨between, hacts, hreleases, hafter⟩ := hbuffers.queued
  have hvisible : s'.coordinator.visibleCore = s.coordinator.visibleCore := by
    rw [hafter]
    exact hacts.visibleCore
  have hpending : ∀ control ∈ between.controls.pending, Proper control := by
    intro control hmem
    rcases hacts.controls.mem hmem with hold | ⟨hnew, -⟩
    · exact hproper control hold
    · exact hnew.proper
  -- what waits to be released was there before the commit, and is due by its time
  have hdue : ∀ control ∈ between.controls.pending, control.payload.isRelease = true →
      DueByNow setup s control := by
    intro control hmem hrelease
    rcases hacts.controls.mem hmem with hold | ⟨hnew, -⟩
    · exact h.due control hold hrelease
    · exact absurd hnew.noRelease (by simp [hrelease])
  exact {
    committed := by
      simp only [hcommits.committed, h.committed, List.map_append, List.map_cons, List.map_nil,
        List.append_assoc]
    behind := hvisible ▸ h.behind
    ahead := hvisible ▸ h.ahead.snoc hcommits.applied hbuffers.buffered
    released := hcommits.trace ▸ h.released
    waits := by
      have hsame := hacts.controls.releases_eq fun _ hensues => hensues.noRelease
      have hlast := hreleases.releases_eq hpending fun control hmem hrelease =>
        hdue control hmem hrelease event.matchTime _ hcommits.now_le hbuffers.buffered.visibleAt
      rw [List.nil_append, hlast, hsame, List.map_append]
      exact congrArg (· ++ [observation]) h.waits
    due := fun control hmem hrelease time visibleAt hnow hvisibleAt => by
      have hle : event.matchTime ≤ time := hnow _ hcommits.now
      rcases List.mem_cons.1 (hreleases.pending.mem_iff.1 hmem) with rfl | hold
      · exact addMilliseconds_mono hle hbuffers.buffered.visibleAt hvisibleAt
      · exact hdue control hold hrelease time visibleAt
          (fun now hmem => (hcommits.now_le now hmem).trans hle) hvisibleAt
    visible := (h.visiblePrefix.commit hcommits).visible }

end Commit

theorem trailing_invariant (start : ReplayCore) : RunState.Invariant setup
    (fun _ waiting s => ∃ shown rest, Trailing setup start waiting s shown rest)
    (fun e s => e ≠ .replay .occurrenceDiffers ∧ VisiblePrefix setup start s) where
  widen _ h := h
  pop predicate h _ := by
    obtain ⟨shown, rest, h⟩ := h
    exact ⟨shown, rest, h.pop predicate⟩
  process h hproper := by
    obtain ⟨shown, rest, h⟩ := h
    exact h.process (hproper _ List.mem_cons_self)
  commit h hproper _ hbuffers := by
    obtain ⟨shown, rest, h⟩ := h
    exact ⟨shown, _, h.commit hproper hbuffers⟩
  refused e h hne hfails := by
    obtain ⟨shown, rest, h⟩ := h
    refine ⟨hne, ?_⟩
    rcases hfails.committed with ⟨hcore, hcommitted⟩ | ⟨commit, hcommits⟩
    · obtain ⟨hauthoritative, hreleased, hvisible⟩ := h.visiblePrefix
      exact ⟨hcommitted ▸ hcore ▸ hauthoritative, hcommitted ▸ hfails.trace ▸ hreleased,
        hcommitted ▸ hfails.trace ▸ hvisible⟩
    · exact h.visiblePrefix.commit hcommits
  fault e h hne := by
    obtain ⟨shown, rest, h⟩ := h
    exact ⟨hne, h.visiblePrefix⟩

end Trailing

section Runs
variable {σ : Type} {setup : ScheduledSetup σ} {inputs : ScheduledInputs σ}

theorem trailing_start {states : List MarketState}
    {reducers : List (InstrumentId × MarketStateReducer)}
    {reducerContexts : List (InstrumentId × ReducerContext)}
    {schedules : List (InstrumentId × List ReplayContextWindow)}
    (hcore : ReplayCore.newMultiWithSchedules states reducers reducerContexts schedules =
      .ok inputs.core)
    {start : RunState σ} {streams : List EventStream}
    (h : startRun setup inputs = .ok (start, streams)) :
    Trailing setup inputs.core [] start [] [] := by
  simp only [startRun, bind_eq_ok, mapError_eq_ok, pure_eq_ok, Prod.mk.injEq] at h
  obtain ⟨-, -, strategy, -, -, -, visibleCore, hfork, rfl, -⟩ := h
  obtain rfl := ReplayCore.forkUnstarted_eq hcore hfork
  refine ⟨rfl, rfl, rfl, rfl, rfl, ?_, ?_⟩ <;> simp [ControlTimeQueue.new]

/-- Visible replay is a prefix of committed replay at any point of a run, and all of it when the run
completes; the occurrence of a release is never another than the committed one. -/
theorem visible_replay_prefix (setup : ScheduledSetup σ) (inputs : ScheduledInputs σ) (fuel : ℕ)
    (result : EStateM.Result MultiBacktestError (RunState σ) Unit) (states : List MarketState)
    (reducers : List (InstrumentId × MarketStateReducer))
    (reducerContexts : List (InstrumentId × ReducerContext))
    (schedules : List (InstrumentId × List ReplayContextWindow))
    (hcore : ReplayCore.newMultiWithSchedules states reducers reducerContexts schedules =
      .ok inputs.core)
    (hrun : RunOf setup inputs fuel result) :
    VisiblePrefix setup inputs.core (stateAfter result) ∧
    (∀ s, result = .ok () s → s.coordinator.visibleCore = s.core ∧
      (releasedOf s.trace).length = s.committed.length) ∧
    (∀ s, result ≠ .error (.replay .occurrenceDiffers) s) := by
  have hends := (trailing_invariant inputs.core).run hrun fun start streams h =>
    ⟨[], [], trailing_start hcore h⟩
  cases result with
  | error e s =>
    obtain ⟨hne, hleading⟩ := hends
    refine ⟨hleading, fun _ heq => ?_, fun s' heq => ?_⟩
    · cases heq
    · cases heq
      exact hne rfl
  | ok u s =>
    obtain ⟨⟨shown, rest, h⟩, hempty⟩ := hends
    refine ⟨h.visiblePrefix, ?_, fun _ heq => (by cases heq)⟩
    rintro s' ⟨⟩
    -- nothing waits to be released any more
    have hwaits := h.waits
    rw [hempty] at hwaits
    obtain rfl : rest = [] := List.map_eq_nil_iff.1 hwaits.symm
    refine ⟨h.ahead.symm, ?_⟩
    rw [h.released, h.committed, List.append_nil, List.length_map, List.length_map]

/-- Two quotes become visible after they have been committed. -/
theorem quotes_replayed_visibly :
    ∃ (setup : ScheduledSetup Unit) (inputs : ScheduledInputs Unit) (final : RunState Unit),
    RunOf setup inputs 20 (.ok () final) ∧ (releasedOf final.trace).length = 2 ∧
      final.coordinator.visibleCore = final.core ∧ VisiblePrefix setup inputs.core final := by
  obtain ⟨setup, inputs, final, hsample, hrun, hfinal⟩ := exists_of_scheduledState 20
    (sampleScheduled (reactiveStrategy [sampleInstrument] fun _ sink => .ok sink) 100
      [quoteAfter 0, quoteAfter 1000])
    (p := fun _ final => decide ((releasedOf final.trace).length = 2)) (by decide +kernel)
  simp only [sampleScheduled, Option.bind_eq_bind, Option.bind_eq_some_iff, Option.pure_def,
    Option.some.injEq] at hsample
  obtain ⟨core, hcore, _, -, _, -, hinputs⟩ := hsample
  cases hinputs
  have hnew := (toOption_eq_some _ _).1 hcore
  unfold twoDayCore at hnew
  obtain ⟨hleading, hcompleted, -⟩ := visible_replay_prefix _ _ 20 _ _ _ _ _ hnew hrun
  exact ⟨_, _, final, hrun, of_decide_eq_true hfinal, (hcompleted final rfl).1, hleading⟩

end Runs

end Osmium
