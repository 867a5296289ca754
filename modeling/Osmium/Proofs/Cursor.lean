import Osmium.Proofs.Replay
import Osmium.Sanity.Cursor

/-! The paged download over all runs of calls, saves and crashes. -/

namespace Osmium
open Machine Bytes Result Stateful Files CursorStateMachine

section Protocol
variable {hash : List UInt8 → Digest} {fromSlice : List UInt8 → Except Text Json}

theorem ordinals_range {checkpoint : CursorCheckpoint} {query : TeralionQuery}
    {history : List CommittedPage}
    (h : checkpoint.Explains hash query history) (hlength : history.length ≤ 2 ^ 32) :
    history.map (fun page => page.ordinal.val) = List.range history.length := by
  apply List.ext_getElem?
  intro index
  by_cases hindex : index < history.length
  · rw [List.getElem?_map, List.getElem?_range hindex, List.getElem?_eq_getElem hindex,
      Option.map_some,
      h.ordinals index _ (List.getElem?_eq_getElem hindex), Unsigned.val_wrap (by omega)]
  · rw [List.getElem?_eq_none (by rw [List.length_map]; omega),
      List.getElem?_eq_none (by rw [List.length_range]; omega)]

/-- Of the calls only a commit with the receipt of the pending page changes the checkpoint. -/
theorem checkpoint_changes {self : Download} {action : DownloadStep}
    (h : (self.step hash fromSlice action).machine.checkpoint ≠ self.machine.checkpoint) :
    action = .crash ∨ ∃ receipt pending, action = .commitPage receipt ∧
    self.machine.state = .awaitingDurableCommit ∧
      self.machine.pending = some pending ∧
      receipt = ⟨pending.ordinal, pending.bodyFingerprint⟩ := by
  cases action with
  | requestNext =>
    obtain ⟨state, -, hafter⟩ := requestNext_after hash self.machine
    rw [Download.step, hafter] at h
    exact absurd rfl h
  | requestFailed request =>
    obtain ⟨state, -, hafter⟩ := requestFailed_after hash request self.machine
    rw [Download.step, hafter] at h
    exact absurd rfl h
  | acceptResponse request body =>
    rcases acceptResponse_after hash fromSlice request body self.machine with
      ⟨e, state, -, hafter⟩ | ⟨pending, -, hafter⟩
    · rw [Download.step, hafter] at h
      exact absurd rfl h
    · rw [Download.step, hafter] at h
      exact absurd rfl h
  | commitPage receipt =>
    rcases commitPage_after hash receipt self.machine with
      ⟨e, hafter⟩ | ⟨pending, hstate, hpending, hreceipt, -⟩
    · rw [Download.step, hafter] at h
      exact absurd rfl h
    · exact Or.inr ⟨receipt, pending, rfl, hstate, hpending, hreceipt⟩
  | save => exact absurd rfl h
  | crash => exact Or.inl rfl

/-- A machine that has finished stays so until it is shown a request the checkpoint does not ask
for. -/
theorem terminal_stays {self : Download} {action : DownloadStep}
    (hterminal : self.machine.state = .terminal)
    (hcrash : action ≠ .crash) : (self.step hash fromSlice action).machine.state = .terminal ∨
      ((self.step hash fromSlice action).machine.state = .invalid ∧
        ∃ request, Drifts hash self.machine.checkpoint request ∧
        (action = .requestFailed request ∨ ∃ body, action = .acceptResponse request body)) := by
  have hmoves : ∀ state, StateMove hash self.machine action state → state = .terminal ∨
      (state = .invalid ∧
      ∃ request, Drifts hash self.machine.checkpoint request ∧
        (action = .requestFailed request ∨ ∃ body, action = .acceptResponse request body)) := by
    intro state hmove
    cases hmove with
    | stay => exact Or.inl hterminal
    | ask hready => rw [hterminal] at hready; cases hready
    | retry request hflight => rw [hterminal] at hflight; cases hflight
    | driftFailed request hdrift => exact Or.inr ⟨rfl, request, hdrift, Or.inl rfl⟩
    | driftAccept request body hdrift => exact Or.inr ⟨rfl, request, hdrift, Or.inr ⟨body, rfl⟩⟩
    | reject request body hflight => rw [hterminal] at hflight; cases hflight
  cases action with
  | requestNext =>
    obtain ⟨state, hmove, hafter⟩ := requestNext_after hash self.machine
    rw [Download.step, hafter]
    exact hmoves state hmove
  | requestFailed request =>
    obtain ⟨state, hmove, hafter⟩ := requestFailed_after hash request self.machine
    rw [Download.step, hafter]
    exact hmoves state hmove
  | acceptResponse request body =>
    rcases acceptResponse_after hash fromSlice request body self.machine with
      ⟨e, state, hmove, hafter⟩ | ⟨pending, haccepts, -⟩
    · rw [Download.step, hafter]
      exact hmoves state hmove
    · rw [haccepts.flight] at hterminal
      cases hterminal
  | commitPage receipt =>
    rcases commitPage_after hash receipt self.machine with ⟨e, hafter⟩ | ⟨pending, hstate, -⟩
    · rw [Download.step, hafter]
      exact Or.inl hterminal
    · rw [hstate] at hterminal
      cases hterminal
  | save => exact Or.inl hterminal
  | crash => exact absurd rfl hcrash

end Protocol

/-- The paged download from a new machine, over all runs of calls with any arguments, of saves and
of crashes. The pages committed are numbered in order, no body comes twice and no cursor is asked
with twice. The checkpoint changes only on a commit that names the pending page, or back to the
saved one on a crash. A machine is finished when the last page gave no cursor, until it is shown a
request its checkpoint does not ask for. A checkpoint is loaded as it was saved, and the machine
resumed from the checkpoint of a machine that is ready or finished is that machine. -/
theorem download_protocol (hash : List UInt8 → Digest) (fromSlice : List UInt8 → Except Text Json)
    (query : TeralionQuery)
    (machine : CursorStateMachine) (hnew : CursorStateMachine.new hash query = .ok machine)
    (steps : List DownloadStep) :
    let download := Download.run hash fromSlice ⟨machine, none, [], none⟩ steps
    (download.history.length ≤ 2 ^ 32 →
      download.history.map (fun page => page.ordinal.val) = List.range download.history.length) ∧
    (download.history.map CommittedPage.body).Nodup ∧
    (download.history.map CommittedPage.requestCursor).Nodup ∧
    (∀ action, (download.step hash fromSlice action).machine.checkpoint ≠
      download.machine.checkpoint →
      action = .crash ∨ ∃ receipt pending, action = .commitPage receipt ∧
        download.machine.state = .awaitingDurableCommit ∧ download.machine.pending = some pending ∧
        receipt = ⟨pending.ordinal, pending.bodyFingerprint⟩) ∧
    (download.machine.state = .terminal ↔ download.machine.state ≠ .invalid ∧
      ∃ page, download.history.getLast? = some page ∧ page.nextCursor = none) ∧
    (∀ action, download.machine.state = .terminal → action ≠ .crash →
      (download.step hash fromSlice action).machine.state = .terminal ∨
      ((download.step hash fromSlice action).machine.state = .invalid ∧
        ∃ request, Drifts hash download.machine.checkpoint request ∧
          (action = .requestFailed request ∨ ∃ body, action = .acceptResponse request body))) ∧
    (∀ toVecPretty path disk disk', fromSlice (toVecPretty download.machine.checkpoint.toJson) =
        .ok download.machine.checkpoint.toJson →
        download.machine.checkpoint.save toVecPretty path disk = .ok () disk' →
        CursorCheckpoint.load fromSlice disk'.contents path = .ok download.machine.checkpoint) ∧
    (download.machine.state = .ready ∨ download.machine.state = .terminal →
      CursorStateMachine.resume hash query download.machine.checkpoint = .ok download.machine ∧
      ∀ other resumed, CursorStateMachine.resume hash other download.machine.checkpoint =
        .ok resumed →
        (hash other.canonicalBytes = hash query.canonicalBytes →
          other.canonicalBytes = query.canonicalBytes) →
        other.canonicalBytes = query.canonicalBytes ∧
        resumed = { download.machine with query := other }) ∧
    (∀ checkpoint history, download.saved = some (checkpoint, history) → ∀ others,
      let uninterrupted := Download.run hash fromSlice ⟨machine, none, [], none⟩ others
      uninterrupted.machine.checkpoint = checkpoint →
      uninterrupted.machine.state = .ready ∨ uninterrupted.machine.state = .terminal →
      (download.step hash fromSlice .crash).machine = uninterrupted.machine) := by
  have hpaged : query.isPaged = true := by
    simp only [CursorStateMachine.new, bind_eq_ok, ensure_eq_ok] at hnew
    exact hnew.choose_spec.1
  have hmachine := (new_paged hash hpaged).symm.trans hnew
  rw [Except.ok.injEq] at hmachine
  subst hmachine
  have hstart : Download.Sound hash
      ⟨⟨query, ⟨query.identity hash, 0, none, ∅, ∅, false⟩, .ready, none⟩, none, [], none⟩ :=
    Download.Sound.idle_machine none hpaged (explains_empty hash query) (by simp)
  have hall := fun others => hstart.run fromSlice others
  intro download
  obtain ⟨hsound, hquery⟩ : download.Sound hash ∧ download.machine.query = query := hall steps
  have hlast : (∃ page, download.history.getLast? = some page ∧ page.nextCursor = none) ↔
      download.machine.checkpoint.terminal = true := by
    rw [hsound.explains.terminal, Option.any_eq_true]
    simp only [Option.isNone_iff_eq_none]
  refine ⟨ordinals_range hsound.explains, hsound.explains.bodies, hsound.explains.cursors,
    fun action => checkpoint_changes, ?_, fun action => terminal_stays, ?_, ?_, ?_⟩
  · rw [hlast]
    refine ⟨fun hdone => ⟨by rw [hdone]; decide, hsound.finished hdone⟩, fun ⟨hvalid, hdone⟩ => ?_⟩
    by_contra hstate
    exact Bool.false_ne_true ((hsound.running hstate hvalid).symm.trans hdone)
  · exact fun toVecPretty path disk disk' hjson hsave => load_of_save hjson hsave
  · intro hstate
    have heq := hsound.eq_resumed hstate
    refine ⟨?_, fun other resumed hresume hcollision => ?_⟩
    · have hresume := resume_explained hsound.explains
      rw [← heq, hquery] at hresume
      exact hresume
    · simp only [CursorStateMachine.resume, bind_eq_ok, ensure_eq_ok, pure_eq_ok] at hresume
      obtain ⟨_, hidentity, rfl⟩ := hresume
      rw [hsound.explains.identity, hquery] at hidentity
      refine ⟨hcollision hidentity, ?_⟩
      rw [CursorStateMachine.mk.injEq]
      exact ⟨rfl, rfl, congrArg CursorStateMachine.state heq.symm,
        congrArg CursorStateMachine.pending heq.symm⟩
  · intro checkpoint history hsaved others uninterrupted hcheckpoint hstate
    obtain ⟨hother, hotherQuery⟩ :
        uninterrupted.Sound hash ∧ uninterrupted.machine.query = query := hall others
    rw [hother.eq_resumed hstate, hcheckpoint, hotherQuery, ← hquery]
    simp only [Download.step, Download.restart, hsaved,
      resume_explained (hsound.saved checkpoint history hsaved)]

section Example

/-- 2026-07-27T01:00:00Z -/
def sampleOpening : ArchiveTimestamp where
  exactText :=
    ⟨[50, 48, 50, 54, 45, 48, 55, 45, 50, 55, 84, 48, 49, 58, 48, 48, 58, 48, 48, 90], by decide⟩
  utc := sampleTime 1785114000000000
  parsed := by decide +kernel

/-- 2026-07-27T05:00:00Z -/
def sampleClosing : ArchiveTimestamp where
  exactText :=
    ⟨[50, 48, 50, 54, 45, 48, 55, 45, 50, 55, 84, 48, 53, 58, 48, 48, 58, 48, 48, 90], by decide⟩
  utc := sampleTime 1785128400000000
  parsed := by decide +kernel

/-- All quotes of an instrument on one morning. -/
def sampleQuery : TeralionQuery :=
  .ticks sampleInstrument sampleOpening sampleClosing [.quote] (Unsigned.wrap 16 5000) none

/-- {"items":[],"next_cursor":null} -/
def emptyPage : List UInt8 :=
  [123, 34, 105, 116, 101, 109, 115, 34, 58, 91, 93, 44, 34, 110, 101, 120, 116, 95, 99,
    117, 114, 115,
  111, 114, 34, 58, 110, 117, 108, 108, 125]

/-- {"items":[],"next_cursor":"b"} -/
def cursorPage : List UInt8 :=
  [123, 34, 105, 116, 101, 109, 115, 34, 58, 91, 93, 44, 34, 110, 101, 120, 116, 95, 99, 117, 114,
  115, 111, 114, 34, 58, 34, 98, 34, 125]

def sampleCursor : TeralionCursor := ⟨⟨[98], Eq.refl true⟩, rfl⟩

/-- The parser on the pages above. -/
def sampleFromSlice (bytes : List UInt8) : Except Text Json :=
  if bytes = emptyPage then .ok (.object [(itemsName, .array []), (nextCursorName, .null)])
  else if bytes = cursorPage then
    .ok (.object [(itemsName, .array []), (nextCursorName, .string sampleCursor.value)])
  else .error itemsName

def sampleMachine : CursorStateMachine :=
  ⟨sampleQuery, ⟨sampleQuery.identity sampleHash, 0, none, ∅, ∅, false⟩, .ready, none⟩

/-- The only page is asked for, accepted and committed. -/
def onePage : List DownloadStep :=
  [.requestNext, .acceptResponse ⟨sampleQuery, sampleQuery.identity sampleHash, none⟩ emptyPage,
    .commitPage ⟨0, sampleHash emptyPage⟩]

/-- A finished machine that is told of the failure of another query's request is finished no more.
-/
theorem drift_unfinishes :
    let download :=
      Download.run sampleHash sampleFromSlice ⟨sampleMachine, none, [], none⟩ (onePage ++
      [.requestFailed ⟨.symbolRange sampleInstrument,
        (TeralionQuery.symbolRange sampleInstrument).identity sampleHash, none⟩])
    ¬ (download.machine.state = .terminal ↔
      ∃ page, download.history.getLast? = some page ∧ page.nextCursor = none) := by
  intro download hiff
  have hstate : download.machine.state = .invalid := by decide +kernel
  have hlast : download.history.getLast?.map CommittedPage.nextCursor = some none := by
    decide +kernel
  obtain ⟨page, hpage, hcursor⟩ := Option.map_eq_some_iff.1 hlast
  have hterminal := hiff.2 ⟨page, hpage, hcursor⟩
  rw [hstate] at hterminal
  cases hterminal

/-- A page with a cursor, then the last page. -/
def pageCommitted : List DownloadStep :=
  [.requestNext, .acceptResponse ⟨sampleQuery, sampleQuery.identity sampleHash, none⟩ cursorPage,
    .commitPage ⟨0, sampleHash cursorPage⟩]

def lastAccepted : List DownloadStep :=
  [.requestNext,
    .acceptResponse ⟨sampleQuery, sampleQuery.identity sampleHash, some sampleCursor⟩ emptyPage]

/-- Between its acceptance and its commit a crash takes the last page back, and it is asked for
again. -/
def twoPages : List DownloadStep :=
  pageCommitted ++ [.save] ++ lastAccepted ++ [.crash] ++ lastAccepted ++
    [.commitPage ⟨Unsigned.wrap 32 1, sampleHash emptyPage⟩]

theorem acceptResponse_saved (self : Download) (request : TeralionRequest) (body : List UInt8) :
    (self.step sampleHash sampleFromSlice (.acceptResponse request body)).saved = self.saved := by
  rw [Download.step]
  cases acceptResponse sampleHash sampleFromSlice request body self.machine with
  | ok pending machine => rfl
  | error e machine => rfl

theorem lastAccepted_saved (self : Download) (steps : List DownloadStep) :
    (self.run sampleHash sampleFromSlice (steps ++ [.save] ++ lastAccepted)).saved =
      some ((self.run sampleHash sampleFromSlice steps).machine.checkpoint,
        (self.run sampleHash sampleFromSlice steps).history) := by
  rw [Download.run, List.foldl_append, List.foldl_append, lastAccepted, List.foldl_cons,
    List.foldl_cons, List.foldl_nil, acceptResponse_saved]
  rfl

/-- The crash restores the machine that was saved, and both pages are committed once. -/
theorem two_pages_downloaded : CursorStateMachine.new sampleHash sampleQuery = .ok sampleMachine ∧
    (Download.run sampleHash sampleFromSlice ⟨sampleMachine, none, [], none⟩
        (pageCommitted ++ [.save] ++ lastAccepted ++ [.crash])).machine =
      (Download.run sampleHash sampleFromSlice
        ⟨sampleMachine, none, [], none⟩ pageCommitted).machine ∧
    (Download.run sampleHash sampleFromSlice
      ⟨sampleMachine, none, [], none⟩ twoPages).machine.state = .terminal ∧
    (Download.run sampleHash sampleFromSlice ⟨sampleMachine, none, [], none⟩ twoPages).history.map
      (fun page => page.ordinal.val) = [0, 1] := by
  have hnew : CursorStateMachine.new sampleHash sampleQuery = .ok sampleMachine := rfl
  have hprotocol := download_protocol sampleHash sampleFromSlice sampleQuery sampleMachine hnew
  refine ⟨hnew, ?_, ?_⟩
  · have hready :
        (Download.run sampleHash sampleFromSlice
          ⟨sampleMachine, none, [], none⟩ pageCommitted).machine.state =
        .ready := by decide +kernel
    have hcrash := (hprotocol (pageCommitted ++ [.save] ++ lastAccepted)).2.2.2.2.2.2.2.2
    have hrestarted :=
      hcrash _ _ (lastAccepted_saved _ pageCommitted) pageCommitted (Eq.refl _) (Or.inl hready)
    rw [Download.run, List.foldl_append, List.foldl_cons, List.foldl_nil]
    exact hrestarted
  · have hdownload := hprotocol twoPages
    have hfacts :
        (Download.run sampleHash sampleFromSlice
          ⟨sampleMachine, none, [], none⟩ twoPages).history.length = 2 ∧
        (Download.run sampleHash sampleFromSlice
          ⟨sampleMachine, none, [], none⟩ twoPages).machine.state ≠ .invalid ∧
        (Download.run sampleHash sampleFromSlice
          ⟨sampleMachine, none, [], none⟩ twoPages).history.getLast?.map
          CommittedPage.nextCursor = some none := by decide +kernel
    revert hdownload hfacts
    generalize Download.run sampleHash sampleFromSlice
      ⟨sampleMachine, none, [], none⟩ twoPages = download
    rintro ⟨hordinals, -, -, -, hterminal, -⟩ ⟨hlength, hvalid, hlast⟩
    obtain ⟨page, hpage, hcursor⟩ := Option.map_eq_some_iff.1 hlast
    refine ⟨hterminal.2 ⟨hvalid, page, hpage, hcursor⟩, ?_⟩
    rw [hordinals (by omega), hlength]
    rfl

end Example

end Osmium
