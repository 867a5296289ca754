import Osmium.Spec.Cursor

/-! Downloads with crashes: the cursor machine under any calls, with the checkpoint that was saved
last, and what each step can do to it. -/

namespace Osmium
open Machine Bytes Result Stateful Files CursorStateMachine

structure CommittedPage where
  ordinal : U32
  body : List UInt8
  requestCursor : Option TeralionCursor
  nextCursor : Option TeralionCursor

/-- A machine with the pages behind its checkpoint, and the same of the checkpoint on disk. The
pages and the cursor the pending page was asked with are not in the source. -/
structure Download where
  machine : CursorStateMachine
  requestCursor : Option TeralionCursor
  history : List CommittedPage
  saved : Option (CursorCheckpoint × List CommittedPage)

inductive DownloadStep
  | requestNext
  | requestFailed (request : TeralionRequest)
  | acceptResponse (request : TeralionRequest) (body : List UInt8)
  | commitPage (receipt : PageCommitReceipt)
  | save
  | crash

namespace Download
variable (hash : List UInt8 → Digest) (fromSlice : List UInt8 → Except Text Json)

/-- A crash takes back what was committed since the last save. Without a checkpoint on disk the
download starts anew. -/
def restart (self : Download) : Download :=
  let (resumed, history) : Except CursorError CursorStateMachine × List CommittedPage :=
    match self.saved with
    | some (checkpoint, history) => (resume hash self.machine.query checkpoint, history)
    | none => (new hash self.machine.query, [])
  match resumed with
  | .ok machine => { self with machine := machine, requestCursor := none, history := history }
  | .error _ => self

def step (self : Download) : DownloadStep → Download
  | .requestNext => { self with machine := stateAfter (requestNext self.machine) }
  | .requestFailed request =>
    { self with machine := stateAfter (requestFailed hash request self.machine) }
  | .acceptResponse request body =>
    match acceptResponse hash fromSlice request body self.machine with
    | .ok _ machine => { self with machine := machine, requestCursor := request.cursor }
    | .error _ machine => { self with machine := machine }
  | .commitPage receipt =>
    match commitPage hash receipt self.machine with
    | .ok _ machine => { self with
        machine := machine
        history := self.history ++ (self.machine.pending.map fun pending =>
          ⟨pending.ordinal, pending.body, self.requestCursor, pending.nextCursor⟩).toList }
    | .error _ machine => { self with machine := machine }
  | .save => { self with saved := some (self.machine.checkpoint, self.history) }
  | .crash => self.restart hash

def run (self : Download) (steps : List DownloadStep) : Download :=
  steps.foldl (step hash fromSlice) self

end Download

section Calls

/-- A request the checkpoint does not ask for. -/
def Drifts (hash : List UInt8 → Digest) (checkpoint : CursorCheckpoint)
    (request : TeralionRequest) : Prop :=
  request.queryIdentity ≠ checkpoint.queryIdentity ∨
  request.query.identity hash ≠ checkpoint.queryIdentity ∨
    request.cursor ≠ checkpoint.nextCursor

theorem validateRequest_cases (hash : List UInt8 → Digest) (request : TeralionRequest)
    (machine : CursorStateMachine) :
    (¬ Drifts hash machine.checkpoint request ∧
      validateRequest hash request machine = .ok () machine) ∨
    (Drifts hash machine.checkpoint request ∧
      ∃ e, validateRequest hash request machine = .error e { machine with state := .invalid }) := by
  simp only [validateRequest, Drifts]
  by_cases hquery : request.queryIdentity ≠ machine.checkpoint.queryIdentity ∨
      request.query.identity hash ≠ machine.checkpoint.queryIdentity
  · refine Or.inr ⟨by tauto, .queryDrift, ?_⟩
    rw [get_bind, if_pos hquery]
    rfl
  by_cases hcursor : request.cursor ≠ machine.checkpoint.nextCursor
  · refine Or.inr ⟨by tauto, .cursorDrift, ?_⟩
    rw [get_bind, if_neg hquery, if_pos hcursor]
    rfl
  · refine Or.inl ⟨by tauto, ?_⟩
    rw [get_bind, if_neg hquery, if_neg hcursor]
    rfl

/-- The state changes of calls that neither accept nor commit a page. -/
inductive StateMove (hash : List UInt8 → Digest) (machine : CursorStateMachine) :
    DownloadStep → CursorState → Prop
  | stay (step : DownloadStep) : StateMove hash machine step machine.state
  | ask (hready : machine.state = .ready) : StateMove hash machine .requestNext .requestInFlight
  | retry (request : TeralionRequest) (hflight : machine.state = .requestInFlight) :
      StateMove hash machine (.requestFailed request) .ready
  | driftFailed (request : TeralionRequest) (hdrift : Drifts hash machine.checkpoint request) :
      StateMove hash machine (.requestFailed request) .invalid
  | driftAccept (request : TeralionRequest) (body : List UInt8)
      (hdrift : Drifts hash machine.checkpoint request) :
      StateMove hash machine (.acceptResponse request body) .invalid
  | reject (request : TeralionRequest) (body : List UInt8)
      (hflight : machine.state = .requestInFlight) :
      StateMove hash machine (.acceptResponse request body) .invalid

/-- What an accepted response leaves pending. -/
structure AcceptsPage (hash : List UInt8 → Digest) (machine : CursorStateMachine)
    (request : TeralionRequest) (body : List UInt8) (pending : PendingPage) : Prop where
  asked : ¬ Drifts hash machine.checkpoint request
  flight : machine.state = .requestInFlight
  ordinal : pending.ordinal = machine.checkpoint.committedPages
  content : pending.body = body
  fingerprint : pending.bodyFingerprint = hash body
  unseen : pending.bodyFingerprint ∉ machine.checkpoint.seenPageFingerprints
  advances : ∀ cursor, pending.nextCursor = some cursor →
    request.cursor ≠ some cursor ∧ cursor.digest hash ∉ machine.checkpoint.seenCursorDigests

theorem requestNext_after (hash : List UInt8 → Digest) (machine : CursorStateMachine) :
    ∃ state, StateMove hash machine .requestNext state ∧
    stateAfter (requestNext machine) = { machine with state := state } := by
  by_cases hready : machine.state = .ready
  · refine ⟨_, .ask hready, ?_⟩
    rw [requestNext, get_bind, lift_bind (a := ()) (by simp [ensure, hready])]
    rfl
  · refine ⟨_, .stay _, ?_⟩
    rw [requestNext, get_bind, lift_bind_error (e := .invalidTransition machine.state .requestNext)
      (by simp [ensure, hready])]
    rfl

theorem requestFailed_after (hash : List UInt8 → Digest) (request : TeralionRequest)
    (machine : CursorStateMachine) :
    ∃ state, StateMove hash machine (.requestFailed request) state ∧
      stateAfter (requestFailed hash request machine) = { machine with state := state } := by
  rcases validateRequest_cases hash request machine with ⟨-, hok⟩ | ⟨hdrift, e, herror⟩
  · by_cases hflight : machine.state = .requestInFlight
    · refine ⟨_, .retry request hflight, ?_⟩
      rw [requestFailed, bind_of_ok hok, get_bind, lift_bind (a := ()) (by simp [ensure, hflight])]
      rfl
    · refine ⟨_, .stay _, ?_⟩
      rw [requestFailed, bind_of_ok hok, get_bind,
        lift_bind_error (e := .invalidTransition machine.state .requestFailed)
          (by simp [ensure, hflight])]
      rfl
  · refine ⟨_, .driftFailed request hdrift, ?_⟩
    rw [requestFailed, bind_of_error herror]
    rfl

theorem acceptResponse_after (hash : List UInt8 → Digest)
    (fromSlice : List UInt8 → Except Text Json)
    (request : TeralionRequest) (body : List UInt8) (machine : CursorStateMachine) :
    (∃ e state, StateMove hash machine (.acceptResponse request body) state ∧
      acceptResponse hash fromSlice request body machine =
        .error e { machine with state := state }) ∨
    ∃ pending, AcceptsPage hash machine request body pending ∧
    acceptResponse hash fromSlice request body machine =
      .ok pending { machine with pending := some pending, state := .awaitingDurableCommit } := by
  rcases validateRequest_cases hash request machine with ⟨hasked, hok⟩ | ⟨hdrift, e, herror⟩
  · rw [acceptResponse, bind_of_ok hok, get_bind]
    by_cases hflight : machine.state = .requestInFlight
    swap
    · refine Or.inl ⟨.invalidTransition machine.state .acceptResponse, _, .stay _, ?_⟩
      exact lift_bind_error (by simp only [ensure, hflight, if_false]) _ _
    rw [lift_bind (a := ()) (by simp [ensure, hflight])]
    rcases hparsed : parsePage fromSlice machine.query body with e | parsed
    · exact Or.inl ⟨e, _, .stay _, lift_bind_error rfl _ _⟩
    rw [lift_bind (a := parsed) rfl]
    by_cases hseen : machine.checkpoint.seenPageFingerprints.contains (hash body) = true
    · refine Or.inl ⟨.duplicatePage, _, .reject request body hflight, ?_⟩
      rw [if_pos hseen]
      rfl
    rw [if_neg hseen]
    by_cases hrevisits : parsed.nextCursor.any (machine.revisits hash request) = true
    · refine Or.inl ⟨.cursorDidNotAdvance, _, .reject request body hflight, ?_⟩
      rw [if_pos hrevisits]
      rfl
    rw [if_neg hrevisits]
    refine Or.inr ⟨_, ⟨hasked, hflight, rfl, rfl, rfl, hseen, ?_⟩, rfl⟩
    intro cursor hcursor
    rw [show parsed.nextCursor = some cursor from
      hcursor, Option.any_some, revisits, Bool.or_eq_true, not_or, decide_eq_true_eq] at hrevisits
    exact hrevisits
  · refine Or.inl ⟨e, _, .driftAccept request body hdrift, ?_⟩
    rw [acceptResponse, bind_of_error herror]

theorem commitPage_after (hash : List UInt8 → Digest) (receipt : PageCommitReceipt)
    (machine : CursorStateMachine) :
    (∃ e, commitPage hash receipt machine = .error e machine) ∨
    ∃ pending, machine.state = .awaitingDurableCommit ∧ machine.pending = some pending ∧
      receipt = ⟨pending.ordinal, pending.bodyFingerprint⟩ ∧
      commitPage hash receipt machine = .ok () { machine with
        checkpoint := CursorCheckpoint.advance hash machine.checkpoint pending
        state := if pending.nextCursor.isNone = true then .terminal else .ready
        pending := none } := by
  rw [commitPage, get_bind]
  by_cases hstate : machine.state = .awaitingDurableCommit
  swap
  · exact Or.inl ⟨.invalidTransition machine.state .commitPage,
      lift_bind_error (by simp only [ensure, hstate, if_false]) _ _⟩
  rw [lift_bind (a := ()) (by simp [ensure, hstate])]
  rcases hpending : machine.pending with _ | pending
  · exact Or.inl ⟨.panicked, lift_bind_error rfl _ _⟩
  rw [lift_bind (x := okOr CursorError.panicked (some pending)) (a := pending) rfl]
  by_cases hreceipt : receipt.ordinal = pending.ordinal ∧
    receipt.bodyFingerprint = pending.bodyFingerprint
  swap
  · exact Or.inl
      ⟨.commitReceiptMismatch, lift_bind_error (by simp only [ensure, hreceipt, if_false]) _ _⟩
  rw [lift_bind (a := ()) (by simp [ensure, hreceipt])]
  refine Or.inr ⟨pending, hstate, rfl, ?_, rfl⟩
  rw [← hreceipt.1, ← hreceipt.2]

end Calls

section Invariant
variable (hash : List UInt8 → Digest) (fromSlice : List UInt8 → Except Text Json)

/-- A checkpoint says what its pages did: they were asked for one after the other, each with the
cursor the page before it gave, and no body and no cursor came twice. -/
structure CursorCheckpoint.Explains (checkpoint : CursorCheckpoint) (query : TeralionQuery)
    (history : List CommittedPage) :
    Prop where
  identity : checkpoint.queryIdentity = query.identity hash
  count : checkpoint.committedPages = Unsigned.wrap 32 history.length
  ordinals : ∀ index page, history[index]? = some page → page.ordinal = Unsigned.wrap 32 index
  bodies : (history.map CommittedPage.body).Nodup
  chain : history.map CommittedPage.requestCursor ++ [checkpoint.nextCursor] =
      none :: history.map CommittedPage.nextCursor
  cursors : (history.map CommittedPage.requestCursor).Nodup
  fresh : checkpoint.terminal = false →
      checkpoint.nextCursor ∉ history.map CommittedPage.requestCursor
  terminal : checkpoint.terminal = (history.getLast?.any fun page => page.nextCursor.isNone)
  seenPages : ∀ page ∈ history, hash page.body ∈ checkpoint.seenPageFingerprints
  seenCursors : ∀ page ∈ history, ∀ cursor, page.nextCursor = some cursor →
      cursor.digest hash ∈ checkpoint.seenCursorDigests

/-- The machine is in step with its checkpoint. -/
structure Download.Sound (download : Download) : Prop where
  paged : download.machine.query.isPaged = true
  explains : download.machine.checkpoint.Explains hash download.machine.query download.history
  saved : ∀ checkpoint history, download.saved = some (checkpoint, history) →
    checkpoint.Explains hash download.machine.query history
  running : download.machine.state ≠ .terminal → download.machine.state ≠ .invalid →
      download.machine.checkpoint.terminal = false
  finished : download.machine.state = .terminal → download.machine.checkpoint.terminal = true
  idle : download.machine.state = .ready ∨ download.machine.state = .requestInFlight ∨
      download.machine.state = .terminal →
    download.machine.pending = none
  pending : download.machine.state = .awaitingDurableCommit →
      ∃ pending, download.machine.pending = some pending ∧
    pending.ordinal = download.machine.checkpoint.committedPages ∧
    pending.bodyFingerprint = hash pending.body ∧
    pending.bodyFingerprint ∉ download.machine.checkpoint.seenPageFingerprints ∧
    (∀ cursor, pending.nextCursor = some cursor →
      cursor.digest hash ∉ download.machine.checkpoint.seenCursorDigests) ∧
    download.requestCursor = download.machine.checkpoint.nextCursor

theorem explains_empty (query : TeralionQuery) :
    CursorCheckpoint.Explains hash ⟨query.identity hash, 0, none, ∅, ∅, false⟩ query [] where
  identity := rfl
  count := rfl
  ordinals := by simp
  bodies := List.nodup_nil
  chain := rfl
  cursors := List.nodup_nil
  fresh := by simp
  terminal := rfl
  seenPages := by simp
  seenCursors := by simp

variable {hash} {fromSlice}

/-- A page that was accepted extends what the checkpoint explains. -/
theorem CursorCheckpoint.Explains.advance {checkpoint : CursorCheckpoint} {query : TeralionQuery}
    {history : List CommittedPage}
    (h : checkpoint.Explains hash query history) {pending : PendingPage}
    (hterminal : checkpoint.terminal = false)
    (hordinal : pending.ordinal = checkpoint.committedPages)
    (hfingerprint : pending.bodyFingerprint = hash pending.body)
    (hunseen : pending.bodyFingerprint ∉ checkpoint.seenPageFingerprints)
    (hadvances : ∀ cursor, pending.nextCursor = some cursor →
      cursor.digest hash ∉ checkpoint.seenCursorDigests) :
    (CursorCheckpoint.advance hash checkpoint pending).Explains hash query
      (history ++
        [⟨pending.ordinal, pending.body, checkpoint.nextCursor, pending.nextCursor⟩]) := by
  -- the digests seen are those of all cursors asked with so far, the one of this page included
  have hseen : ∀ cursor, some cursor ∈
      history.map CommittedPage.requestCursor ++ [checkpoint.nextCursor] →
      cursor.digest hash ∈ checkpoint.seenCursorDigests := by
    intro cursor hmem
    rw [h.chain, List.mem_cons, List.mem_map] at hmem
    obtain ⟨page, hpage, hcursor⟩ := hmem.resolve_left (Option.some_ne_none cursor)
    exact h.seenCursors page hpage cursor hcursor
  have hbody : pending.body ∉ history.map CommittedPage.body := by
    intro hmem
    obtain ⟨page, hpage, hbody⟩ := List.mem_map.1 hmem
    exact hunseen (hfingerprint ▸ hbody ▸ h.seenPages page hpage)
  refine ⟨h.identity, ?_, ?_, ?_, ?_, ?_, ?_, ?_, ?_, ?_⟩
  · rw [List.length_append, List.length_singleton]
    apply Unsigned.ext
    change (checkpoint.committedPages.val + 1) % 2 ^ 32 = (history.length + 1) % 2 ^ 32
    rw [h.count]
    exact Nat.mod_add_mod _ _ _
  · intro index page hpage
    by_cases hindex : index < history.length
    · rw [List.getElem?_append_left hindex] at hpage
      exact h.ordinals index page hpage
    · rw [List.getElem?_append_right (by omega), List.getElem?_singleton] at hpage
      split_ifs at hpage with hlast
      obtain rfl := Option.some.inj hpage
      obtain rfl : index = history.length := by omega
      exact hordinal.trans h.count
  · rw [List.map_append, List.map_singleton, ← List.concat_eq_append]
    exact h.bodies.concat hbody
  · rw [List.map_append, List.map_append, List.map_singleton, List.map_singleton, h.chain]
    rfl
  · rw [List.map_append, List.map_singleton, ← List.concat_eq_append]
    exact h.cursors.concat (h.fresh hterminal)
  · intro hmore hmem
    rw [List.map_append, List.map_singleton] at hmem
    have hsome : pending.nextCursor.isNone = false := hmore
    obtain ⟨cursor, hcursor⟩ := Option.isSome_iff_exists.1 (Option.isNone_eq_false_iff.1 hsome)
    have hnext : (CursorCheckpoint.advance hash checkpoint pending).nextCursor =
        some cursor := hcursor
    rw [hnext] at hmem
    exact hadvances cursor hcursor (hseen cursor hmem)
  · rw [List.getLast?_append, List.getLast?_singleton]
    rfl
  · intro page hpage
    rw [List.mem_append, List.mem_singleton] at hpage
    rw [CursorCheckpoint.advance, Std.ExtTreeSet.mem_insert]
    rcases hpage with hpage | rfl
    · exact Or.inr (h.seenPages page hpage)
    · exact Or.inl (by rw [hfingerprint]; exact Std.ReflCmp.compare_self)
  · intro page hpage cursor hcursor
    rw [List.mem_append, List.mem_singleton] at hpage
    rcases hpage with hpage | rfl
    · have hold := h.seenCursors page hpage cursor hcursor
      rw [CursorCheckpoint.advance]
      split
      · exact Std.ExtTreeSet.mem_insert.2 (Or.inr hold)
      · exact hold
    · rw [CursorCheckpoint.advance]
      simp only [show pending.nextCursor = some cursor from hcursor]
      exact Std.ExtTreeSet.mem_insert.2 (Or.inl Std.ReflCmp.compare_self)

/-- A machine resumed from a checkpoint it explains. -/
theorem resume_explained {checkpoint : CursorCheckpoint} {query : TeralionQuery}
    {history : List CommittedPage}
    (h : checkpoint.Explains hash query history) : resume hash query checkpoint =
      .ok ⟨query, checkpoint, if checkpoint.terminal then .terminal else .ready, none⟩ := by
  simp [resume, ensure, h.identity]

theorem new_paged (hash : List UInt8 → Digest) {query : TeralionQuery} (h : query.isPaged = true) :
    new hash query = .ok ⟨query, ⟨query.identity hash, 0, none, ∅, ∅, false⟩, .ready, none⟩ := by
  simp [new, ensure, h]

theorem Download.Sound.idle_machine {query : TeralionQuery} {checkpoint : CursorCheckpoint}
    {history : List CommittedPage}
    {saved : Option (CursorCheckpoint × List CommittedPage)} (requestCursor : Option TeralionCursor)
    (hpaged : query.isPaged = true) (hexplains : checkpoint.Explains hash query history)
    (hsaved : ∀ checkpoint history, saved = some (checkpoint, history) →
      checkpoint.Explains hash query history) :
    Download.Sound hash
      ⟨⟨query, checkpoint, if checkpoint.terminal then .terminal else .ready, none⟩,
        requestCursor, history,
      saved⟩ := by
  refine ⟨hpaged, hexplains, hsaved, ?_, ?_, fun _ => rfl, ?_⟩
  all_goals
    cases hterminal : checkpoint.terminal
    all_goals simp

/-- The state moves keep the invariant. -/
theorem Download.Sound.move {self : Download} (h : self.Sound hash) {step : DownloadStep}
    {state : CursorState} (hmove : StateMove hash self.machine step state) :
    Download.Sound hash { self with machine := { self.machine with state := state } } := by
  cases hmove with
  | stay => exact h
  | ask hready =>
    exact ⟨h.paged, h.explains, h.saved, fun _ _ =>
      h.running (by simp [hready]) (by simp [hready]), by simp,
      fun _ => h.idle (Or.inl hready), by simp⟩
  | retry request hflight =>
    exact ⟨h.paged, h.explains, h.saved, fun _ _ =>
      h.running (by simp [hflight]) (by simp [hflight]), by simp,
      fun _ => h.idle (Or.inr (Or.inl hflight)), by simp⟩
  | driftFailed | driftAccept | reject =>
    exact ⟨h.paged, h.explains, h.saved, by simp, by simp, by simp, by simp⟩

theorem Download.Sound.step {self : Download} (h : self.Sound hash)
    (fromSlice : List UInt8 → Except Text Json) (action : DownloadStep) :
    (self.step hash fromSlice action).Sound hash := by
  cases action with
  | requestNext =>
    obtain ⟨state, hmove, hafter⟩ := requestNext_after hash self.machine
    rw [Download.step, hafter]
    exact h.move hmove
  | requestFailed request =>
    obtain ⟨state, hmove, hafter⟩ := requestFailed_after hash request self.machine
    rw [Download.step, hafter]
    exact h.move hmove
  | acceptResponse request body =>
    rcases acceptResponse_after hash fromSlice request body self.machine with
      ⟨e, state, hmove, hafter⟩ | ⟨pending, haccepts, hafter⟩
    · rw [Download.step, hafter]
      exact h.move hmove
    · rw [Download.step, hafter]
      refine ⟨h.paged, h.explains, h.saved, fun _ _ =>
        ?_, by simp, by simp, fun _ => ⟨pending, rfl, ?_⟩⟩
      · exact h.running (by simp [haccepts.flight]) (by simp [haccepts.flight])
      · refine ⟨haccepts.ordinal, by rw [haccepts.fingerprint, haccepts.content], haccepts.unseen,
          fun cursor hcursor => (haccepts.advances cursor hcursor).2, ?_⟩
        by_contra hne
        exact haccepts.asked (Or.inr (Or.inr hne))
  | commitPage receipt =>
    rcases commitPage_after hash receipt self.machine with
      ⟨e, hafter⟩ | ⟨pending, hstate, hpending, -, hafter⟩
    · rw [Download.step, hafter]
      exact h
    · obtain ⟨page, hpage, hordinal, hfingerprint, hunseen, hadvances, hcursor⟩ := h.pending hstate
      obtain rfl : pending = page := Option.some.inj (hpending.symm.trans hpage)
      have hrunning := h.running (by simp [hstate]) (by simp [hstate])
      rw [Download.step, hafter, hpending, hcursor]
      exact Download.Sound.idle_machine self.machine.checkpoint.nextCursor h.paged
        (h.explains.advance hrunning hordinal hfingerprint hunseen hadvances) h.saved
  | save =>
    refine ⟨h.paged, h.explains, ?_, h.running, h.finished, h.idle, h.pending⟩
    intro checkpoint history heq
    cases heq
    exact h.explains
  | crash =>
    rw [Download.step, Download.restart]
    rcases hsaved : self.saved with _ | ⟨checkpoint, history⟩
    · simp only [new_paged hash h.paged]
      exact Download.Sound.idle_machine none h.paged (explains_empty hash _) (by simp)
    · simp only [resume_explained (h.saved checkpoint history hsaved)]
      exact Download.Sound.idle_machine none h.paged (h.saved checkpoint history hsaved)
        (hsaved ▸ h.saved)

/-- The query stays the one the download began with. -/
theorem Download.Sound.step_query {self : Download} (h : self.Sound hash) (action : DownloadStep) :
    (self.step hash fromSlice action).machine.query = self.machine.query := by
  cases action with
  | requestNext =>
    obtain ⟨state, -, hafter⟩ := requestNext_after hash self.machine
    rw [Download.step, hafter]
  | requestFailed request =>
    obtain ⟨state, -, hafter⟩ := requestFailed_after hash request self.machine
    rw [Download.step, hafter]
  | acceptResponse request body =>
    rcases acceptResponse_after hash fromSlice request body self.machine with
      ⟨e, state, -, hafter⟩ | ⟨pending, -, hafter⟩
    · rw [Download.step, hafter]
    · rw [Download.step, hafter]
  | commitPage receipt =>
    rcases commitPage_after hash receipt self.machine with ⟨e, hafter⟩ | ⟨pending, -, -, -, hafter⟩
    · rw [Download.step, hafter]
    · rw [Download.step, hafter]
  | save => rfl
  | crash =>
    rw [Download.step, Download.restart]
    rcases hsaved : self.saved with _ | ⟨checkpoint, history⟩
    · simp only [new_paged hash h.paged]
    · simp only [resume_explained (h.saved checkpoint history hsaved)]

theorem Download.Sound.run {self : Download} (h : self.Sound hash)
    (fromSlice : List UInt8 → Except Text Json) (steps : List DownloadStep) :
    (self.run hash fromSlice steps).Sound hash ∧
    (self.run hash fromSlice steps).machine.query = self.machine.query := by
  induction steps generalizing self with
  | nil => exact ⟨h, rfl⟩
  | cons action steps ih =>
    obtain ⟨hsound, hquery⟩ := ih (h.step fromSlice action)
    exact ⟨hsound, hquery.trans (h.step_query action)⟩

/-- A machine without a page at hand is the one its checkpoint is resumed to. -/
theorem Download.Sound.eq_resumed {self : Download} (h : self.Sound hash)
    (hstate : self.machine.state = .ready ∨ self.machine.state = .terminal) : self.machine =
      ⟨self.machine.query, self.machine.checkpoint,
        if self.machine.checkpoint.terminal then .terminal else .ready, none⟩ := by
  have hpending : self.machine.pending = none := h.idle (by tauto)
  have hterminal : self.machine.state = if self.machine.checkpoint.terminal then .terminal else
      .ready := by
    rcases hstate with hready | hdone
    · rw [h.running (by simp [hready]) (by simp [hready]), hready]
      rfl
    · rw [h.finished hdone, hdone]
      rfl
  rw [← hterminal, ← hpending]

end Invariant

section File

theorem decodeDigests_strings (field : CheckpointField) (digests : List Digest) :
    CursorCheckpoint.decodeDigests field
    (digests.map fun digest => .string (Hex.text digest.bytes)) = .ok digests := by
  induction digests with
  | nil => rfl
  | cons digest digests ih =>
    simp only [List.map_cons, CursorCheckpoint.decodeDigests, Json.asString_string,
      Option.bind_some, Hex.decode32_text, okOr, bind, Except.bind, pure, Except.pure]
    rw [ih]

theorem ofList_toList (digests : Std.ExtTreeSet Digest) :
    Std.ExtTreeSet.ofList digests.toList = digests := by
  ext digest
  simp

theorem readNextCursor_cursor (cursor : Option TeralionCursor) : CursorCheckpoint.readNextCursor
    (Json.asString ((cursor.map fun cursor => Json.string cursor.value).getD .null)) =
      .ok cursor := by
  rcases cursor with _ | cursor
  · rfl
  · simp only [Option.map_some, Option.getD_some, Json.asString, CursorCheckpoint.readNextCursor,
      TeralionCursor.new, dif_pos cursor.nonempty]
    rfl

/-- The document of a checkpoint is read back as the checkpoint. -/
theorem ofJson_toJson (checkpoint : CursorCheckpoint) :
    CursorCheckpoint.ofJson checkpoint.toJson = .ok checkpoint := by
  have hidentity : checkpoint.toJson.get? CheckpointField.queryIdentity.name =
      some (.string (Hex.text checkpoint.queryIdentity.bytes)) := rfl
  have hpages : checkpoint.toJson.get? CheckpointField.committedPages.name =
      some (.number (Unsigned.ofNat? 64 checkpoint.committedPages.val)) := rfl
  have hcursor : checkpoint.toJson.get? CheckpointField.nextCursor.name =
      some ((checkpoint.nextCursor.map fun cursor => Json.string cursor.value).getD .null) := rfl
  have hcursors : checkpoint.toJson.get? CheckpointField.seenCursorDigests.name =
      some (CursorCheckpoint.digestsToJson checkpoint.seenCursorDigests) := rfl
  have hfingerprints : checkpoint.toJson.get? CheckpointField.seenPageFingerprints.name =
      some (CursorCheckpoint.digestsToJson checkpoint.seenPageFingerprints) := rfl
  have hterminal : checkpoint.toJson.get? CheckpointField.terminal.name =
      some (.bool checkpoint.terminal) := rfl
  have hcount : Unsigned.ofNat? 64 checkpoint.committedPages.val =
      some (Unsigned.wrap 64 checkpoint.committedPages.val) := by
    rw [Unsigned.ofNat?_eq_some, Unsigned.val_wrap]
    exact checkpoint.committedPages.lt.trans (by decide)
  have hnarrow : Unsigned.ofNat? 32 (Unsigned.wrap 64 checkpoint.committedPages.val).val =
      some checkpoint.committedPages := by
    rw [Unsigned.ofNat?_eq_some, Unsigned.val_wrap]
    exact checkpoint.committedPages.lt.trans (by decide)
  simp only [CursorCheckpoint.ofJson, CursorCheckpoint.digestSet, hidentity, hpages, hcursor,
    hcursors, hfingerprints, hterminal,
    hcount, hnarrow, Option.bind_some, Json.asString_string, Json.asUnsigned_number,
    Json.asBool_bool, Json.asArray_array, Hex.decode32_text, okOr, readNextCursor_cursor,
    CursorCheckpoint.digestsToJson, decodeDigests_strings, ofList_toList, bind, Except.bind, pure,
    Except.pure]

/-- What was saved is loaded. -/
theorem load_of_save {toVecPretty : Json → List UInt8} {fromSlice : List UInt8 → Except Text Json}
    {checkpoint : CursorCheckpoint}
    (hjson : fromSlice (toVecPretty checkpoint.toJson) = .ok checkpoint.toJson)
    {path : FilePath} {disk disk' : Disk}
    (h : checkpoint.save toVecPretty path disk = .ok () disk') :
    CursorCheckpoint.load fromSlice disk'.contents path = .ok checkpoint := by
  simp only [CursorCheckpoint.load, writeAtomic_ok h, okOr, hjson, Except.mapError, bind,
    Except.bind, ofJson_toJson]

end File

end Osmium
