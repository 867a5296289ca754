import Osmium.Proofs.EventCodec
import Osmium.Sanity.Replay
import Osmium.Spec.Streams

/-! The merge of opened streams as a sequence fixed in advance: whatever is done with an event, the
order of the events depends on the streams alone. Streams in key order are merged into the sorted
sequence of their events. -/

namespace Osmium
open Machine Bytes Codec Result Stateful

section Preparation
variable {hash : List UInt8 → Digest}

theorem PreparedOrderEvent.new_ok {event : DomainEvent} {prepared : PreparedOrderEvent} :
    PreparedOrderEvent.new hash event = .ok prepared ↔
      OrderingKey.forEventAndCanonical hash event = .ok (prepared.key, prepared.canonical) ∧
      prepared.event = event := by
  simp only [PreparedOrderEvent.new, bind_eq_ok, pure_eq_ok]
  refine ⟨fun h => ?_, fun h => ⟨_, h.1, by rw [← h.2]⟩⟩
  obtain ⟨⟨key, canonical⟩, hkey, rfl⟩ := h
  exact ⟨hkey, rfl⟩

theorem prepareAll_ok (events : List DomainEvent) (prepared : List PreparedOrderEvent) :
    prepareAll hash events = .ok prepared ↔
      List.Forall₂ (fun event item => PreparedOrderEvent.new hash event = .ok item) events
        prepared := by
  induction events generalizing prepared with
  | nil => simp [prepareAll, eq_comm]
  | cons event rest ih =>
    simp only [prepareAll, bind_eq_ok, pure_eq_ok, ih, List.forall₂_cons_left_iff]
    refine ⟨fun h => ?_, fun h => ?_⟩
    · obtain ⟨item, hitem, items, hitems, heq⟩ := h
      exact ⟨item, items, hitem, hitems, heq.symm⟩
    · obtain ⟨item, items, hitem, hitems, heq⟩ := h
      exact ⟨item, hitem, items, hitems, heq.symm⟩

theorem new_event_of_mem {events : List DomainEvent} {prepared : List PreparedOrderEvent}
    (h : prepareAll hash events = .ok prepared) {item : PreparedOrderEvent}
    (hitem : item ∈ prepared) :
    PreparedOrderEvent.new hash item.event = .ok item := by
  induction (prepareAll_ok events prepared).1 h with
  | nil => cases hitem
  | cons hnew hrest ih =>
    rcases List.mem_cons.1 hitem with rfl | hitem
    · rw [(PreparedOrderEvent.new_ok.1 hnew).2]
      exact hnew
    · exact ih ((prepareAll_ok _ _).2 hrest) hitem

theorem map_event_of_prepareAll {events : List DomainEvent} {prepared : List PreparedOrderEvent}
    (h : prepareAll hash events = .ok prepared) :
    prepared.map PreparedOrderEvent.event = events := by
  induction (prepareAll_ok events prepared).1 h with
  | nil => rfl
  | cons hnew hrest ih =>
    rw [List.map_cons, ih ((prepareAll_ok _ _).2 hrest), (PreparedOrderEvent.new_ok.1 hnew).2]

/-- Equal bytes are equal events, so that a prepared event is determined by its bytes. -/
theorem PreparedOrderEvent.eq_of_canonical_eq {a b : PreparedOrderEvent}
    (ha : PreparedOrderEvent.new hash a.event = .ok a)
    (hb : PreparedOrderEvent.new hash b.event = .ok b) (h : a.canonical = b.canonical) : a = b := by
  have hbytes := (OrderingKey.forEventAndCanonical_ok (PreparedOrderEvent.new_ok.1 ha).1).2.1
  have hbytes' := (OrderingKey.forEventAndCanonical_ok (PreparedOrderEvent.new_ok.1 hb).1).2.1
  have hevent : a.event = b.event := (event_prefixFree _ _ _ _ [] [] hbytes hbytes' (by rw [h])).1
  rw [hevent] at ha
  exact Except.ok.inj (ha.symm.trans hb)

end Preparation

section Trace
variable (hash : List UInt8 → Digest)

/-- The events a merge takes from its heads, and the fault of a stream that ends it. -/
def mergeTrace : ℕ → List MergeHead → List PreparedOrderEvent × Option HeadFault
  | 0, _ | _, [] => ([], none)
  | fuel + 1, head :: heads =>
    match nextHead hash head.index head.stream with
    | .error fault => ([head.prepared], some fault)
    | .ok next =>
      (head.prepared :: (mergeTrace fuel (pushHead next heads)).1,
        (mergeTrace fuel (pushHead next heads)).2)

def streamTrace (streams : List EventStream) : List PreparedOrderEvent × Option HeadFault :=
  match openHeads hash streams 0 [] with
  | .error fault => ([], some fault)
  | .ok heads => mergeTrace hash (remainingEvents heads) heads

variable {ε s : Type} (step : PreparedOrderEvent → EStateM ε s Unit) (raise : HeadFault → ε)

def raiseFault : Option HeadFault → EStateM ε s Unit
  | none => pure ()
  | some fault => throw (raise fault)

theorem mergeLoop_eq (fuel : ℕ) (heads : List MergeHead) :
    mergeLoop hash step raise fuel heads = (do
    each step (mergeTrace hash fuel heads).1
    raiseFault raise (mergeTrace hash fuel heads).2) := by
  induction fuel generalizing heads with
  | zero => simp [mergeLoop, mergeTrace, each, raiseFault]
  | succ fuel ih =>
    cases heads with
    | nil => simp [mergeLoop, mergeTrace, each, raiseFault]
    | cons head heads =>
      rw [mergeLoop, mergeTrace]
      cases hnext : nextHead hash head.index head.stream with
      | error fault =>
        simp only [each, raiseFault, Except.mapError, bind_assoc, pure_bind]
        rfl
      | ok next =>
        simp only [each, Except.mapError, bind_assoc, ← ih]
        rfl

theorem mergeStreams_eq (streams : List EventStream) : mergeStreams hash step raise streams = (do
    each step (streamTrace hash streams).1
    raiseFault raise (streamTrace hash streams).2) := by
  unfold mergeStreams streamTrace
  cases hheads : openHeads hash streams 0 [] with
  | error fault =>
    simp only [each, raiseFault, Except.mapError, pure_bind]
    rfl
  | ok heads =>
    simp only [Except.mapError, ← mergeLoop_eq]
    rfl

end Trace

section Items
variable {hash : List UInt8 → Digest}

/-- A head whose item is what the preparation of its event gives. -/
def MergeHead.Prepares (hash : List UInt8 → Digest) (head : MergeHead) : Prop :=
  PreparedOrderEvent.new hash head.prepared.event = .ok head.prepared

theorem prepares_nextHead {index : ℕ} {stream : EventStream} {head : MergeHead}
    (h : nextHead hash index stream = .ok (some head)) : head.Prepares hash := by
  obtain ⟨⟨event, rest⟩, -, h⟩ := (bind_eq_ok _ _ _).1 h
  cases event with
  | none => cases h
  | some event =>
    obtain ⟨prepared, hprepared, h⟩ := (bind_eq_ok _ _ _).1 h
    cases h
    have hnew := (mapError_eq_ok _ _ _).1 hprepared
    rw [MergeHead.Prepares, (PreparedOrderEvent.new_ok.1 hnew).2]
    exact hnew

theorem prepares_pushHead {index : ℕ} {stream : EventStream} {next : Option MergeHead}
    {heads : List MergeHead}
    (hnext : nextHead hash index stream = .ok next) (h : ∀ head ∈ heads, head.Prepares hash) :
    ∀ head ∈ pushHead next heads, head.Prepares hash := by
  cases next with
  | none => exact h
  | some head =>
    intro other hother
    rcases (List.mem_orderedInsert _).1 hother with rfl | hother
    · exact prepares_nextHead hnext
    · exact h other hother

theorem prepares_openHeads {streams : List EventStream} {index : ℕ} {heads heads' : List MergeHead}
    (hheads : openHeads hash streams index heads = .ok heads')
    (h : ∀ head ∈ heads, head.Prepares hash) :
    ∀ head ∈ heads', head.Prepares hash := by
  induction streams generalizing index heads with
  | nil =>
    cases hheads
    exact h
  | cons stream rest ih =>
    obtain ⟨head, hhead, hrest⟩ := (bind_eq_ok _ _ _).1 hheads
    exact ih hrest (prepares_pushHead hhead h)

theorem new_of_mem_mergeTrace (fuel : ℕ) {heads : List MergeHead}
    (h : ∀ head ∈ heads, head.Prepares hash) :
    ∀ item ∈ (mergeTrace hash fuel heads).1, PreparedOrderEvent.new hash item.event = .ok item := by
  induction fuel generalizing heads with
  | zero => simp [mergeTrace]
  | succ fuel ih =>
    cases heads with
    | nil => simp [mergeTrace]
    | cons head heads =>
      obtain ⟨hhead, hheads⟩ := List.forall_mem_cons.1 h
      rw [mergeTrace]
      cases hnext : nextHead hash head.index head.stream with
      | error fault => exact List.forall_mem_singleton.2 hhead
      | ok next => exact List.forall_mem_cons.2 ⟨hhead, ih (prepares_pushHead hnext hheads)⟩

/-- What a merge takes from its streams is prepared, also where a stream fails. -/
theorem new_of_mem_streamTrace {streams : List EventStream} :
    ∀ item ∈ (streamTrace hash streams).1, PreparedOrderEvent.new hash item.event = .ok item := by
  unfold streamTrace
  cases hheads : openHeads hash streams 0 [] with
  | error fault => simp
  | ok heads => exact new_of_mem_mergeTrace _ (prepares_openHeads hheads (by simp))

end Items

section Clean
variable {hash : List UInt8 → Digest}

/-- A stream that ends cleanly, with its events prepared. -/
structure CleanStream (hash : List UInt8 → Digest) (stream : EventStream)
    (items : List PreparedOrderEvent) : Prop where
  clean : stream.failure = none
  items : prepareAll hash stream.events = .ok items

/-- A head of the merge as a head of the general merge. -/
structure HeadOf (hash : List UInt8 → Digest) (head : MergeHead)
    (abstract : Merge.Head PreparedOrderEvent) : Prop where
  index : head.index = abstract.index
  item : head.prepared = abstract.item
  rest : CleanStream hash head.stream abstract.rest

theorem HeadOf.before_iff {a b : MergeHead} {a' b' : Merge.Head PreparedOrderEvent}
    (ha : HeadOf hash a a')
    (hb : HeadOf hash b b') : a.before b ↔ Merge.Before PreparedOrderEvent.key a' b' := by
  unfold MergeHead.before Merge.Before
  rw [ha.index, ha.item, hb.index, hb.item]

theorem forall₂_orderedInsert {head : MergeHead} {abstract : Merge.Head PreparedOrderEvent}
    (hhead : HeadOf hash head abstract)
    {heads : List MergeHead} {abstracts : List (Merge.Head PreparedOrderEvent)}
    (h : List.Forall₂ (HeadOf hash) heads abstracts) :
    List.Forall₂ (HeadOf hash) (heads.orderedInsert MergeHead.before head)
      (abstracts.orderedInsert (Merge.Before PreparedOrderEvent.key) abstract) := by
  induction h with
  | nil => exact .cons hhead .nil
  | cons hfirst hrest ih =>
    rw [List.orderedInsert_cons, List.orderedInsert_cons]
    simp only [hhead.before_iff hfirst]
    split_ifs
    · exact .cons hhead (.cons hfirst hrest)
    · exact .cons hfirst ih

theorem CleanStream.nextHead {stream : EventStream} {items : List PreparedOrderEvent}
    (h : CleanStream hash stream items)
    (index : ℕ) : ∃ next, nextHead hash index stream = .ok next ∧ ∀ heads abstracts,
      List.Forall₂ (HeadOf hash) heads abstracts →
      List.Forall₂ (HeadOf hash) (pushHead next heads)
        (Merge.push PreparedOrderEvent.key index items abstracts) := by
  obtain ⟨events, failure⟩ := stream
  obtain ⟨hclean, hitems⟩ := h
  subst hclean
  cases (prepareAll_ok events items).1 hitems with
  | nil => exact ⟨none, rfl, fun heads abstracts h => h⟩
  | cons hnew hrest =>
    rename_i event item rest tail
    refine ⟨some ⟨index, item, ⟨rest, none⟩⟩, ?_, fun heads abstracts h => ?_⟩
    · simp only [Osmium.nextHead, EventStream.nextEvent, bind_eq_ok, mapError_eq_ok,
        Except.ok.injEq]
      refine ⟨_, rfl, ?_⟩
      simp only [hnew, Except.mapError]
      rfl
    · exact forall₂_orderedInsert ⟨rfl, rfl, rfl, (prepareAll_ok _ _).2 hrest⟩ h

theorem mergeTrace_clean (fuel : ℕ) {heads : List MergeHead}
    {abstracts : List (Merge.Head PreparedOrderEvent)}
    (h : List.Forall₂ (HeadOf hash) heads abstracts) :
    mergeTrace hash fuel heads = (Merge.merge PreparedOrderEvent.key fuel abstracts, none) := by
  induction fuel generalizing heads abstracts with
  | zero => rfl
  | succ fuel ih =>
    cases h with
    | nil => rfl
    | cons hfirst hrest =>
      obtain ⟨next, hnext, hpush⟩ := hfirst.rest.nextHead _
      rw [mergeTrace, Merge.merge, hnext, ← hfirst.item]
      simp only []
      rw [ih (hpush _ _ hrest), hfirst.index]

theorem openHeads_clean {streams : List EventStream} {sequences : List (List PreparedOrderEvent)}
    (hstreams : List.Forall₂ (CleanStream hash) streams sequences) (index : ℕ)
    {heads : List MergeHead} {abstracts : List (Merge.Head PreparedOrderEvent)}
    (h : List.Forall₂ (HeadOf hash) heads abstracts) :
    ∃ heads', openHeads hash streams index heads = .ok heads' ∧
      List.Forall₂ (HeadOf hash) heads'
        (Merge.start PreparedOrderEvent.key sequences index abstracts) := by
  induction hstreams generalizing index heads abstracts with
  | nil => exact ⟨heads, rfl, h⟩
  | cons hstream hrest ih =>
    obtain ⟨next, hnext, hpush⟩ := hstream.nextHead index
    obtain ⟨heads', hopen, hheads⟩ := ih (index + 1) (hpush _ _ h)
    refine ⟨heads', ?_, hheads⟩
    rw [openHeads, hnext]
    exact hopen

theorem remainingEvents_eq {heads : List MergeHead}
    {abstracts : List (Merge.Head PreparedOrderEvent)}
    (h : List.Forall₂ (HeadOf hash) heads abstracts) :
    remainingEvents heads = (Merge.all abstracts).length := by
  induction h with
  | nil => rfl
  | cons hfirst hrest ih =>
    have hlength := ((prepareAll_ok _ _).1 hfirst.rest.items).length_eq
    simp only [remainingEvents, Merge.all, Merge.Head.items, List.map_cons, List.sum_cons,
      List.flatMap_cons, List.length_append, List.length_cons] at ih ⊢
    omega

/-- Streams that end cleanly are merged as their events are, with no fault. -/
theorem streamTrace_clean {streams : List EventStream} {sequences : List (List PreparedOrderEvent)}
    (h : List.Forall₂ (CleanStream hash) streams sequences) :
    streamTrace hash streams = (Merge.mergeAll PreparedOrderEvent.key sequences, none) := by
  obtain ⟨heads, hopen, hheads⟩ := openHeads_clean h 0 List.Forall₂.nil
  rw [streamTrace, hopen]
  simp only []
  rw [mergeTrace_clean _ hheads, remainingEvents_eq hheads]
  rfl

end Clean

section Sorting
variable {hash : List UInt8 → Digest}

instance : IsTrans PreparedOrderEvent keyBefore := ⟨fun _ _ _ hab hbc => le_trans hab hbc⟩

instance : Std.Total keyBefore := ⟨fun a b => le_total a.key b.key⟩

/-- Events whose keys can be computed and never decrease. -/
def InOrder (hash : List UInt8 → Digest) (events : List DomainEvent) : Prop :=
  ∃ prepared, prepareAll hash events = .ok prepared ∧ prepared.Pairwise keyBefore

theorem orderEvents_ok {events ordered : List DomainEvent} : orderEvents hash events = .ok ordered ↔
    ∃ prepared, prepareAll hash events = .ok prepared ∧
      anyAdjacent (fun a b => a.key = b.key && a.canonical ≠ b.canonical)
        (prepared.insertionSort keyBefore) = false ∧
      (prepared.insertionSort keyBefore).map PreparedOrderEvent.event = ordered := by
  simp [orderEvents]

theorem orderEvents_inOrder {events ordered : List DomainEvent}
    (h : orderEvents hash events = .ok ordered) :
    InOrder hash ordered ∧ ordered.Perm events := by
  obtain ⟨prepared, hprepared, -, rfl⟩ := orderEvents_ok.1 h
  have hperm := prepared.perm_insertionSort keyBefore
  constructor
  · refine ⟨prepared.insertionSort keyBefore, ?_, List.pairwise_insertionSort keyBefore prepared⟩
    refine (prepareAll_ok _ _).2
      (List.forall₂_map_left_iff.2 (List.forall₂_same.2 fun item hitem => ?_))
    exact new_event_of_mem hprepared (hperm.mem_iff.1 hitem)
  · rw [← map_event_of_prepareAll hprepared]
    exact hperm.map _

/-- In a sorted sequence without neighbours that collide, no two events collide. -/
theorem canonical_eq_of_key_eq {l : List PreparedOrderEvent} (hsorted : l.Pairwise keyBefore)
    (h : anyAdjacent (fun a b => a.key = b.key && a.canonical ≠ b.canonical) l = false) :
    ∀ a ∈ l, ∀ b ∈ l, a.key = b.key → a.canonical = b.canonical := by
  induction l with
  | nil => simp
  | cons a l ih =>
    obtain ⟨hle, hsorted⟩ := List.pairwise_cons.1 hsorted
    have hfirst : anyAdjacent (fun a b => a.key = b.key && a.canonical ≠ b.canonical) l = false ∧
        ∀ b ∈ l, a.key = b.key → a.canonical = b.canonical := by
      cases l with
      | nil => exact ⟨rfl, by simp⟩
      | cons b l =>
        simp only [anyAdjacent, Bool.or_eq_false_iff, Bool.and_eq_false_iff,
          decide_eq_false_iff_not, ne_eq, not_not] at h
        refine ⟨h.2, fun c hc hkey => ?_⟩
        -- the key of the neighbour lies between two equal keys
        have hbc : b.key ≤ c.key := by
          rcases List.mem_cons.1 hc with rfl | hc
          · exact le_rfl
          · exact (List.pairwise_cons.1 hsorted).1 c hc
        have hab : a.key = b.key := le_antisymm (hle b List.mem_cons_self) (hbc.trans hkey.ge)
        have hcanonical : a.canonical = b.canonical := by
          rcases h.1 with hne | heq
          · exact absurd hab hne
          · exact heq
        exact hcanonical.trans (ih hsorted h.2 b List.mem_cons_self c hc (hab.symm.trans hkey))
    obtain ⟨hrest, hfirst⟩ := hfirst
    intro b hb c hc hkey
    rcases List.mem_cons.1 hb with rfl | hb' <;> rcases List.mem_cons.1 hc with rfl | hc'
    · rfl
    · exact hfirst c hc' hkey
    · exact (hfirst b hb' hkey.symm).symm
    · exact ih hsorted hrest b hb' c hc' hkey

/-- Without collisions, prepared events in key order are determined by which events they are. -/
theorem eq_insertionSort {events : List DomainEvent} {prepared sorted : List PreparedOrderEvent}
    (hprepared : prepareAll hash events = .ok prepared) (hperm : sorted.Perm prepared)
    (hsorted : sorted.Pairwise keyBefore)
    (h : anyAdjacent (fun a b => a.key = b.key && a.canonical ≠ b.canonical)
      (prepared.insertionSort keyBefore) = false) :
    sorted = prepared.insertionSort keyBefore := by
  have hsort := List.pairwise_insertionSort keyBefore prepared
  have hperm' := prepared.perm_insertionSort keyBefore
  refine (hperm.trans hperm'.symm).eq_of_pairwise (fun a b ha hb hab hba => ?_) hsorted hsort
  refine PreparedOrderEvent.eq_of_canonical_eq (new_event_of_mem hprepared (hperm.mem_iff.1 ha))
    (new_event_of_mem hprepared (hperm'.mem_iff.1 hb)) ?_
  exact canonical_eq_of_key_eq hsort h a (hperm'.mem_iff.2 (hperm.mem_iff.1 ha)) b hb
    (le_antisymm hab hba)

theorem orderEvents_perm {events events' ordered : List DomainEvent} (hperm : events.Perm events')
    (h : orderEvents hash events = .ok ordered) : orderEvents hash events' = .ok ordered := by
  obtain ⟨prepared, hprepared, hcollide, rfl⟩ := orderEvents_ok.1 h
  obtain ⟨prepared', hrel, hperm'⟩ :=
    List.perm_comp_forall₂ hperm.symm ((prepareAll_ok _ _).1 hprepared)
  have hsame : prepared'.insertionSort keyBefore = prepared.insertionSort keyBefore :=
    eq_insertionSort hprepared ((prepared'.perm_insertionSort keyBefore).trans hperm')
      (List.pairwise_insertionSort keyBefore prepared') hcollide
  refine orderEvents_ok.2 ⟨prepared', (prepareAll_ok _ _).2 hrel, ?_, ?_⟩
  · rw [hsame]
    exact hcollide
  · rw [hsame]

theorem exists_sequences {streams : List EventStream}
    (h : ∀ stream ∈ streams, stream.failure = none ∧
      ∃ items, prepareAll hash stream.events = .ok items) :
    ∃ sequences, List.Forall₂ (CleanStream hash) streams sequences := by
  induction streams with
  | nil => exact ⟨[], .nil⟩
  | cons stream rest ih =>
    obtain ⟨hclean, items, hitems⟩ := h stream List.mem_cons_self
    obtain ⟨sequences, hrest⟩ := ih fun other hother => h other (List.mem_cons_of_mem _ hother)
    exact ⟨items :: sequences, .cons ⟨hclean, hitems⟩ hrest⟩

theorem exists_stream {streams : List EventStream} {sequences : List (List PreparedOrderEvent)}
    (h : List.Forall₂ (CleanStream hash) streams sequences) :
    (∀ items ∈ sequences, ∃ stream ∈ streams, CleanStream hash stream items) ∧
      ∀ stream ∈ streams, ∃ items ∈ sequences, CleanStream hash stream items := by
  induction h with
  | nil => simp
  | cons hstream hrest ih =>
    simp only [List.mem_cons, forall_eq_or_imp, exists_eq_or_imp]
    exact ⟨⟨.inl hstream, fun items hitems => .inr (ih.1 items hitems)⟩,
      ⟨.inl hstream, fun stream hmem => .inr (ih.2 stream hmem)⟩⟩

theorem prepareAll_flatMap {streams : List EventStream} {sequences : List (List PreparedOrderEvent)}
    (h : List.Forall₂ (CleanStream hash) streams sequences) :
    prepareAll hash (streams.flatMap EventStream.events) = .ok sequences.flatten := by
  rw [prepareAll_ok]
  induction h with
  | nil => exact .nil
  | cons hstream hrest ih =>
    rw [List.flatMap_cons, List.flatten_cons]
    exact List.rel_append ((prepareAll_ok _ _).1 hstream.items) ih

/-- The merge of streams in order is the sorted sequence of all their events. -/
theorem streamTrace_sorted {streams : List EventStream} {ordered : List DomainEvent}
    (hclean : ∀ stream ∈ streams, stream.failure = none)
    (hsorted : ∀ stream ∈ streams, InOrder hash stream.events)
    (h : orderEvents hash (streams.flatMap EventStream.events) = .ok ordered) :
    ∃ sorted, streamTrace hash streams = (sorted, none) ∧
    sorted.map PreparedOrderEvent.event = ordered ∧
      ∀ item ∈ sorted, PreparedOrderEvent.new hash item.event = .ok item := by
  obtain ⟨sequences, hsequences⟩ := exists_sequences fun stream hstream =>
    ⟨hclean stream hstream, (hsorted stream hstream).imp fun _ hitems => hitems.1⟩
  have hprepared := prepareAll_flatMap hsequences
  obtain ⟨prepared, hprepared', hcollide, hordered⟩ := orderEvents_ok.1 h
  obtain rfl : sequences.flatten = prepared := Except.ok.inj (hprepared.symm.trans hprepared')
  have hitems : ∀ items ∈ sequences, items.Pairwise keyBefore := by
    intro items hitems
    obtain ⟨stream, hstream, hmatch⟩ := (exists_stream hsequences).1 items hitems
    obtain ⟨items', hitems', hpairwise⟩ := hsorted stream hstream
    obtain rfl : items = items' := Except.ok.inj (hmatch.items.symm.trans hitems')
    exact hpairwise
  have hmerge := eq_insertionSort hprepared (Merge.mergeAll_perm sequences)
    (Merge.mergeAll_sorted sequences hitems) hcollide
  refine ⟨_, streamTrace_clean hsequences, by rw [hmerge, hordered], fun item hitem => ?_⟩
  exact new_event_of_mem hprepared ((Merge.mergeAll_perm sequences).mem_iff.1 hitem)

end Sorting

theorem ReplayCore.applyAll_snoc {hash : List UInt8 → Digest} {events : List DomainEvent}
    {event : DomainEvent} {commit : CoreCommit} {core mid final : ReplayCore}
    (h : ReplayCore.applyAll hash events core = .ok () mid)
    (hcommit : ReplayCore.applyOrdered hash event mid = .ok commit final) :
    ReplayCore.applyAll hash (events ++ [event]) core = .ok () final := by
  induction events generalizing core with
  | nil =>
    obtain ⟨-, rfl⟩ := (pure_ok _ _ _ _).1 h
    exact bind_of_ok hcommit _
  | cons first rest ih =>
    obtain ⟨_, next, hfirst, hrest⟩ := (bind_ok _ _ _ _ _).1 h
    exact (bind_of_ok hfirst _).trans (ih hrest)

section Frozen
variable {hash : List UInt8 → Digest} {γ τ : Type} {callback : ReplayCallback γ τ}

/-- Commits one event and calls the callback. -/
def commitWith (hash : List UInt8 → Digest) (callback : ReplayCallback γ τ) (event : DomainEvent) :
    EStateM (FrozenReplayError γ) (ReplayCore × τ) Unit := do
  let commit ← zoom Prod.fst (fun self core => (core, self.2)) .replay
      (ReplayCore.applyOrdered hash event)
  zoom id (fun _ self => self) .callback (callback event commit)

/-- A callback that only looks at the core. -/
def ReplayCallback.KeepsCore (callback : ReplayCallback γ τ) : Prop :=
  ∀ event commit s, (stateAfter (callback event commit s)).1 = s.1

theorem applyOrdered_of_new {item : PreparedOrderEvent}
    (h : PreparedOrderEvent.new hash item.event = .ok item) :
    ReplayCore.applyOrdered hash item.event =
      ReplayCore.applyPreparedOrdered hash item.event item.key item.canonical := by
  funext core
  unfold ReplayCore.applyOrdered
  rw [lift_bind (a := (item.key, item.canonical)) (by rw [(PreparedOrderEvent.new_ok.1 h).1]; rfl)]

theorem commitPrepared_of_new {item : PreparedOrderEvent}
    (h : PreparedOrderEvent.new hash item.event = .ok item) :
    commitPrepared hash callback item = commitWith hash callback item.event := by
  rw [commitPrepared, commitWith, applyOrdered_of_new h]

theorem each_commitPrepared {items : List PreparedOrderEvent}
    (h : ∀ item ∈ items, PreparedOrderEvent.new hash item.event = .ok item) :
    each (commitPrepared hash callback) items =
      each (commitWith hash callback) (items.map PreparedOrderEvent.event) := by
  refine each_map fun item hitem => ?_
  exact commitPrepared_of_new (h item hitem)

theorem commitWith_ok {event : DomainEvent} {s s' : ReplayCore × τ} :
    commitWith hash callback event s = .ok () s' ↔
    ∃ commit core, ReplayCore.applyOrdered hash event s.1 = .ok commit core ∧
      callback event commit (core, s.2) = .ok () s' := by
  simp only [commitWith, bind_ok, zoom_ok, id, exists_eq_right]
  exact ⟨fun ⟨commit, s₁, ⟨core, hcore, heq⟩, hcallback⟩ => ⟨commit, core, hcore, heq ▸ hcallback⟩,
    fun ⟨commit, core, hcore, hcallback⟩ => ⟨commit, _, ⟨core, hcore, rfl⟩, hcallback⟩⟩

theorem commitWith_error {event : DomainEvent} {s s' : ReplayCore × τ} {e : FrozenReplayError γ}
    (h : commitWith hash callback event s = .error e s') :
    (∃ fault core, ReplayCore.applyOrdered hash event s.1 = .error fault core ∧ e = .replay fault ∧
      s' = (core, s.2)) ∨
      ∃ fault, e = .callback fault := by
  rcases (bind_error _ _ _ _ _).1 h with h | ⟨commit, s₁, -, h⟩
  · obtain ⟨fault, core, hfault, rfl, rfl⟩ := (zoom_error _ _ _ _ _ _ _).1 h
    exact .inl ⟨fault, core, hfault, rfl, rfl⟩
  · obtain ⟨fault, -, -, rfl, -⟩ := (zoom_error _ _ _ _ _ _ _).1 h
    exact .inr ⟨fault, rfl⟩

theorem ReplayCallback.KeepsCore.commitWith_ok (hkeeps : callback.KeepsCore) {event : DomainEvent}
    {s s' : ReplayCore × τ} (h : commitWith hash callback event s = .ok () s') :
    ∃ commit, ReplayCore.applyOrdered hash event s.1 = .ok commit s'.1 := by
  obtain ⟨commit, core, hcore, hcallback⟩ := Osmium.commitWith_ok.1 h
  have hsame : s'.1 = core := by
    have hkept := hkeeps event commit (core, s.2)
    rwa [hcallback] at hkept
  exact ⟨commit, by rw [hcore, hsame]⟩

/-- Commits with a callback that only looks are commits without one. -/
theorem ReplayCallback.KeepsCore.each_ok (hkeeps : callback.KeepsCore) (events : List DomainEvent)
    {s s' : ReplayCore × τ} (h : each (commitWith hash callback) events s = .ok () s') :
    ReplayCore.applyAll hash events s.1 = .ok () s'.1 := by
  induction events generalizing s with
  | nil => rw [((pure_ok _ _ _ _).1 h).2]; rfl
  | cons event rest ih =>
    obtain ⟨⟨⟩, s₁, hfirst, hrest⟩ := (bind_ok _ _ _ _ _).1 h
    obtain ⟨commit, hcommit⟩ := hkeeps.commitWith_ok hfirst
    rw [ReplayCore.applyAll, bind_of_ok hcommit]
    exact ih hrest

theorem ReplayCallback.KeepsCore.each_error (hkeeps : callback.KeepsCore)
    (events : List DomainEvent) {s s' : ReplayCore × τ} {fault : ReplayError}
    (h : each (commitWith hash callback) events s = .error (.replay fault) s') :
    ReplayCore.applyAll hash events s.1 = .error fault s'.1 := by
  induction events generalizing s with
  | nil => exact ((pure_error _ _ _ _).1 h).elim
  | cons event rest ih =>
    rw [ReplayCore.applyAll]
    rcases (bind_error _ _ _ _ _).1 h with h | ⟨⟨⟩, s₁, hfirst, hrest⟩
    · rcases commitWith_error h with ⟨fault', core, hfault, heq, rfl⟩ | ⟨fault', heq⟩
      · cases heq
        exact bind_of_error hfault _
      · cases heq
    · obtain ⟨commit, hcommit⟩ := hkeeps.commitWith_ok hfirst
      rw [bind_of_ok hcommit]
      exact ih hrest

theorem ReplayCallback.KeepsCore.last (hkeeps : callback.KeepsCore)
    {before : List PreparedOrderEvent}
    {last : PreparedOrderEvent} (hlast : PreparedOrderEvent.new hash last.event = .ok last)
    {s s' : ReplayCore × τ}
    (h : each (commitPrepared hash callback) (before ++ [last]) s = .ok () s') :
    s'.1.lastOrderingKey = some last.key ∧ s'.1.lastCanonicalEvent = some last.canonical := by
  rw [each_append] at h
  obtain ⟨⟨⟩, s₁, -, hsingle⟩ := (bind_ok _ _ _ _ _).1 h
  obtain ⟨⟨⟩, s₂, hstep, hnil⟩ := (bind_ok _ _ _ _ _).1 hsingle
  obtain rfl := ((pure_ok _ _ _ _).1 hnil).2
  rw [commitPrepared_of_new hlast] at hstep
  obtain ⟨commit, hcommit⟩ := hkeeps.commitWith_ok hstep
  have hadvance := ReplayCore.applyOrdered_ok hcommit
  obtain ⟨canonical, hkey, hcanonical⟩ := hadvance.key
  rw [(PreparedOrderEvent.new_ok.1 hlast).1, Except.ok.injEq, Prod.mk.injEq] at hkey
  rw [hadvance.lastKey, hcanonical, hkey.1, hkey.2]
  exact ⟨rfl, rfl⟩

/-- A replay stops where an event is refused because of the one before it. -/
theorem ReplayCallback.KeepsCore.each_refused (hkeeps : callback.KeepsCore)
    {before rest : List PreparedOrderEvent} {last next : PreparedOrderEvent} {error : ReplayError}
    (hlast : PreparedOrderEvent.new hash last.event = .ok last)
    (hrefused : ∀ core : ReplayCore, core.lastOrderingKey = some last.key →
      core.lastCanonicalEvent = some last.canonical →
      core.checkOrdered hash next.event next.key next.canonical = .error error) :
    each (commitPrepared hash callback) (before ++ last :: next :: rest) = (do
      each (commitPrepared hash callback) (before ++ [last])
      throw (.replay error)) := by
  rw [show before ++ last :: next :: rest = (before ++ [last]) ++ next :: rest by simp, each_append]
  funext s
  cases h : each (commitPrepared hash callback) (before ++ [last]) s with
  | error e s' => rw [bind_of_error h, bind_of_error h]
  | ok u s' =>
    rw [bind_of_ok h, bind_of_ok h, each]
    obtain ⟨hkey, hcanonical⟩ := hkeeps.last hlast h
    refine bind_of_error
      (bind_of_error ((zoom_error _ _ _ _ _ _ _).2 ⟨error, s'.1, ?_, rfl, rfl⟩) _) _
    unfold ReplayCore.applyPreparedOrdered
    rw [get_bind, lift_bind_error (hrefused s'.1 hkey hcanonical)]

/-- The error for an event that the ordering check refuses: its record is measured first. -/
def refusal (canonical : List UInt8) (error : ReplayError) : ReplayError :=
  if canonical.length < 2 ^ 32 then error else .canonicalEncoding .lengthOverflow

theorem checkOrdered_refused {core : ReplayCore} {event : DomainEvent} {key : OrderingKey}
    {canonical : List UInt8}
    {error : ReplayError} (h : core.validateGlobalOrder key canonical = .error error) :
    core.checkOrdered hash event key canonical = .error (refusal canonical error) := by
  unfold ReplayCore.checkOrdered ReplayEventStreamHasher.prepareCanonical refusal Unsigned.ofNat?
  split_ifs with hlength
  · simp only [okOr, Except.mapError]
    change (core.validateGlobalOrder key canonical >>= _) = _
    rw [h]
    rfl
  · rfl

theorem validateGlobalOrder_regression {core : ReplayCore} {key previous : OrderingKey}
    {canonical : List UInt8} (hlast : core.lastOrderingKey = some previous) (hlt : key < previous) :
    core.validateGlobalOrder key canonical = .error .globalOrderingRegression := by
  simp only [ReplayCore.validateGlobalOrder, hlast, compare_lt_iff_lt.2 hlt]

theorem validateGlobalOrder_collision {core : ReplayCore} {key : OrderingKey}
    {canonical previous : List UInt8}
    (hlast : core.lastOrderingKey = some key) (hcanonical : core.lastCanonicalEvent = some previous)
    (hne : previous ≠ canonical) :
    core.validateGlobalOrder key canonical = .error .eventFingerprintCollision := by
  simp [ReplayCore.validateGlobalOrder, hlast, hcanonical, hne, ensure]

theorem exists_of_anyAdjacent {α : Type} {p : α → α → Bool} {l : List α}
    (h : anyAdjacent p l = true) :
    ∃ before a b rest, l = before ++ a :: b :: rest ∧ p a b = true := by
  induction l with
  | nil => cases h
  | cons a l ih =>
    cases l with
    | nil => cases h
    | cons b l =>
      rw [anyAdjacent, Bool.or_eq_true] at h
      rcases h with h | h
      · exact ⟨[], a, b, l, rfl, h⟩
      · obtain ⟨before, c, d, rest, heq, hp⟩ := ih h
        exact ⟨a :: before, c, d, rest, by rw [heq, List.cons_append], hp⟩

end Frozen

end Osmium
