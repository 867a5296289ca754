import Osmium.Proofs.EventCodec
import Osmium.Sanity.Replay

/-! The canonical bytes of states and of replayed event streams say everything: no two states share
theirs, no two sets of states share a final state set, and no two replays feed the same bytes to the
event-stream checksum. -/

namespace Osmium
open Machine Bytes Codec Result Stateful CanonicalParser

section State

theorem appended_prefixFree {α : Type} {bytes : α → List UInt8}
    (h : PrefixFree fun a b => b = bytes a) :
    PrefixFree fun a b => (.ok (bytes a) : Encoding) = .ok b := by
  intro a a' b b' r r' ha ha' heq
  obtain ⟨rfl, hb, hr⟩ := h a a' b b' r r' (Except.ok.inj ha).symm (Except.ok.inj ha').symm heq
  exact ⟨rfl, hb, hr⟩

theorem constant_prefixFree (c : List UInt8) :
    PrefixFree fun (_ : Unit) b => (.ok c : Encoding) = .ok b :=
  appended_prefixFree fun _ _ _ _ _ _ hb hb' heq => by
    subst hb hb'
    exact ⟨rfl, rfl, List.append_cancel_left heq⟩

theorem EventKind.discriminant_injective : Function.Injective EventKind.discriminant := by
  intro a b h; cases a <;> cases b <;> first | rfl | exact absurd h (by decide)

theorem digest_prefixFree : PrefixFree fun (d : Digest) b => b = d.bytes := by
  rintro d d' b b' r r' rfl rfl heq
  obtain ⟨hbytes, hrest⟩ := List.append_inj heq (d.size.trans d'.size.symm)
  exact ⟨Digest.ext hbytes, hbytes, hrest⟩

theorem fingerprint_prefixFree : PrefixFree fun (f : EventFingerprint) b => b = f.digest.bytes :=
  digest_prefixFree.comap EventFingerprint.digest fun _ _ h => EventFingerprint.ext h

theorem instrument_prefixFree : PrefixFree fun (i : InstrumentId) b => appendInstrument i = .ok b :=
  ((appended_prefixFree
    (reads_u8.prefixFree.comap MarketId.discriminant MarketId.discriminant_injective)).seq
    (reads_string.prefixFree.comap Symbol.text fun _ _ h => Symbol.ext h)).comap
    (fun i : InstrumentId => (i.market, i.symbol))
    fun a b h => by
      simp only [Prod.mk.injEq] at h
      exact InstrumentId.ext h.1 h.2

theorem eventRef_prefixFree : PrefixFree fun (e : AppliedEventRef) b =>
    appendEventRef e = .ok b := by
  have htime := appended_prefixFree
    (reads_i64.prefixFree.comap MatchTime.unixMicroseconds fun _ _ h => MatchTime.ext h)
  have hformat :=
    reads_string.prefixFree.comap SourceFormatId.text fun _ _ h => SourceFormatId.ext h
  have hkind := appended_prefixFree
    (reads_u8.prefixFree.comap EventKind.discriminant EventKind.discriminant_injective)
  exact (((((htime.seq hformat).seq (appended_prefixFree reads_u8.prefixFree)).seq hkind).seq
    reads_sourceSequence.prefixFree).seq (appended_prefixFree fingerprint_prefixFree)).comap
    (fun e : AppliedEventRef =>
      (((((e.matchTime, e.sourceFormat), e.sourcePhase), e.eventKind), e.sourceSequence),
        e.eventFingerprint))
    fun a b h => by
      simp only [Prod.mk.injEq] at h
      exact AppliedEventRef.ext h.1.1.1.1.1 h.1.1.1.1.2 h.1.1.1.2 h.1.1.2 h.1.2 h.2

/-- The leading byte of a state field. -/
def StateField.tag {α : Type} : StateField α → UInt8
  | .unavailable .initial => 0
  | .unavailable (.cleared _) => 1
  | .known _ _ => 2
  | .unknown _ _ => 3

def StateField.body {α : Type} (enc : α → Encoding) : StateField α → Encoding
  | .unavailable .initial => .ok []
  | .unavailable (.cleared clearedAt) => appendEventRef clearedAt
  | .known value observedAt => appendEventRef observedAt ++ enc value
  | .unknown raw observedAt => appendEventRef observedAt ++ raw.appendCanonical

theorem appendStateField_eq {α : Type} (enc : α → Encoding) (field : StateField α) :
    appendStateField enc field = .ok [field.tag] ++ field.body enc := by
  cases field with
  | unavailable reason =>
    cases reason with
    | initial => rfl
    | cleared clearedAt => rfl
  | known value observedAt => exact encoded_append_assoc _ _ _
  | unknown raw observedAt => exact encoded_append_assoc _ _ _

theorem stateField_prefixFree {α : Type} {enc : α → Encoding}
    (henc : PrefixFree fun a b => enc a = .ok b) :
    PrefixFree fun (f : StateField α) b => appendStateField enc f = .ok b := by
  refine PrefixFree.tagged StateField.tag (StateField.body enc) (appendStateField_eq enc)
    fun a a' htag b b' r r' h h' heq => ?_
  rcases a with (_ | e) | ⟨v, e⟩ | ⟨v, e⟩ <;> rcases a' with (_ | e') | ⟨v', e'⟩ | ⟨v', e'⟩ <;>
    simp [StateField.tag] at htag
  · obtain rfl := Except.ok.inj h
    obtain rfl := Except.ok.inj h'
    exact ⟨rfl, rfl, heq⟩
  · obtain ⟨rfl, hb, hr⟩ := eventRef_prefixFree e e' b b' r r' h h' heq
    exact ⟨rfl, hb, hr⟩
  · obtain ⟨hv, hb, hr⟩ := (eventRef_prefixFree.seq henc) (e, v) (e', v') b b' r r' h h' heq
    obtain ⟨rfl, rfl⟩ := Prod.mk.inj hv
    exact ⟨rfl, hb, hr⟩
  · obtain ⟨hv, hb, hr⟩ :=
      (eventRef_prefixFree.seq reads_unknown.prefixFree) (e, v) (e', v') b b' r r' h h' heq
    obtain ⟨rfl, rfl⟩ := Prod.mk.inj hv
    exact ⟨rfl, hb, hr⟩

def presentBody {α : Type} (enc : α → Encoding) : Option α → Encoding
  | none => .ok []
  | some a => enc a

theorem present_prefixFree {α : Type} {enc : α → Encoding}
    (henc : PrefixFree fun a b => enc a = .ok b) :
    PrefixFree fun (o : Option α) b => appendPresent enc o = .ok b := by
  refine PrefixFree.tagged presence (presentBody enc) ?_
    fun a a' htag b b' r r' h h' heq => ?_
  · intro o
    cases o with
    | none => rfl
    | some a => rfl
  · cases a with
    | none =>
      cases a' with
      | none =>
        obtain rfl := Except.ok.inj h
        obtain rfl := Except.ok.inj h'
        exact ⟨rfl, rfl, heq⟩
      | some v' => exact absurd htag (by simp [presence])
    | some v =>
      cases a' with
      | none => exact absurd htag (by simp [presence])
      | some v' =>
        obtain ⟨rfl, hb, hr⟩ := henc v v' b b' r r' h h' heq
        exact ⟨rfl, hb, hr⟩

def MarketPhase.tag : MarketPhase → UInt8
  | .continuous => 1
  | .auction _ => 2
  | .closed => 3

theorem marketPhase_prefixFree :
    PrefixFree fun (p : MarketPhase) b => p.appendCanonical = .ok b := by
  refine PrefixFree.tagged MarketPhase.tag
    (fun p => match p with | .auction state => state.observation.appendCanonical | _ => .ok []) ?_
    fun a a' htag b b' r r' h h' heq => ?_
  · intro p
    cases p with
    | continuous => rfl
    | auction state => rfl
    | closed => rfl
  · match a, a', htag with
    | .continuous, .continuous, _ | .closed, .closed, _ =>
      obtain rfl := Except.ok.inj h
      obtain rfl := Except.ok.inj h'
      exact ⟨rfl, rfl, heq⟩
    | .auction ⟨o⟩, .auction ⟨o'⟩, _ =>
      obtain ⟨rfl, hb, hr⟩ := auctionObservation_prefixFree o o' b b' r r' h h' heq
      exact ⟨rfl, hb, hr⟩

def TradeObservation.tag : TradeObservation → UInt8
  | .single _ => 1
  | .batch _ _ _ => 2

def TradeObservation.body : TradeObservation → Encoding
  | .single trade => trade.appendCanonical
  | .batch trades tradeOrder _ =>
    .ok [tradeOrder.discriminant] ++
      (appendLength trades.length ++ encodeAll ObservedTrade.appendCanonical trades)

theorem tradeObservation_prefixFree : PrefixFree fun (t : TradeObservation) b =>
    t.appendCanonical = .ok b := by
  refine PrefixFree.tagged TradeObservation.tag TradeObservation.body ?_
    fun a a' htag b b' r r' h h' heq => ?_
  · intro t
    cases t with
    | single trade => rfl
    | batch trades tradeOrder _ =>
      simp only [TradeObservation.appendCanonical, TradeObservation.body, encoded_append_assoc]; rfl
  · rcases a with t | ⟨ts, o, _⟩ <;> rcases a' with
      t' | ⟨ts', o', _⟩ <;> simp [TradeObservation.tag] at htag
    · obtain ⟨rfl, hb, hr⟩ := reads_trade.prefixFree t t' b b' r r' h h' heq
      exact ⟨rfl, hb, hr⟩
    · obtain ⟨hv, hb, hr⟩ :=
        ((appended_prefixFree reads_tradeOrder.prefixFree).seq trades_prefixFree) (o, ts) (o', ts')
        b b' r r' h h' heq
      obtain ⟨rfl, rfl⟩ := Prod.mk.inj hv
      exact ⟨rfl, hb, hr⟩

/-- No state's bytes start another's, and equal bytes are the bytes of equal states. -/
theorem marketState_prefixFree :
    PrefixFree fun (s : MarketState) b => s.toCanonicalBytes = .ok b := by
  have hdate := appended_prefixFree
    (reads_i32.prefixFree.comap TradingDate.epochDays fun _ _ h => TradingDate.ext h)
  have hsegment := present_prefixFree (reads_string.prefixFree.comap SessionSegmentId.text
    fun _ _ h => SessionSegmentId.ext h)
  have hauction : PrefixFree fun (a : IndicativeAuction) b => a.appendCanonical = .ok b :=
    indicativeAuction_prefixFree
  have hheader := ((constant_prefixFree [79, 83, 77, 83]).seq
    (constant_prefixFree (ofUnsigned 2 canonicalMarketStateVersion))).seq
      (constant_prefixFree (ofUnsigned 2 marketStateVersion))
  exact (((((((((((hheader.seq instrument_prefixFree).seq hdate).seq hsegment).seq
    (appended_prefixFree reads_u64.prefixFree)).seq
    (stateField_prefixFree reads_book.prefixFree)).seq
      (stateField_prefixFree tradeObservation_prefixFree)).seq
    (stateField_prefixFree reads_volume.prefixFree)).seq (stateField_prefixFree hauction)).seq
    (stateField_prefixFree marketSignal_prefixFree)).seq
      (stateField_prefixFree marketPhase_prefixFree)).seq
    (present_prefixFree eventRef_prefixFree)).comap
    (fun s : MarketState =>
      (((((((((((((((), ()), ()), s.instrument), s.tradingDate), s.currentSegmentId),
        s.stateVersion),
      s.book), s.recentTrade), s.cumulativeVolume), s.indicativeAuction), s.marketSignal), s.phase),
      s.lastEvent)))
    fun a b h => by
      simp only [Prod.mk.injEq, true_and] at h
      obtain ⟨⟨⟨⟨⟨⟨⟨⟨⟨⟨hinstrument, hdate⟩, hsegment⟩, hversion⟩, hbook⟩, htrade⟩, hvolume⟩,
          hauction⟩, hsignal⟩, hphase⟩, hlast⟩ := h
      exact MarketState.ext hinstrument hdate hsegment hbook htrade hvolume hauction hsignal hphase
        hlast hversion

end State

section FinalStates

theorem framedBytes_prefixFree : PrefixFree fun (s : MarketState) b => s.framedBytes = .ok b := by
  intro a a' b b' r r' ha ha' heq
  simp only [MarketState.framedBytes, bind_eq_ok] at ha ha'
  obtain ⟨bytes, hbytes, hframe⟩ := ha
  obtain ⟨bytes', hbytes', hframe'⟩ := ha'
  obtain ⟨rfl, hb, hr⟩ := reads_bytes.prefixFree bytes bytes' b b' r r' hframe hframe' heq
  obtain ⟨rfl, -, -⟩ := marketState_prefixFree a a' bytes bytes [] [] hbytes hbytes' rfl
  exact ⟨rfl, hb, hr⟩

instance : IsTrans MarketState instrumentBefore :=
  ⟨fun _ _ _ hab hbc => Std.TransCmp.isLE_trans hab hbc⟩

instance : Std.Total instrumentBefore := ⟨fun a b => by
  unfold instrumentBefore
  rw [Order.compare_swap a.instrument b.instrument]
  cases compare a.instrument b.instrument with
  | lt => exact .inl rfl
  | eq => exact .inl rfl
  | gt => exact .inr rfl⟩

theorem instrument_eq_of_before {a b : MarketState} (hab : instrumentBefore a b)
    (hba : instrumentBefore b a) :
    a.instrument = b.instrument := by
  unfold instrumentBefore at hab hba
  rw [Order.compare_swap a.instrument b.instrument] at hba
  cases h : compare a.instrument b.instrument with
  | lt => simp [h] at hba
  | eq => exact Std.LawfulEqCmp.eq_of_compare h
  | gt => simp [h] at hab

/-- Among sorted states neighbours say whether an instrument occurs twice. -/
theorem anyAdjacent_instrument {states : List MarketState} (h : states.Pairwise instrumentBefore) :
    anyAdjacent (fun a b => a.instrument = b.instrument) states = false ↔
    (states.map MarketState.instrument).Nodup := by
  induction states with
  | nil => simp [anyAdjacent]
  | cons a rest ih =>
    obtain ⟨hfirst, hrest⟩ := List.pairwise_cons.1 h
    rw [List.map_cons, List.nodup_cons, ← ih hrest]
    cases rest with
    | nil => simp [anyAdjacent]
    | cons b rest =>
      simp only [anyAdjacent, Bool.or_eq_false_iff, decide_eq_false_iff_not, and_congr_left_iff]
      intro _
      refine not_congr ⟨fun heq => ?_, fun hmem => ?_⟩
      · rw [heq]
        exact List.mem_cons_self
      · obtain ⟨c, hc, heq⟩ := List.mem_map.1 hmem
        rcases List.mem_cons.1 hc with rfl | hc
        · exact heq.symm
        -- the neighbour lies between two states of one instrument
        · have hbc := (List.pairwise_cons.1 hrest).1 c hc
          have hab := hfirst b List.mem_cons_self
          refine instrument_eq_of_before hab ?_
          unfold instrumentBefore at hbc ⊢
          rwa [heq] at hbc

theorem canonicalFinalStateSet_perm {states states' : List MarketState} (h : states.Perm states') :
    canonicalFinalStateSet states = canonicalFinalStateSet states' := by
  have hperm := states.perm_insertionSort instrumentBefore
  have hperm' := states'.perm_insertionSort instrumentBefore
  have hsorted := List.pairwise_insertionSort instrumentBefore states
  have hsorted' := List.pairwise_insertionSort instrumentBefore states'
  have hsame := hperm.trans (h.trans hperm'.symm)
  unfold canonicalFinalStateSet
  by_cases hnodup : ((states.insertionSort instrumentBefore).map MarketState.instrument).Nodup
  · have heq : states.insertionSort instrumentBefore = states'.insertionSort instrumentBefore := by
      refine hsame.eq_of_pairwise (fun a b ha hb hab hba => ?_) hsorted hsorted'
      exact List.inj_on_of_nodup_map hnodup ha (hsame.mem_iff.2 hb)
        (instrument_eq_of_before hab hba)
    rw [heq]
  · have hnodup' : ¬ ((states'.insertionSort instrumentBefore).map MarketState.instrument).Nodup :=
      fun h' => hnodup ((hsame.map _).nodup_iff.2 h')
    rw [← anyAdjacent_instrument hsorted] at hnodup
    rw [← anyAdjacent_instrument hsorted'] at hnodup'
    simp only [ensure, if_neg hnodup, if_neg hnodup']
    rfl

theorem perm_of_canonicalFinalStateSet {states states' : List MarketState} {bytes : List UInt8}
    (h : canonicalFinalStateSet states = .ok bytes)
    (h' : canonicalFinalStateSet states' = .ok bytes) :
    states.Perm states' := by
  have hset := (constant_prefixFree [79, 83, 77, 70]).seq
    ((constant_prefixFree (ofUnsigned 2 canonicalFinalStateSetVersion)).seq
    (counted_prefixFree framedBytes_prefixFree))
  simp only [canonicalFinalStateSet, bind_eq_ok, mapError_eq_ok, encoded_append_assoc] at h h'
  obtain ⟨_, -, hbytes⟩ := h
  obtain ⟨_, -, hbytes'⟩ := h'
  obtain ⟨heq, -, -⟩ := hset ((), (), _) ((), (), _) bytes bytes [] [] hbytes hbytes' rfl
  have hsorted : states.insertionSort instrumentBefore = states'.insertionSort instrumentBefore :=
    (Prod.mk.inj (Prod.mk.inj heq).2).2
  exact (states.perm_insertionSort instrumentBefore).symm.trans
    (hsorted ▸ states'.perm_insertionSort instrumentBefore)

end FinalStates

section EventStream

/-- The bytes the event-stream checksum hashes. -/
def ReplayEventStreamHasher.checksumPreimage (self : ReplayEventStreamHasher) : List UInt8 :=
  self.preimage ++ [0] ++ ofUnsigned 8 self.eventCount

theorem checksum_eq (hash : List UInt8 → Digest) (self : ReplayEventStreamHasher) :
    self.checksum hash = hash self.checksumPreimage := rfl

/-- One event of the preimage. -/
def streamRecord (event : DomainEvent) : Encoding := do
  let canonical ← event.toCanonicalBytes
  .ok [1] ++ appendBytes canonical

theorem streamRecord_prefixFree : PrefixFree fun (e : DomainEvent) b => streamRecord e = .ok b := by
  intro a a' b b' r r' ha ha' heq
  simp only [streamRecord, bind_eq_ok] at ha ha'
  obtain ⟨bytes, hbytes, hframe⟩ := ha
  obtain ⟨bytes', hbytes', hframe'⟩ := ha'
  obtain ⟨hsame, hb, hr⟩ :=
    ((constant_prefixFree [1]).seq reads_bytes.prefixFree) ((), bytes) ((), bytes') b b' r r' hframe
    hframe' heq
  obtain ⟨-, rfl⟩ := Prod.mk.inj hsame
  obtain ⟨rfl, -, -⟩ := event_prefixFree a a' bytes bytes [] [] hbytes hbytes' rfl
  exact ⟨rfl, hb, hr⟩

theorem streamRecord_first {event : DomainEvent} {b : List UInt8} (h : streamRecord event = .ok b) :
    ∃ first rest, b = first :: rest ∧ first ≠ 0 := by
  simp only [streamRecord, bind_eq_ok, append_eq_ok, Except.ok.injEq] at h
  obtain ⟨_, -, _, rfl, rest, -, rfl⟩ := h
  exact ⟨1, rest, rfl, by decide⟩

/-- The stream has been fed exactly these events. -/
def FedWith (core : ReplayCore) (events : List DomainEvent) : Prop :=
  ∃ records, encodeAll streamRecord events = .ok records ∧
    core.eventStream.preimage = ReplayEventStreamHasher.new.preimage ++ records

theorem encodeAll_append {α : Type} (enc : α → Encoding) (l l' : List α) :
    encodeAll enc (l ++ l') = encodeAll enc l ++ encodeAll enc l' := by
  induction l with
  | nil =>
    rw [List.nil_append]
    cases encodeAll enc l' with
    | ok b => rfl
    | error e => rfl
  | cons a rest ih => rw [List.cons_append, encodeAll, encodeAll, ih, encoded_append_assoc]

/-- A commit feeds its event to the stream. -/
theorem FedWith.commit {hash : List UInt8 → Digest} {core core' : ReplayCore} {event : DomainEvent}
    {commit : CoreCommit} {events : List DomainEvent} (h : FedWith core events)
    (happly : ReplayCore.applyOrdered hash event core = .ok commit core') :
    FedWith core' (events ++ [event]) := by
  obtain ⟨⟨key, canonical⟩, s₁, hlift, happly⟩ := (bind_ok _ _ _ _ _).1 happly
  obtain ⟨hkey, rfl⟩ := (lift_ok _ _ _ _).1 hlift
  obtain ⟨self, s₂, hget, happly⟩ := (bind_ok _ _ _ _ _).1 happly
  obtain ⟨rfl, rfl⟩ := (get_ok _ _ _).1 hget
  obtain ⟨⟨prepared, nextOrdinal, state, receipt⟩, s₃, hchecked, happly⟩ :=
    (bind_ok _ _ _ _ _).1 happly
  obtain ⟨hcheck, rfl⟩ := (lift_ok _ _ _ _).1 hchecked
  obtain ⟨u, s₄, hset, happly⟩ := (bind_ok _ _ _ _ _).1 happly
  obtain ⟨-, rfl⟩ := (pure_ok _ _ _ _).1 happly
  obtain rfl := (set_ok _ _ _ _).1 hset
  simp only [ReplayCore.checkOrdered, ReplayEventStreamHasher.prepareCanonical, bind_eq_ok,
    mapError_eq_ok, okOr_eq_ok, pure_eq_ok, Prod.mk.injEq] at hcheck
  obtain ⟨_, ⟨length, hlength, rfl⟩, _, -, _, -, _, -, _, -, rfl, rfl, -, -⟩ := hcheck
  obtain ⟨records, hrecords, hpreimage⟩ := h
  have hcanonical := (OrderingKey.forEventAndCanonical_ok ((mapError_eq_ok _ _ _).1 hkey)).2.1
  have hcount : appendLength canonical.length = .ok (ofUnsigned 4 length) :=
    (appendLength_eq_ok _ _).2 ⟨length, (Unsigned.ofNat?_eq_some _ _).1 hlength, rfl⟩
  have hrecord : streamRecord event = .ok ([1] ++ (ofUnsigned 4 length ++ canonical)) := by
    rw [streamRecord, hcanonical]
    change .ok [1] ++ (appendLength canonical.length ++ .ok canonical) = _
    rw [hcount]
    rfl
  refine ⟨records ++ ([1] ++ (ofUnsigned 4 length ++ canonical)), ?_, ?_⟩
  · rw [encodeAll_append, hrecords, encodeAll, hrecord]
    simp [encodeAll]
  · simp only [ReplayEventStreamHasher.appendPrepared, hpreimage, List.append_assoc]

theorem FedWith.attemptAll (hash : List UInt8 → Digest) (offered : List DomainEvent)
    {core : ReplayCore} {events : List DomainEvent} (h : FedWith core events) :
    FedWith (ReplayCore.attemptAll hash offered core).2
      (events ++ (ReplayCore.attemptAll hash offered core).1.map ReplayCore.Committed.event) := by
  induction offered generalizing core events with
  | nil =>
    rw [ReplayCore.attemptAll, List.map_nil, List.append_nil]
    exact h
  | cons event rest ih =>
    rw [ReplayCore.attemptAll]
    cases happly : ReplayCore.applyOrdered hash event core with
    | ok commit core' =>
      have hrest := ih (h.commit happly)
      rwa [List.append_assoc] at hrest
    | error e core' =>
      obtain rfl := ReplayCore.atomic_applyOrdered hash event core e core' happly
      exact ih h

theorem FedWith.initial {states : List MarketState}
    {reducers : List (InstrumentId × MarketStateReducer)}
    {reducerContexts : List (InstrumentId × ReducerContext)}
    {schedules : List (InstrumentId × List ReplayContextWindow)} {core : ReplayCore}
    (h : ReplayCore.newMultiWithSchedules states reducers reducerContexts schedules = .ok core) :
    FedWith core [] := by
  obtain ⟨-, -, -, hstream, -⟩ := ReplayCore.newMultiWithSchedules_unstarted h
  exact ⟨[], rfl, by rw [hstream, List.append_nil]⟩

theorem events_of_preimage {core core' : ReplayCore} {events events' : List DomainEvent}
    (h : FedWith core events) (h' : FedWith core' events')
    (heq : core.eventStream.checksumPreimage = core'.eventStream.checksumPreimage) :
    events = events' ∧ core.eventStream.eventCount = core'.eventStream.eventCount := by
  obtain ⟨records, hrecords, hpreimage⟩ := h
  obtain ⟨records', hrecords', hpreimage'⟩ := h'
  simp only [ReplayEventStreamHasher.checksumPreimage, hpreimage, hpreimage', List.append_assoc,
    List.append_cancel_left_eq, List.singleton_append] at heq
  obtain ⟨hevents, -, hcount⟩ :=
    streamRecord_prefixFree.terminated (fun _ _ => streamRecord_first) hrecords hrecords' heq
  exact ⟨hevents, (reads_u64.prefixFree _ _ _ _ [] [] rfl rfl (congrArg (· ++ []) hcount)).1⟩

end EventStream

/-- Canonical bytes are faithful: those of a state, those of a set of final states in any order, and
those the event-stream checksum of a replay is computed from. -/
theorem canonical_bytes_faithful (hash : List UInt8 → Digest) :
    (∀ (state state' : MarketState) (bytes : List UInt8),
      state.toCanonicalBytes = .ok bytes → state'.toCanonicalBytes = .ok bytes → state = state') ∧
    (∀ states states' : List MarketState, states.Perm states' →
      canonicalFinalStateSet states = canonicalFinalStateSet states') ∧
    (∀ (states states' : List MarketState) (bytes : List UInt8),
      canonicalFinalStateSet states = .ok bytes → canonicalFinalStateSet states' = .ok bytes →
      states.Perm states') ∧
    (∀ stream : ReplayEventStreamHasher, stream.checksum hash = hash stream.checksumPreimage) ∧
    ∀ (states states' : List MarketState)
    (reducers reducers' : List (InstrumentId × MarketStateReducer))
      (contexts contexts' : List (InstrumentId × ReducerContext))
      (schedules schedules' : List (InstrumentId × List ReplayContextWindow))
      (core core' : ReplayCore)
      (offered offered' : List DomainEvent),
      ReplayCore.newMultiWithSchedules states reducers contexts schedules = .ok core →
      ReplayCore.newMultiWithSchedules states' reducers' contexts' schedules' = .ok core' →
      (ReplayCore.attemptAll hash offered core).2.eventStream.checksumPreimage =
        (ReplayCore.attemptAll hash offered' core').2.eventStream.checksumPreimage →
      (ReplayCore.attemptAll hash offered core).1.map ReplayCore.Committed.event =
          (ReplayCore.attemptAll hash offered' core').1.map ReplayCore.Committed.event ∧
        (ReplayCore.attemptAll hash offered core).2.eventStream.eventCount =
          (ReplayCore.attemptAll hash offered' core').2.eventStream.eventCount := by
  refine ⟨fun state state' bytes h h' => ?_, fun _ _ => canonicalFinalStateSet_perm,
    fun _ _ _ => perm_of_canonicalFinalStateSet, checksum_eq hash, ?_⟩
  · exact (marketState_prefixFree state state' bytes bytes [] [] h h' rfl).1
  · intro _ _ _ _ _ _ _ _ core core' offered offered' hcore hcore' heq
    have h := FedWith.attemptAll hash offered (FedWith.initial hcore)
    have h' := FedWith.attemptAll hash offered' (FedWith.initial hcore')
    exact events_of_preimage h h' heq

end Osmium
