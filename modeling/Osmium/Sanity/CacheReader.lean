import Osmium.Sanity.Cache
import Osmium.Sanity.Streams
import Osmium.Proofs.EventCodec
import Osmium.Spec.CacheReader

/-! What a cache yields. The reader takes a record off the file exactly when the file goes on with
the record of an event that may stand there, and it comes to its end exactly when the file is the
records and the descriptor tells of them. -/

namespace Osmium
open Machine Bytes Result Stateful Directories
open Files (FilePath)

section Reading
variable {file rest bytes : List UInt8}

theorem readExact_ok {length : ℕ} : readExact length file = .ok bytes rest ↔
    file = bytes ++ rest ∧ bytes.length = length := by
  rw [readExact, get_bind]
  by_cases hlength : length ≤ file.length
  · rw [if_pos hlength]
    refine (bind_ok _ _ _ _ _).trans ?_
    simp only [set_ok, pure_ok]
    constructor
    · rintro ⟨_, _, rfl, rfl, rfl⟩
      exact ⟨(List.take_append_drop length file).symm, List.length_take_of_le hlength⟩
    · rintro ⟨rfl, rfl⟩
      exact ⟨⟨⟩, _, rfl, List.take_left, List.drop_left⟩
  · rw [if_neg hlength]
    refine (bind_ok _ _ _ _ _).trans ?_
    simp only [throw_ok, and_false, exists_false, false_iff]
    rintro ⟨rfl, rfl⟩
    exact hlength (by simp)

/-- A big-endian number stands at the front. -/
theorem readUnsigned_ok {k w : ℕ} (hk : 256 ^ k = 2 ^ w) {value : Unsigned w} :
    (do return toUnsigned w (← readExact k) : ReadOp (Unsigned w)) file = .ok value rest ↔
      file = ofUnsigned k value ++ rest := by
  rw [bind_ok]
  simp only [readExact_ok, pure_ok]
  constructor
  · rintro ⟨bytes, _, ⟨rfl, rfl⟩, rfl, rfl⟩
    rw [ofUnsigned_toUnsigned bytes hk]
  · rintro rfl
    exact ⟨_, rest, ⟨rfl, length_ofUnsigned k value⟩, toUnsigned_ofUnsigned k hk value, rfl⟩

theorem readU16_ok {value : U16} : readU16 file = .ok value rest ↔
    file = ofUnsigned 2 value ++ rest :=
  readUnsigned_ok (by norm_num)

theorem readU32_ok {value : U32} : readU32 file = .ok value rest ↔
    file = ofUnsigned 4 value ++ rest :=
  readUnsigned_ok (by norm_num)

theorem readU64_ok {value : U64} : readU64 file = .ok value rest ↔
    file = ofUnsigned 8 value ++ rest :=
  readUnsigned_ok (by norm_num)

theorem validateEventRecordLength_ok {length : U32} {n : ℕ} :
    validateEventRecordLength length = .ok n ↔
    length ≤ maxCacheEventRecordBytes ∧ length.val = n := by
  simp [validateEventRecordLength]

end Reading

/-- The instrument and the date of an event are those of the descriptor. -/
def Covers (descriptor : CacheDescriptor) (event : DomainEvent) : Prop :=
  event.instrument.market.discriminant = descriptor.instrumentMarket ∧
    event.instrument.symbol.text = descriptor.instrumentSymbol ∧
    event.tradingDate.epochDays = descriptor.tradingDateEpochDays

theorem validateEvent_ok {descriptor : CacheDescriptor} {event : DomainEvent} {u : Unit} :
    validateEvent descriptor event = .ok u ↔ Covers descriptor event := ensure_eq_ok _ _ _

/-- The keys of the events can be computed and never decrease, from a key on. -/
def Ascends (hash : List UInt8 → Digest) : Option OrderingKey → List DomainEvent → Prop
  | _, [] => True
  | previous, event :: rest => ∃ key, OrderingKey.forEvent hash event = .ok key ∧
      (∀ before ∈ previous, before ≤ key) ∧
      Ascends hash (some key) rest

theorem forEvent_iff {hash : List UInt8 → Digest} {event : DomainEvent} {key : OrderingKey} :
    OrderingKey.forEvent hash event = .ok key ↔
    ∃ item, PreparedOrderEvent.new hash event = .ok item ∧ item.key = key := by
  simp only [OrderingKey.forEvent, bind_eq_ok, pure_eq_ok, Prod.exists, PreparedOrderEvent.new_ok]
  constructor
  · rintro ⟨_, canonical, hboth, rfl⟩
    exact ⟨⟨event, _, canonical⟩, ⟨hboth, rfl⟩, rfl⟩
  · rintro ⟨item, ⟨hboth, -⟩, rfl⟩
    exact ⟨_, _, hboth, rfl⟩

theorem ascends_iff (hash : List UInt8 → Digest) (previous : Option OrderingKey)
    (events : List DomainEvent) :
    Ascends hash previous events ↔ ∃ prepared, prepareAll hash events = .ok prepared ∧
    prepared.Pairwise keyBefore ∧
      ∀ before ∈ previous, ∀ item ∈ prepared, before ≤ item.key := by
  induction events generalizing previous with
  | nil => exact ⟨fun _ => ⟨[], rfl, .nil, by simp⟩, fun _ => trivial⟩
  | cons event rest ih =>
    simp only [Ascends, ih, prepareAll, bind_eq_ok, pure_eq_ok, forEvent_iff]
    constructor
    · rintro ⟨_, ⟨item, hitem, rfl⟩, hbefore, prepared, hprepared, hsorted, hfirst⟩
      refine ⟨item :: prepared, ⟨item, hitem, prepared, hprepared, rfl⟩, ?_, fun before hmem => ?_⟩
      · exact List.pairwise_cons.2 ⟨hfirst item.key rfl, hsorted⟩
      · refine List.forall_mem_cons.2 ⟨hbefore before hmem, fun other hother => ?_⟩
        exact (hbefore before hmem).trans (hfirst item.key rfl other hother)
    · rintro ⟨_, ⟨item, hitem, prepared, hprepared, rfl⟩, hsorted, hbefore⟩
      obtain ⟨hfirst, hsorted⟩ := List.pairwise_cons.1 hsorted
      refine ⟨item.key, ⟨item, hitem, rfl⟩, fun before hmem =>
        hbefore before hmem item List.mem_cons_self, prepared, hprepared,
        hsorted, fun before hmem => ?_⟩
      cases hmem
      exact hfirst

/-- From nothing on, the keys ascend just where the events are in order. -/
theorem ascends_none (hash : List UInt8 → Digest) (events : List DomainEvent) :
    Ascends hash none events ↔ InOrder hash events := by
  rw [ascends_iff]
  refine exists_congr fun prepared => and_congr_right fun _ => and_iff_left fun before hmem => ?_
  cases hmem

namespace CacheBuilder

theorem eventRecord_ok {event : DomainEvent} {record : List UInt8} :
    eventRecord event = .ok record ↔
    ∃ bytes length, event.toCanonicalBytes = .ok bytes ∧ length.val = bytes.length ∧
    length ≤ maxCacheEventRecordBytes ∧
      ofUnsigned 4 length ++ bytes = record := by
  simp only [eventRecord, bind_eq_ok, mapError_eq_ok, okOr_eq_ok, Unsigned.ofNat?_eq_some,
    ensure_eq_ok, pure_eq_ok, exists_const, exists_and_left]

theorem payloadOf_cons {event : DomainEvent} {rest : List DomainEvent} {payload : List UInt8} :
    payloadOf (event :: rest) = .ok payload ↔
    ∃ record tail, eventRecord event = .ok record ∧ payloadOf rest = .ok tail ∧
      record ++ tail = payload := by
  simp only [payloadOf, bind_eq_ok, pure_eq_ok, exists_and_left]

end CacheBuilder

namespace CacheReader
open CacheBuilder (payloadOf payloadOf_cons)
variable {env : CacheEnv} {self self' : CacheReader} {event : DomainEvent}

/-- The reader behind a record. -/
def past (self : CacheReader) (event : DomainEvent) (record rest : List UInt8) (key : OrderingKey) :
    CacheReader :=
  { self with
    reader := rest
    hasher := self.hasher ++ record
    previousKey := some key
    firstMatchTime := self.firstMatchTime.or (some event.matchTime.unixMicroseconds)
    lastMatchTime := some event.matchTime.unixMicroseconds
    ordinal := Unsigned.wrap 64 (self.ordinal.val + 1)
    remaining := self.remaining.wrappingSub (Unsigned.wrap 64 1) }

theorem readRecordBytes_ok {bytes : List UInt8} : readRecordBytes self = .ok bytes self' ↔
    ∃ length rest, length ≤ maxCacheEventRecordBytes ∧ length.val = bytes.length ∧
      self.reader = ofUnsigned 4 length ++ bytes ++ rest ∧
      { self with reader := rest, hasher := self.hasher ++ (ofUnsigned 4 length ++ bytes) } =
        self' := by
  simp only [readRecordBytes, bind_ok, onFile, zoom_ok, lift_ok, modify_ok, pure_ok, readU32_ok,
    readExact_ok, validateEventRecordLength_ok]
  constructor
  · rintro ⟨length, _, ⟨afterLength, hlength, rfl⟩, n, _, ⟨⟨hle, rfl⟩, rfl⟩, bytes, _,
      ⟨rest, ⟨hrest, hbytes⟩, rfl⟩, _, _, rfl, rfl, rfl⟩
    refine ⟨length, rest, hle, hbytes.symm, ?_, rfl⟩
    rw [hlength, List.append_assoc]
    exact congrArg _ hrest
  · rintro ⟨length, rest, hle, hbytes, hreader, hself⟩
    refine ⟨length, _, ⟨bytes ++ rest, by rw [hreader, List.append_assoc], rfl⟩, length.val, _,
      ⟨⟨hle, rfl⟩, rfl⟩, bytes, _, ⟨rest, ⟨rfl, hbytes.symm⟩, rfl⟩, ⟨⟩, _, rfl, rfl, hself⟩

/-- A record is read where the file goes on with the record of an event that decodes, is of the
descriptor, and does not come before the one read last. -/
theorem readRecord_ok {event : DomainEvent} {ordinal : U64} :
    readRecord env self = .ok ⟨ordinal, event⟩ self' ↔
    self.ordinal = ordinal ∧ ∃ record rest key, CacheBuilder.eventRecord event = .ok record ∧
    event.AuctionsWellFormed ∧
      self.reader = record ++ rest ∧ Covers self.descriptor event ∧
      OrderingKey.forEvent env.hash event = .ok key ∧
      (∀ previous ∈ self.previousKey, previous ≤ key) ∧
      self.past event record rest key = self' := by
  simp only [readRecord, bind_ok, lift_ok, get_ok, set_ok, pure_ok, mapError_eq_ok,
    validateEvent_ok, ensure_eq_ok,
    readRecordBytes_ok, fromCanonicalBytes_eq_ok, CacheBuilder.eventRecord_ok, CacheRecord.mk.injEq]
  constructor
  · rintro ⟨bytes, _, ⟨length, rest, hle, hlength, hreader, rfl⟩, _, _, ⟨rfl, rfl⟩, _, _,
      ⟨⟨hwell, hbytes⟩, rfl⟩, _, _,
      ⟨hcovers, rfl⟩, key, _, ⟨hkey, rfl⟩, _, _, ⟨hbefore, rfl⟩, _, _, rfl, ⟨hordinal, rfl⟩, rfl⟩
    exact ⟨hordinal, _, rest, key, ⟨bytes, length, hbytes, hlength, hle, rfl⟩, hwell, hreader,
      hcovers, hkey, hbefore, rfl⟩
  · rintro ⟨hordinal, _, rest, key, ⟨bytes, length, hbytes, hlength, hle, rfl⟩, hwell, hreader,
      hcovers, hkey, hbefore, hself⟩
    exact ⟨bytes, _, ⟨length, rest, hle, hlength, hreader, rfl⟩, _, _, ⟨rfl, rfl⟩, event, _,
      ⟨⟨hwell, hbytes⟩, rfl⟩, (), _,
      ⟨hcovers, rfl⟩, key, _, ⟨hkey, rfl⟩, (), _, ⟨hbefore, rfl⟩, ⟨⟩, _, rfl,
      ⟨hordinal, rfl⟩, hself⟩

/-- The reader is done: nothing is left, and the descriptor tells of what was read. -/
theorem finish_ok {record : Option CacheRecord} : finish env self = .ok record self' ↔
    record = none ∧ self.reader = [] ∧
    Hex.text (env.sha256 self.hasher).bytes = self.descriptor.payloadSha256 ∧
      self.firstMatchTime = self.descriptor.firstMatchTimeMicros ∧
      self.lastMatchTime = self.descriptor.lastMatchTimeMicros ∧
      { self with finished := true } = self' := by
  rw [finish, get_bind]
  cases hreader : self.reader with
  | nil =>
    simp only [bind_ok, lift_ok, set_ok, pure_ok, ensure_eq_ok, true_and]
    constructor
    · rintro ⟨_, _, ⟨hhash, rfl⟩, _, _, ⟨⟨hfirst, hlast⟩, rfl⟩, _, _, rfl, rfl, rfl⟩
      exact ⟨rfl, hhash, hfirst, hlast, rfl⟩
    · rintro ⟨rfl, hhash, hfirst, hlast, hself⟩
      exact ⟨(), _, ⟨hhash, rfl⟩, (), _, ⟨⟨hfirst, hlast⟩, rfl⟩, ⟨⟩, _, rfl, rfl, hself⟩
  | cons byte rest =>
    simp only [bind_ok, set_ok, throw_ok, and_false, exists_false, reduceCtorEq, false_and]

section Opening
variable {nodes : Nodes} {path : FilePath} {file : List UInt8} {reader : CacheReader}

theorem readFile_ok : readFile nodes path = .ok file ↔ nodes[path]? = some (.file file) := by
  refine (map_eq_ok _ _ _).trans ?_
  simp only [mapError_eq_ok, Prod.exists, runOn_eq_ok, read_ok]
  constructor
  · rintro ⟨_, _, ⟨hfile, -⟩, rfl⟩
    exact hfile
  · intro hfile
    exact ⟨file, nodes, ⟨hfile, rfl⟩, rfl⟩

/-- A reader that has only been opened. -/
def fresh (descriptor : CacheDescriptor) (rest : List UInt8) : CacheReader where
  reader := rest
  descriptor := descriptor
  remaining := descriptor.eventCount
  ordinal := 0
  hasher := []
  previousKey := none
  firstMatchTime := none
  lastMatchTime := none
  finished := false

/-- What the events file of a descriptor begins with. -/
def headerOf (descriptor : CacheDescriptor) : List UInt8 :=
  cacheMagic ++ ofUnsigned 2 cacheFormatVersion ++ ofUnsigned 8 descriptor.eventCount

theorem readHeader_ok {descriptor : CacheDescriptor} {count : U64} {rest : List UInt8} :
    readHeader descriptor file = .ok count rest ↔
    count = descriptor.eventCount ∧ file = headerOf descriptor ++ rest := by
  simp only [readHeader, bind_ok, readExact_ok, lift_ok, ensure_eq_ok, readU16_ok,
    readU64_ok, pure_ok]
  constructor
  · rintro ⟨_, _, ⟨rfl, -⟩, _, _, ⟨rfl, rfl⟩, version, _, rfl, count, _, rfl, _, _,
      ⟨⟨rfl, rfl⟩, rfl⟩, rfl, rfl⟩
    exact ⟨rfl, by simp only [headerOf, List.append_assoc]⟩
  · rintro ⟨rfl, rfl⟩
    refine ⟨cacheMagic, _, ⟨by rw [headerOf, List.append_assoc, List.append_assoc], rfl⟩, (), _,
      ⟨rfl, rfl⟩, cacheFormatVersion, _,
      by
        rw [← List.append_assoc], descriptor.eventCount, rest, rfl, (), _,
          ⟨⟨rfl, rfl⟩, rfl⟩, rfl, rfl⟩

/-- A cache opens where its descriptor can be read, is of these versions and of the expected
revision, and its events file begins as the descriptor says. -/
theorem openInner_ok {expected : Option Text} : openInner env nodes path expected = .ok reader ↔
    ∃ text rest, nodes[path ++ [descriptorName]]? = some (.file text) ∧
      env.descriptorFromSlice text = .ok reader.descriptor ∧ isCompatible reader.descriptor = true ∧
      (∀ revision ∈ expected, reader.descriptor.sourceRevisionIdentity = revision) ∧
      nodes[path ++ [eventsName]]? = some (.file (headerOf reader.descriptor ++ rest)) ∧
      reader = fresh reader.descriptor rest := by
  simp only [openInner, bind_eq_ok, pure_eq_ok, mapError_eq_ok, readFile_ok, validateDescriptor,
    ensure_eq_ok, runOn_eq_ok, readHeader_ok, Prod.exists]
  constructor
  · rintro ⟨text, htext, descriptor, hdescriptor, _, hcompatible, _, hexpected, file, hfile, count,
      rest, ⟨rfl, rfl⟩, rfl⟩
    exact ⟨text, rest, htext, hdescriptor, hcompatible, hexpected, hfile, rfl⟩
  · rintro ⟨text, rest, htext, hdescriptor, hcompatible, hexpected, hfile, hreader⟩
    exact ⟨text, htext, reader.descriptor, hdescriptor, (), hcompatible, (), hexpected, _, hfile,
      reader.descriptor.eventCount, rest, ⟨rfl, rfl⟩, hreader.symm⟩

end Opening

section Runs

theorem nextEvent_some {event : DomainEvent} : nextEvent env self = .ok (some event) self' ↔
    self.finished = false ∧ self.remaining.val ≠ 0 ∧
    readRecord env self = .ok ⟨self.ordinal, event⟩ self' := by
  simp only [nextEvent, bind_ok, pure_ok, Option.map_eq_some_iff]
  constructor
  · rintro ⟨_, next, hrecord, ⟨⟨ordinal, _⟩, rfl, rfl⟩, rfl⟩
    rw [nextRecord, get_bind] at hrecord
    split_ifs at hrecord with hfinished hremaining
    · cases ((pure_ok _ _ _ _).1 hrecord).1
    · cases (finish_ok.1 hrecord).1
    · obtain ⟨record, _, hread, hsome⟩ := (bind_ok _ _ _ _ _).1 hrecord
      cases hsome
      refine ⟨Bool.eq_false_iff.2 hfinished, hremaining, ?_⟩
      rw [(readRecord_ok.1 hread).1]
      exact hread
  · rintro ⟨hfinished, hremaining, hread⟩
    refine ⟨_, self', ?_, ⟨⟨self.ordinal, event⟩, rfl, rfl⟩, rfl⟩
    rw [nextRecord, get_bind, if_neg (by simp [hfinished]), if_neg hremaining]
    exact (bind_ok _ _ _ _ _).2 ⟨_, self', hread, rfl⟩

theorem nextEvent_none : nextEvent env self = .ok none self' ↔
    self.finished = true ∧ self = self' ∨
      self.finished = false ∧ self.remaining.val = 0 ∧ finish env self = .ok none self' := by
  simp only [nextEvent, bind_ok, pure_ok, Option.map_eq_none_iff]
  constructor
  · rintro ⟨_, next, hrecord, rfl, rfl⟩
    rw [nextRecord, get_bind] at hrecord
    split_ifs at hrecord with hfinished hremaining
    · exact .inl ⟨hfinished, ((pure_ok _ _ _ _).1 hrecord).2⟩
    · exact .inr ⟨Bool.eq_false_iff.2 hfinished, hremaining, hrecord⟩
    · obtain ⟨record, _, -, hnone⟩ := (bind_ok _ _ _ _ _).1 hrecord
      cases hnone
  · rintro (⟨hfinished, rfl⟩ | ⟨hfinished, hremaining, hfinish⟩) <;> refine ⟨none, _, ?_, rfl, rfl⟩
      <;> rw [nextRecord, get_bind]
    · rw [if_pos hfinished]
      rfl
    · rw [if_neg (by simp [hfinished]), if_pos hremaining, hfinish]

/-- The reader yields the events, one call after the other. -/
def Yields (env : CacheEnv) : List DomainEvent → CacheReader → CacheReader → Prop
  | [], self, self' => self = self'
  | event :: rest, self, self' => ∃ next, nextEvent env self = .ok (some event) next ∧
      Yields env rest next self'

/-- The reader yields just these events and then says that there are no more. -/
def ReadsAll (env : CacheEnv) (events : List DomainEvent) (self : CacheReader) : Prop :=
  ∃ last final, Yields env events self last ∧ nextEvent env last = .ok none final

theorem readsAll_unique {events events' : List DomainEvent} (h : ReadsAll env events self)
    (h' : ReadsAll env events' self) :
    events = events' := by
  obtain ⟨last, final, hyields, hnone⟩ := h
  obtain ⟨last', final', hyields', hnone'⟩ := h'
  induction events generalizing events' self with
  | nil =>
    obtain rfl : self = last := hyields
    cases events' with
    | nil => rfl
    | cons event rest =>
      obtain ⟨next, hevent, -⟩ := hyields'
      cases hnone.symm.trans hevent
  | cons event rest ih =>
    obtain ⟨next, hevent, hyields⟩ := hyields
    cases events' with
    | nil =>
      obtain rfl : self = last' := hyields'
      cases hnone'.symm.trans hevent
    | cons event' rest' =>
      obtain ⟨next', hevent', hyields'⟩ := hyields'
      cases hevent.symm.trans hevent'
      rw [ih hyields hyields']

/-- What a reader has still to find for these events to be all it yields. -/
structure Holds (env : CacheEnv) (events : List DomainEvent) (cache : CacheReader) : Prop where
  payload : payloadOf events = .ok cache.reader
  count : cache.remaining.val = events.length
  wellFormed : ∀ event ∈ events, event.AuctionsWellFormed
  covers : ∀ event ∈ events, Covers cache.descriptor event
  ascends : Ascends env.hash cache.previousKey events
  hash : Hex.text (env.sha256 (cache.hasher ++ cache.reader)).bytes = cache.descriptor.payloadSha256
  first : cache.firstMatchTime.or (events.head?.map fun event => event.matchTime.unixMicroseconds) =
    cache.descriptor.firstMatchTimeMicros
  last :
      (events.getLast?.map fun event => event.matchTime.unixMicroseconds).or cache.lastMatchTime =
    cache.descriptor.lastMatchTimeMicros

theorem holds_nil : Holds env [] self ↔
    self.remaining.val = 0 ∧ ∃ final, finish env self = .ok none final := by
  constructor
  · intro h
    have hreader : self.reader = [] := (Except.ok.inj h.payload).symm
    have hhash := h.hash
    rw [hreader, List.append_nil] at hhash
    exact ⟨h.count, _,
      finish_ok.2 ⟨rfl, hreader, hhash, (Option.or_none).symm.trans h.first, h.last, rfl⟩⟩
  · rintro ⟨hcount, final, hfinish⟩
    obtain ⟨-, hreader, hhash, hfirst, hlast, -⟩ := finish_ok.1 hfinish
    exact {
      payload := by rw [hreader]; rfl
      count := hcount
      wellFormed := by simp
      covers := by simp
      ascends := trivial
      hash := by rw [hreader, List.append_nil]; exact hhash
      first := by rw [← hfirst]; exact Option.or_none
      last := hlast }

/-- The bound of the first event, which is read, stays. -/
theorem firstMatchTime_past (first : Option I64) (event : DomainEvent) (rest : List DomainEvent) :
    (first.or (some event.matchTime.unixMicroseconds)).or
      (rest.head?.map fun event => event.matchTime.unixMicroseconds) =
      first.or ((event :: rest).head?.map fun event => event.matchTime.unixMicroseconds) := by
  rw [Option.or_assoc, Option.some_or]
  rfl

theorem lastMatchTime_past (last : Option I64) (event : DomainEvent) (rest : List DomainEvent) :
    ((event :: rest).getLast?.map fun event => event.matchTime.unixMicroseconds).or last =
      (rest.getLast?.map fun event => event.matchTime.unixMicroseconds).or
        (some event.matchTime.unixMicroseconds) := by
  rw [List.getLast?_cons]
  cases rest.getLast? with
  | none => rfl
  | some other => rfl

/-- The first event is read, and the rest is what the reader behind it has still to find. -/
theorem holds_cons {event : DomainEvent} {rest : List DomainEvent} :
    Holds env (event :: rest) self ↔
    self.remaining.val ≠ 0 ∧ ∃ next, readRecord env self = .ok ⟨self.ordinal, event⟩ next ∧
    Holds env rest next := by
  have hone : (Unsigned.wrap 64 1).val = 1 := Unsigned.val_wrap (by norm_num)
  have hdown : self.remaining.val ≠ 0 →
      (self.remaining.wrappingSub (Unsigned.wrap 64 1)).val = self.remaining.val - 1 := by
    intro hremaining
    rw [Unsigned.val_wrappingSub _ _ (by omega), hone]
  constructor
  · intro h
    obtain ⟨record, tail, hrecord, hpayload, hreader⟩ := payloadOf_cons.1 h.payload
    obtain ⟨key, hkey, hbefore, hascends⟩ := h.ascends
    obtain ⟨hwell, hwellRest⟩ := List.forall_mem_cons.1 h.wellFormed
    obtain ⟨hcovers, hcoversRest⟩ := List.forall_mem_cons.1 h.covers
    have hremaining : self.remaining.val ≠ 0 := by rw [h.count]; exact Nat.succ_ne_zero _
    have hhash := h.hash
    rw [← hreader, ← List.append_assoc] at hhash
    refine ⟨hremaining, self.past event record tail key,
      readRecord_ok.2 ⟨rfl, record, tail, key, hrecord, hwell, hreader.symm,
      hcovers, hkey, hbefore, rfl⟩, ?_⟩
    exact {
      payload := hpayload
      count := by rw [past, hdown hremaining, h.count]; rfl
      wellFormed := hwellRest
      covers := hcoversRest
      ascends := hascends
      hash := hhash
      first := (firstMatchTime_past ..).trans h.first
      last := (lastMatchTime_past ..).symm.trans h.last }
  · rintro ⟨hremaining, next, hread, h⟩
    obtain ⟨-, record, tail, key, hrecord, hwell, hreader, hcovers, hkey, hbefore, rfl⟩ :=
      readRecord_ok.1 hread
    have hcount := h.count
    rw [past, hdown hremaining] at hcount
    exact {
      payload := payloadOf_cons.2 ⟨record, tail, hrecord, h.payload, hreader.symm⟩
      count := by rw [List.length_cons]; omega
      wellFormed := List.forall_mem_cons.2 ⟨hwell, h.wellFormed⟩
      covers := List.forall_mem_cons.2 ⟨hcovers, h.covers⟩
      ascends := ⟨key, hkey, hbefore, h.ascends⟩
      hash := by rw [hreader, ← List.append_assoc]; exact h.hash
      first := (firstMatchTime_past ..).symm.trans h.first
      last := (lastMatchTime_past ..).trans h.last }

theorem readsAll_iff (hfinished : self.finished = false) (events : List DomainEvent) :
    ReadsAll env events self ↔ Holds env events self := by
  induction events generalizing self with
  | nil =>
    rw [holds_nil]
    constructor
    · rintro ⟨_, final, rfl, hnone⟩
      rcases nextEvent_none.1 hnone with ⟨hdone, -⟩ | ⟨-, hremaining, hfinish⟩
      · cases hfinished.symm.trans hdone
      · exact ⟨hremaining, final, hfinish⟩
    · rintro ⟨hremaining, final, hfinish⟩
      exact ⟨self, final, rfl, nextEvent_none.2 (.inr ⟨hfinished, hremaining, hfinish⟩)⟩
  | cons event rest ih =>
    rw [holds_cons]
    have hnext {next : CacheReader} (hread : readRecord env self = .ok ⟨self.ordinal, event⟩ next) :
        next.finished = false := by
      obtain ⟨-, _, _, _, -, -, -, -, -, -, rfl⟩ := readRecord_ok.1 hread
      exact hfinished
    constructor
    · rintro ⟨last, final, ⟨next, hevent, hyields⟩, hnone⟩
      obtain ⟨-, hremaining, hread⟩ := nextEvent_some.1 hevent
      exact ⟨hremaining, next, hread, (ih (hnext hread)).1 ⟨last, final, hyields, hnone⟩⟩
    · rintro ⟨hremaining, next, hread, hholds⟩
      obtain ⟨last, final, hyields, hnone⟩ := (ih (hnext hread)).2 hholds
      exact ⟨last, final, ⟨next, nextEvent_some.2 ⟨hfinished, hremaining, hread⟩, hyields⟩, hnone⟩

end Runs

end CacheReader

end Osmium
