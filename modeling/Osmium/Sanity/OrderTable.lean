import Osmium.Sanity.Calls

/-! The order table of the scheduled simulator. Filled quantities are accounted for by the recorded
fills, and what has become of an order is never undone: proved for a move and for the acceptance of
an order under a new identity, and from these for every run of calls. -/

namespace Osmium
open Machine Bytes Result Stateful ScheduledDepthSimulator

section OrderTable
variable {s s' : ScheduledDepthSimulator}

def ScheduledDepthSimulator.recordsOf (s : ScheduledDepthSimulator) (id : OrderId) :
    List FillRecord :=
  s.fills.filter fun record => record.orderId = id

/-- Every order's filled quantity is what its recorded fills add up to, within its quantity, and the
order is filled exactly when they are equal; every client identity names an order. -/
structure Accounted (s : ScheduledDepthSimulator) : Prop where
  total : ∀ order ∈ s.orders, order.filledValue.val = recordTotal (s.recordsOf order.id)
  bounded : ∀ order ∈ s.orders, order.filledValue.val ≤ order.request.intent.quantity.value.val
  filled : ∀ order ∈ s.orders, order.status = .filled ↔
    order.filledValue.val = order.request.intent.quantity.value.val
  clients : ∀ (client : ClientOrderId) (id : OrderId), s.clientOrders[client]? = some id →
    ∃ order ∈ s.orders, order.id = id

/-- An order keeps its place, identity and request; once it is terminal nothing about it changes,
and once it has fills it gets no more. -/
structure Kept (s s' : ScheduledDepthSimulator) (order order' : ScheduledOrder) : Prop where
  id : order'.id = order.id
  request : order'.request = order.request
  terminal : order.status.isTerminal = true → order' = order ∧
      s'.recordsOf order.id = s.recordsOf order.id
  fills : s.recordsOf order.id ≠ [] → s'.recordsOf order.id = s.recordsOf order.id

/-- From one state to a later one, every order is kept. -/
def Persists (s s' : ScheduledDepthSimulator) : Prop :=
  ∀ (k : ℕ) (order : ScheduledOrder), s.orders[k]? = some order →
  ∃ order', s'.orders[k]? = some order' ∧ Kept s s' order order'

theorem Persists.refl (s : ScheduledDepthSimulator) : Persists s s :=
  fun _ order h => ⟨order, h, rfl, rfl, fun _ => ⟨rfl, rfl⟩, fun _ => rfl⟩

theorem Persists.trans {m : ScheduledDepthSimulator} (h₁ : Persists s m) (h₂ : Persists m s') :
    Persists s s' := by
  intro k order hk
  obtain ⟨mid, hmid, hkept₁⟩ := h₁ k order hk
  obtain ⟨order', hk', hkept₂⟩ := h₂ k mid hmid
  have hid := hkept₁.id
  refine ⟨order', hk', hkept₂.id.trans hid, hkept₂.request.trans hkept₁.request, fun hterminal =>
    ?_, fun hfills => ?_⟩
  · obtain ⟨rfl, hrecords⟩ := hkept₁.terminal hterminal
    obtain ⟨rfl, hrecords'⟩ := hkept₂.terminal hterminal
    exact ⟨rfl, hrecords'.trans hrecords⟩
  · have hmiddle := hkept₁.fills hfills
    have hlater := hkept₂.fills (by rw [hid, hmiddle]; exact hfills)
    rw [hid] at hlater
    exact hlater.trans hmiddle

/-- The order table as a run of well-named submissions keeps it. -/
structure Consistent (s : ScheduledDepthSimulator) : Prop extends Accounted s where
  distinct : (s.orders.map ScheduledOrder.id).Nodup
  owned : ∀ record ∈ s.fills, ∃ order ∈ s.orders, order.id = record.orderId
  unfilled : ∀ order ∈ s.orders, order.Untouched → order.filledValue.val = 0

/-- In a table of distinct identities, two places with one identity are one place. -/
theorem Consistent.place {i k : ℕ} {a b : ScheduledOrder} (h : Consistent s)
    (ha : s.orders[i]? = some a) (hb : s.orders[k]? = some b) (hid : a.id = b.id) : i = k := by
  have hi : (s.orders.map ScheduledOrder.id)[i]? = some a.id := by rw [List.getElem?_map, ha]; rfl
  have hk : (s.orders.map ScheduledOrder.id)[k]? = some b.id := by rw [List.getElem?_map, hb]; rfl
  obtain ⟨hlt, hi⟩ := List.getElem?_eq_some_iff.1 hi
  obtain ⟨hlt', hk⟩ := List.getElem?_eq_some_iff.1 hk
  exact (List.Nodup.getElem_inj_iff h.distinct).1 (hi.trans (hid.trans hk.symm))

theorem Consistent.untouched_records {order : ScheduledOrder} (h : Consistent s)
    (hmem : order ∈ s.orders) (hu : order.Untouched) : s.recordsOf order.id = [] :=
  (recordTotal_eq_zero _).1 (by rw [← h.total order hmem, h.unfilled order hmem hu])

theorem recordsOf_append {records : List FillRecord} (hfills : s'.fills = s.fills ++ records)
    (id : OrderId) :
    s'.recordsOf id = s.recordsOf id ++ records.filter fun record => record.orderId = id := by
  simp [ScheduledDepthSimulator.recordsOf, hfills]

section Move
variable {index : ℕ} {order order' : ScheduledOrder} {records : List FillRecord}

/-- The records of the order that moves. -/
theorem Moves.recordsOf_self (h : Moves order order' records)
    (hfills : s'.fills = s.fills ++ records) :
    s'.recordsOf order.id = s.recordsOf order.id ++ records := by
  rw [recordsOf_append hfills, List.filter_eq_self.2]
  intro record hrecord
  simpa using h.owned record hrecord

/-- No other order gets any. -/
theorem Moves.recordsOf_other (h : Moves order order' records)
    (hfills : s'.fills = s.fills ++ records) {id : OrderId}
    (hne : id ≠ order.id) : s'.recordsOf id = s.recordsOf id := by
  rw [recordsOf_append hfills, List.filter_eq_nil_iff.2, List.append_nil]
  intro record hrecord
  rw [h.owned record hrecord]
  simpa using hne.symm

/-- What the moved order's quantity and records come to. -/
theorem Moves.accounted (h : Moves order order' records) (hs : Consistent s)
    (hmem : order ∈ s.orders) (hfills : s'.fills = s.fills ++ records) :
    order'.filledValue.val = recordTotal (s'.recordsOf order.id) ∧
      order'.filledValue.val ≤ order.request.intent.quantity.value.val ∧
      (order'.status = .filled ↔
        order'.filledValue.val = order.request.intent.quantity.value.val) := by
  rw [h.recordsOf_self hfills]
  rcases h.effect with ⟨rfl, hvalue, hnot, -⟩ | ⟨hu, hvalue, hle, hstatus, -⟩
  · rw [List.append_nil, hvalue]
    refine ⟨hs.total order hmem, hs.bounded order hmem, iff_of_false hnot fun heq => ?_⟩
    have hfilled := (hs.filled order hmem).2 heq
    have hlive := h.live
    rw [hfilled] at hlive
    cases hlive
  · rw [hs.untouched_records hmem hu, List.nil_append, hvalue]
    exact ⟨rfl, hle, hstatus⟩

/-- A move adds records only to an order that had none. -/
theorem Moves.recordsOf_kept (h : Moves order order' records) (hs : Consistent s)
    (hmem : order ∈ s.orders)
    (hfills : s'.fills = s.fills ++ records) (hsome : s.recordsOf order.id ≠ []) :
    s'.recordsOf order.id = s.recordsOf order.id := by
  rw [h.recordsOf_self hfills]
  rcases h.effect with ⟨rfl, -⟩ | ⟨hu, -⟩
  · exact List.append_nil _
  · exact absurd (hs.untouched_records hmem hu) hsome

end Move

theorem Shift.ids (h : Shift s s') :
    s'.orders.map ScheduledOrder.id = s.orders.map ScheduledOrder.id := by
  cases h with
  | market orders clients fills configs => rw [orders]
  | move index order order' records found moves orders clients fills configs =>
    rw [orders, List.map_set, moves.id]
    have hget : (s.orders.map ScheduledOrder.id)[index]? = some order.id := by
      rw [List.getElem?_map, found]
      rfl
    obtain ⟨hlt, hget⟩ := List.getElem?_eq_some_iff.1 hget
    rw [← hget, List.set_getElem_self]

theorem Shifts.ids (h : Shifts s s') :
    s'.orders.map ScheduledOrder.id = s.orders.map ScheduledOrder.id := by
  induction h with
  | refl => rfl
  | tail _ hstep ih => rw [hstep.ids, ih]

theorem Shift.consistent (h : Shift s s') (hs : Consistent s) : Consistent s' ∧ Persists s s' := by
  cases h with
  | market orders clients fills configs =>
    have hrecords : ∀ id, s'.recordsOf id = s.recordsOf id := fun id => by
      rw [ScheduledDepthSimulator.recordsOf, fills]
      rfl
    refine ⟨⟨⟨?_, ?_, ?_, ?_⟩, ?_, ?_, ?_⟩, fun k order hk =>
      ⟨order, by rw [orders]; exact hk, rfl, rfl, fun _ => ⟨rfl, hrecords _⟩, fun _ => hrecords _⟩⟩
    · rw [orders]
      intro order horder
      rw [hrecords]
      exact hs.total order horder
    · rw [orders]
      exact hs.bounded
    · rw [orders]
      exact hs.filled
    · rw [orders, clients]
      exact hs.clients
    · rw [orders]
      exact hs.distinct
    · rw [orders, fills]
      exact hs.owned
    · rw [orders]
      exact hs.unfilled
  | move index order order' records found moves orders clients fills configs =>
    have hmem : order ∈ s.orders := List.mem_of_getElem? found
    have hindex : index < s.orders.length := (List.getElem?_eq_some_iff.1 found).1
    obtain ⟨htotal, hbounded, hfilled⟩ := moves.accounted hs hmem fills
    -- an order of the new table is the moved one, or an old one at another place
    have hcases : ∀ o ∈ s'.orders, o = order' ∨ (o ∈ s.orders ∧ o.id ≠ order.id) := by
      intro o ho
      rw [orders] at ho
      obtain ⟨k, hk⟩ := List.mem_iff_getElem?.1 ho
      by_cases hik : index = k
      · subst hik
        rw [List.getElem?_set_self hindex] at hk
        exact .inl (Option.some_inj.1 hk).symm
      · rw [List.getElem?_set_ne hik] at hk
        exact .inr ⟨List.mem_of_getElem? hk, fun hid => hik (hs.place found hk hid.symm)⟩
    have hids : s'.orders.map ScheduledOrder.id = s.orders.map ScheduledOrder.id :=
      (Shift.move index order order' records found moves orders clients fills configs).ids
    have hnames : ∀ id, (∃ o ∈ s.orders, o.id = id) → ∃ o ∈ s'.orders, o.id = id := by
      intro id h
      rw [← List.mem_map] at h ⊢
      rwa [hids]
    refine ⟨⟨⟨fun o ho => ?_, fun o ho => ?_, fun o ho => ?_, fun client id hid =>
      ?_⟩, by rw [hids]; exact hs.distinct,
      fun record hrecord => ?_, fun o ho hu => ?_⟩, fun k o hk => ?_⟩
    · rcases hcases o ho with rfl | ⟨hold, hne⟩
      · rw [moves.id]
        exact htotal
      · rw [moves.recordsOf_other fills hne]
        exact hs.total o hold
    · rcases hcases o ho with rfl | ⟨hold, -⟩
      · rw [moves.request]
        exact hbounded
      · exact hs.bounded o hold
    · rcases hcases o ho with rfl | ⟨hold, -⟩
      · rw [moves.request]
        exact hfilled
      · exact hs.filled o hold
    · rw [clients] at hid
      exact hnames id (hs.clients client id hid)
    · rw [fills, List.mem_append] at hrecord
      rcases hrecord with hold | hnew
      · exact hnames _ (hs.owned record hold)
      · exact hnames _ ⟨order, hmem, (moves.owned record hnew).symm⟩
    · rcases hcases o ho with rfl | ⟨hold, -⟩
      · obtain ⟨hbefore, hvalue⟩ := moves.untouched hu
        rw [hvalue]
        exact hs.unfilled order hmem hbefore
      · exact hs.unfilled o hold hu
    · by_cases hik : index = k
      · subst hik
        obtain rfl : order = o := Option.some_inj.1 (found.symm.trans hk)
        refine ⟨order', by rw [orders, List.getElem?_set_self hindex], moves.id, moves.request,
          fun hterminal => ?_,
          moves.recordsOf_kept hs hmem fills⟩
        rw [moves.live] at hterminal
        cases hterminal
      · have hne : o.id ≠ order.id := fun hid => hik (hs.place found hk hid.symm)
        have hrecords := moves.recordsOf_other fills hne
        exact ⟨o, by rw [orders, List.getElem?_set_ne hik]; exact hk, rfl, rfl,
          fun _ => ⟨rfl, hrecords⟩, fun _ => hrecords⟩

theorem Shifts.consistent (h : Shifts s s') (hs : Consistent s) :
    Consistent s' ∧ Persists s s' := by
  induction h with
  | refl => exact ⟨hs, Persists.refl s⟩
  | tail _ hstep ih =>
    obtain ⟨hm, hpersists⟩ := ih
    obtain ⟨hs', hpersists'⟩ := hstep.consistent hm
    exact ⟨hs', hpersists.trans hpersists'⟩

/-- A new order under a new identity. -/
theorem Accepts.consistent {id : OrderId} {request : ScheduledOrderRequest}
    (h : Accepts id request s s') (hs : Consistent s) (hfresh : ∀ order ∈ s.orders, order.id ≠ id) :
    Consistent s' ∧ Persists s s' := by
  obtain ⟨sequence, horders⟩ := h.orders
  have hrecords : ∀ id, s'.recordsOf id = s.recordsOf id := fun id => by
    rw [ScheduledDepthSimulator.recordsOf, h.fills]
    rfl
  have hnone : s.recordsOf id = [] := by
    rw [ScheduledDepthSimulator.recordsOf, List.filter_eq_nil_iff]
    intro record hrecord
    obtain ⟨order, hmem, hid⟩ := hs.owned record hrecord
    rw [← hid]
    simpa using hfresh order hmem
  have hpos := request.intent.quantity.pos
  refine ⟨⟨⟨?_, ?_, ?_, fun client id' hid => ?_⟩, ?_, fun record hrecord => ?_, ?_⟩,
    fun k order hk => ?_⟩
  · rw [horders, List.forall_mem_append, List.forall_mem_singleton]
    refine ⟨fun order hmem => ?_, ?_⟩
    · rw [hrecords]
      exact hs.total order hmem
    · rw [hrecords, hnone]
      rfl
  · rw [horders, List.forall_mem_append, List.forall_mem_singleton]
    exact ⟨hs.bounded, Nat.zero_le _⟩
  · rw [horders, List.forall_mem_append, List.forall_mem_singleton]
    exact ⟨hs.filled, iff_of_false (by simp) (by rw [Unsigned.val_zero]; exact hpos.ne)⟩
  · rw [h.clients, Std.ExtTreeMap.getElem?_insert] at hid
    rw [horders]
    split_ifs at hid with hcmp
    · cases hid
      exact ⟨_, List.mem_append_right _ (List.mem_singleton_self _), rfl⟩
    · obtain ⟨order, hmem, hoid⟩ := hs.clients client id' hid
      exact ⟨order, List.mem_append_left _ hmem, hoid⟩
  · rw [horders, List.map_append, List.nodup_append']
    refine ⟨hs.distinct, List.nodup_singleton _, fun x hx hx' => ?_⟩
    obtain ⟨order, hmem, rfl⟩ := List.mem_map.1 hx
    exact hfresh order hmem (by simpa using hx')
  · rw [h.fills] at hrecord
    obtain ⟨order, hmem, hid⟩ := hs.owned record hrecord
    rw [horders]
    exact ⟨order, List.mem_append_left _ hmem, hid⟩
  · rw [horders, List.forall_mem_append, List.forall_mem_singleton]
    exact ⟨hs.unfilled, fun _ => rfl⟩
  · refine ⟨order, ?_, rfl, rfl, fun _ => ⟨rfl, hrecords _⟩, fun _ => hrecords _⟩
    rw [horders, List.getElem?_append_left (List.getElem?_eq_some_iff.1 hk).1]
    exact hk

end OrderTable

section Runs
variable (hash : List UInt8 → Digest)

/-- What a caller must not use twice. -/
def OrderSubmission.origin (o : OrderSubmission) : Digest × MatchTime × U32 :=
  (o.context.originIdentity, o.context.decisionTime, o.outputSequence)

/-- The submission that a call makes, when it is accepted. -/
def SimulatorCall.accepted? (s : ScheduledDepthSimulator) (call : SimulatorCall) :
    Option OrderSubmission :=
  match call, call.run hash s with
  | .submit o, .ok _ _ => some o
  | _, _ => none

/-- The submissions that a run accepts, in order. -/
def acceptedSubmissions : List SimulatorCall → ScheduledDepthSimulator → List OrderSubmission
  | [], _ => []
  | call :: rest, s =>
    (call.accepted? hash s).toList ++ acceptedSubmissions rest (stateAfter (call.run hash s))

/-- What is assumed of the submissions of a run: their origins are distinct, and no two of the byte
strings that their order identities are hashed from collide. -/
structure WellNamed (accepted : List OrderSubmission) : Prop where
  origins : (accepted.map OrderSubmission.origin).Nodup
  collisionFree : ∀ a ∈ accepted, ∀ b ∈ accepted, ∀ x y, a.identity = .ok x → b.identity = .ok y →
    hash x = hash y → x = y

/-- The hashed bytes start with the strategy identifier and do not say where it ends: no two
submissions have the same bytes although their strategy identifiers end at different places. -/
def Framed (accepted : List OrderSubmission) : Prop :=
  ∀ a ∈ accepted, ∀ b ∈ accepted, ∀ x, a.identity = .ok x → b.identity = .ok x →
    a.strategyId.bytes.length = b.strategyId.bytes.length

/-- Every evaluation of the run comes in time. -/
def RunOnTime : List SimulatorCall → ScheduledDepthSimulator → Prop :=
  EveryCall hash fun s call => call.OnTime hash s

/-- The orders of a state come from these submissions. -/
def Sourced (submissions : List OrderSubmission) (s : ScheduledDepthSimulator) : Prop :=
  ∀ order ∈ s.orders, ∃ o ∈ submissions, o.orderId hash = some order.id

theorem Sourced.shifts {submissions : List OrderSubmission} {s s' : ScheduledDepthSimulator}
    (h : Sourced hash submissions s) (hshifts : Shifts s s') : Sourced hash submissions s' := by
  intro order horder
  have hid : order.id ∈ s'.orders.map ScheduledOrder.id := List.mem_map_of_mem horder
  rw [hshifts.ids] at hid
  obtain ⟨before, hmem, hsame⟩ := List.mem_map.1 hid
  rw [← hsame]
  exact h before hmem

/-- Behind strategy identifiers of one length the bytes of an order identity say where the order
comes from. -/
theorem OrderSubmission.origin_of_identity {a b : OrderSubmission} {x : List UInt8}
    (ha : a.identity = .ok x)
    (hb : b.identity = .ok x) (hlength : a.strategyId.bytes.length = b.strategyId.bytes.length) :
    a.origin = b.origin := by
  simp only [OrderSubmission.identity, orderIdentity, bind_eq_ok, pure_eq_ok, List.append_assoc]
    at ha hb
  obtain ⟨canonical, -, rfl⟩ := ha
  obtain ⟨canonical', -, heq⟩ := hb
  obtain ⟨-, heq⟩ := List.append_inj (List.append_cancel_left heq) hlength.symm
  obtain ⟨horigin, heq⟩ := List.append_inj heq (by
    rw [b.context.originIdentity.size, a.context.originIdentity.size])
  obtain ⟨htime, heq⟩ := List.append_inj heq (by rw [length_ofSigned, length_ofSigned])
  obtain ⟨hsequence, -⟩ := List.append_inj heq (by rw [length_ofUnsigned, length_ofUnsigned])
  have htime' : a.context.decisionTime.unixMicroseconds =
      b.context.decisionTime.unixMicroseconds := by
    rw [← toSigned_ofSigned 8 (by norm_num)
      (by norm_num) a.context.decisionTime.unixMicroseconds, ← htime,
      toSigned_ofSigned 8 (by norm_num) (by norm_num)]
  have hsequence' : a.outputSequence = b.outputSequence := by
    rw [← toUnsigned_ofUnsigned 4 (by norm_num) a.outputSequence, ← hsequence,
      toUnsigned_ofUnsigned 4 (by norm_num)]
  exact Prod.ext (Digest.ext horigin.symm) (Prod.ext (MatchTime.ext htime') hsequence')

/-- A run under one strategy identifier is framed. -/
theorem framed_of_strategy {accepted : List OrderSubmission} {strategyId : Text}
    (h : ∀ o ∈ accepted, o.strategyId = strategyId) : Framed accepted := by
  intro a ha b hb _ _ _
  rw [h a ha, h b hb]

/-- A submission after the others gets an identity that none of them has. -/
theorem WellNamed.fresh {done rest : List OrderSubmission} {o : OrderSubmission}
    {s : ScheduledDepthSimulator} {identity : List UInt8} (h : WellNamed hash (done ++ o :: rest))
    (hframed : Framed (done ++ o :: rest))
    (hs : Sourced hash done s) (hidentity : o.identity = .ok identity) :
    ∀ order ∈ s.orders, order.id ≠ ⟨hash identity⟩ := by
  intro order horder hid
  obtain ⟨other, hother, hsame⟩ := hs order horder
  obtain ⟨x, hx, hhash⟩ := Option.map_eq_some_iff.1 hsame
  have hx := (toOption_eq_some _ _).1 hx
  have hmem : other ∈ done ++ o :: rest := List.mem_append_left _ hother
  have hmem' : o ∈ done ++ o :: rest := List.mem_append_right _ List.mem_cons_self
  -- equal hashes of equal bytes, and the bytes give the origin
  obtain rfl : x = identity := h.collisionFree other hmem o hmem' x identity hx hidentity
    (OrderId.mk.inj (hhash.trans hid))
  have horigin := other.origin_of_identity hx hidentity (hframed other hmem o hmem' x hx hidentity)
  have horigins := h.origins
  rw [List.map_append, List.nodup_append'] at horigins
  apply horigins.2.2 (List.mem_map_of_mem hother)
  rw [horigin]
  exact List.mem_map_of_mem List.mem_cons_self

/-- A call that comes in time keeps the table consistent and what has become of its orders. -/
theorem SimulatorCall.consistent (call : SimulatorCall) {done : List OrderSubmission}
    (rest : List OrderSubmission)
    {s : ScheduledDepthSimulator} (hsound : Sound s) (hs : Consistent s)
    (hsourced : Sourced hash done s) (htime : call.OnTime hash s)
    (hnamed : WellNamed hash (done ++ (call.accepted? hash s).toList ++ rest))
    (hframed : Framed (done ++ (call.accepted? hash s).toList ++ rest)) :
    Consistent (stateAfter (call.run hash s)) ∧ Persists s (stateAfter (call.run hash s)) ∧
      Sourced hash (done ++ (call.accepted? hash s).toList) (stateAfter (call.run hash s)) := by
  have hmore : ∀ {s' : ScheduledDepthSimulator}, Sourced hash done s' →
      Sourced hash (done ++ (call.accepted? hash s).toList) s' := by
    intro s' h order horder
    obtain ⟨o, ho, hid⟩ := h order horder
    exact ⟨o, List.mem_append_left _ ho, hid⟩
  rcases (call.advances hash hsound).2 htime with
    hshifts | ⟨o, rfl, m, identity, ⟨r, hrun⟩, hshifts, hidentity, haccepts⟩
  · obtain ⟨hconsistent, hpersists⟩ := hshifts.consistent hs
    exact ⟨hconsistent, hpersists, hmore (hsourced.shifts hash hshifts)⟩
  · obtain ⟨hm, hpersists⟩ := hshifts.consistent hs
    have hsourcedM := hsourced.shifts hash hshifts
    have haccepted : (SimulatorCall.submit o).accepted? hash s = some o := by
      unfold SimulatorCall.accepted?
      rw [hrun]
    rw [haccepted] at hnamed hframed hmore ⊢
    rw [List.append_assoc] at hnamed hframed
    obtain ⟨hconsistent, hpersists'⟩ :=
      haccepts.consistent hm (hnamed.fresh hash hframed hsourcedM hidentity)
    refine ⟨hconsistent, hpersists.trans hpersists', fun order horder => ?_⟩
    obtain ⟨sequence, horders⟩ := haccepts.orders
    rw [horders, List.mem_append, List.mem_singleton] at horder
    rcases horder with hold | rfl
    · exact hmore hsourcedM order hold
    · refine ⟨o, List.mem_append_right _ (List.mem_singleton_self o), ?_⟩
      rw [OrderSubmission.orderId, hidentity]
      rfl

theorem runCalls_consistent {calls : List SimulatorCall} (done rest : List OrderSubmission)
    {s : ScheduledDepthSimulator} (hsound : Sound s) (hs : Consistent s)
    (hsourced : Sourced hash done s) (htime : RunOnTime hash calls s)
    (hnamed : WellNamed hash (done ++ acceptedSubmissions hash calls s ++ rest))
    (hframed : Framed (done ++ acceptedSubmissions hash calls s ++ rest)) :
    Consistent (runCalls hash calls s) ∧ Persists s (runCalls hash calls s) ∧
      Sourced hash (done ++ acceptedSubmissions hash calls s) (runCalls hash calls s) := by
  induction calls generalizing done s with
  | nil =>
    rw [acceptedSubmissions, List.append_nil]
    exact ⟨hs, Persists.refl s, hsourced⟩
  | cons call later ih =>
    rw [acceptedSubmissions, ← List.append_assoc] at hnamed hframed ⊢
    obtain ⟨hstep, hpersists, hsourced'⟩ := call.consistent hash _ hsound hs hsourced htime.1
      (by rw [← List.append_assoc]; exact hnamed) (by rw [← List.append_assoc]; exact hframed)
    obtain ⟨hlast, hpersists', hsourced''⟩ :=
      ih _ (call.advances hash hsound).1 hstep hsourced' htime.2 hnamed hframed
    exact ⟨hlast, hpersists.trans hpersists', hsourced''⟩

theorem acceptedSubmissions_append (earlier later : List SimulatorCall)
    (s : ScheduledDepthSimulator) :
    acceptedSubmissions hash (earlier ++ later) s =
      acceptedSubmissions hash earlier s ++
        acceptedSubmissions hash later (runCalls hash earlier s) := by
  induction earlier generalizing s with
  | nil => rfl
  | cons call rest ih =>
    simp only [List.cons_append, acceptedSubmissions, runCalls, ih, List.append_assoc]

theorem new_consistent {configs : List ScheduledInstrumentConfig} {s : ScheduledDepthSimulator}
    (h : ScheduledDepthSimulator.new configs = .ok s) : Consistent s := by
  obtain ⟨-, -, horders, hclients, hfills, -⟩ := new_ok h
  exact ⟨⟨by simp [horders], by simp [horders], by simp [horders], by simp [hclients]⟩,
    by simp [horders],
    by simp [hfills], by simp [horders]⟩

end Runs

end Osmium
