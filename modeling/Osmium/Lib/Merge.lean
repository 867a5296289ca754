import Mathlib.Data.List.Sort
import Mathlib.Tactic

/-! A merge of sequences that looks at one item of each. The heads are kept in the order of their
keys, and of their sequence's index among equal keys; taking the first head and pushing the next
item of its sequence is one step. -/

namespace Merge
variable {α κ : Type} [LinearOrder κ] {key : α → κ}

/-- The item a sequence is at, and the items after it. -/
structure Head (α : Type) where
  index : ℕ
  item : α
  rest : List α

def Head.items (head : Head α) : List α := head.item :: head.rest

def Before (key : α → κ) (a b : Head α) : Prop :=
  key a.item < key b.item ∨ key a.item = key b.item ∧ a.index ≤ b.index

instance (a b : Head α) : Decidable (Before key a b) := inferInstanceAs (Decidable (_ ∨ _))

instance : Std.Total (Before key : Head α → Head α → Prop) := ⟨fun a b => by
  rcases lt_trichotomy (key a.item) (key b.item) with h | h | h
  · exact .inl (.inl h)
  · rcases le_total a.index b.index with hi | hi
    · exact .inl (.inr ⟨h, hi⟩)
    · exact .inr (.inr ⟨h.symm, hi⟩)
  · exact .inr (.inl h)⟩

instance : IsTrans (Head α) (Before key) := ⟨fun a b c => by
  rintro (hab | ⟨hab, iab⟩) (hbc | ⟨hbc, ibc⟩)
  · exact .inl (hab.trans hbc)
  · exact .inl (hab.trans_eq hbc)
  · exact .inl (hab.trans_lt hbc)
  · exact .inr ⟨hab.trans hbc, iab.trans ibc⟩⟩

theorem Before.key_le {a b : Head α} (h : Before key a b) : key a.item ≤ key b.item := by
  rcases h with h | ⟨h, -⟩
  · exact h.le
  · exact h.le

def push (key : α → κ) (index : ℕ) (items : List α) (heads : List (Head α)) : List (Head α) :=
  match items with
  | [] => heads
  | item :: rest => heads.orderedInsert (Before key) ⟨index, item, rest⟩

/-- Everything the heads stand for. -/
def all (heads : List (Head α)) : List α := heads.flatMap Head.items

def merge (key : α → κ) : ℕ → List (Head α) → List α
  | 0, _ | _, [] => []
  | fuel + 1, head :: heads => head.item :: merge key fuel (push key head.index head.rest heads)

theorem all_push (key : α → κ) (index : ℕ) (items : List α) (heads : List (Head α)) :
    (all (push key index items heads)).Perm (items ++ all heads) := by
  cases items with
  | nil => exact .refl _
  | cons item rest =>
    exact (heads.perm_orderedInsert (Before key) ⟨index, item, rest⟩).flatMap_right _

theorem length_all_push (key : α → κ) {fuel : ℕ} {head : Head α} {heads : List (Head α)}
    (h : (all (head :: heads)).length ≤ fuel + 1) :
    (all (push key head.index head.rest heads)).length ≤ fuel := by
  rw [(all_push key head.index head.rest heads).length_eq]
  simp only [all, List.flatMap_cons, Head.items, List.length_append, List.length_cons] at h ⊢
  omega

/-- Nothing is lost and nothing is made up. -/
theorem merge_perm (fuel : ℕ) (heads : List (Head α)) (h : (all heads).length ≤ fuel) :
    (merge key fuel heads).Perm (all heads) := by
  induction fuel generalizing heads with
  | zero =>
    cases heads with
    | nil => exact .refl _
    | cons head heads => simp [all, Head.items] at h
  | succ fuel ih =>
    cases heads with
    | nil => exact .refl _
    | cons head heads =>
      exact ((ih _ (length_all_push key h)).trans (all_push key head.index head.rest heads)).cons
        head.item

/-- Each sequence keeps its own order. -/
theorem sublist_merge (fuel : ℕ) (heads : List (Head α)) (h : (all heads).length ≤ fuel) :
    ∀ head ∈ heads, head.items.Sublist (merge key fuel heads) := by
  induction fuel generalizing heads with
  | zero =>
    intro head hmem
    cases heads with
    | nil => cases hmem
    | cons head heads => simp [all, Head.items] at h
  | succ fuel ih =>
    intro head hmem
    cases heads with
    | nil => cases hmem
    | cons first heads =>
      have hlen := length_all_push key h
      rcases List.mem_cons.1 hmem with rfl | hmem
      · refine List.Sublist.cons_cons _ ?_
        cases hrest : head.rest with
        | nil => exact List.nil_sublist _
        | cons item rest =>
          rw [hrest] at hlen
          exact ih _ hlen ⟨head.index, item, rest⟩ ((List.mem_orderedInsert _).2 (.inl rfl))
      · refine List.Sublist.cons _ (ih _ hlen head ?_)
        unfold push
        cases first.rest with
        | nil => exact hmem
        | cons item rest => exact (List.mem_orderedInsert _).2 (.inr hmem)

/-- Heads in order over sequences in order. -/
structure Ordered (key : α → κ) (heads : List (Head α)) : Prop where
  items : ∀ head ∈ heads, head.items.Pairwise fun a b => key a ≤ key b
  heads : heads.Pairwise (Before key)

theorem Ordered.push {heads : List (Head α)} (h : Ordered key heads) (index : ℕ) {items : List α}
    (hitems : items.Pairwise fun a b => key a ≤ key b) :
    Ordered key (push key index items heads) := by
  unfold Merge.push
  cases items with
  | nil => exact h
  | cons item rest =>
    refine ⟨fun head hmem => ?_, h.heads.orderedInsert _ _⟩
    rcases (List.mem_orderedInsert _).1 hmem with rfl | hmem
    · exact hitems
    · exact h.items head hmem

/-- The first head is least of all. -/
theorem Ordered.le_all {head : Head α} {heads : List (Head α)} (h : Ordered key (head :: heads)) :
    ∀ a ∈ all (head :: heads), key head.item ≤ key a := by
  intro a ha
  obtain ⟨other, hother, ha⟩ := List.mem_flatMap.1 ha
  have hhead : key head.item ≤ key other.item := by
    rcases List.mem_cons.1 hother with rfl | hother
    · exact le_rfl
    · exact ((List.pairwise_cons.1 h.heads).1 other hother).key_le
  rcases List.mem_cons.1 ha with rfl | ha
  · exact hhead
  · exact hhead.trans ((List.pairwise_cons.1 (h.items other hother)).1 a ha)

/-- Sequences in order are merged into one in order. -/
theorem merge_sorted (fuel : ℕ) (heads : List (Head α)) (hfuel : (all heads).length ≤ fuel)
    (h : Ordered key heads) :
    (merge key fuel heads).Pairwise fun a b => key a ≤ key b := by
  induction fuel generalizing heads with
  | zero => exact List.Pairwise.nil
  | succ fuel ih =>
    cases heads with
    | nil => exact List.Pairwise.nil
    | cons head heads =>
      have hlen := length_all_push key hfuel
      obtain ⟨hfirst, hrest⟩ := List.pairwise_cons.1 (h.items head List.mem_cons_self)
      have htail : Ordered key heads :=
        ⟨fun other hother => h.items other (List.mem_cons_of_mem _ hother),
          (List.pairwise_cons.1 h.heads).2⟩
      refine List.pairwise_cons.2 ⟨fun a ha => ?_, ih _ hlen (htail.push head.index hrest)⟩
      have hmem : a ∈ head.rest ++ all heads :=
        (all_push key head.index head.rest heads).mem_iff.1 ((merge_perm fuel _ hlen).mem_iff.1 ha)
      exact h.le_all a (List.mem_cons_of_mem _ hmem)

/-- A sequence that is not in order has a first place where it descends. -/
theorem exists_first_descent {r : α → α → Prop} [IsTrans α r] {l : List α} (h : ¬ l.Pairwise r) :
    ∃ before last next rest, l = before ++ last :: next :: rest ∧ (before ++ [last]).Pairwise r ∧
    ¬ r last next := by
  induction l with
  | nil => exact absurd List.Pairwise.nil h
  | cons a l ih =>
    cases l with
    | nil => exact absurd (List.pairwise_singleton r a) h
    | cons b l =>
      by_cases hab : r a b
      · have htail : ¬ (b :: l).Pairwise r := by
          intro htail
          refine h (List.pairwise_cons.2 ⟨fun c hc => ?_, htail⟩)
          rcases List.mem_cons.1 hc with rfl | hc
          · exact hab
          · exact IsTrans.trans _ _ _ hab ((List.pairwise_cons.1 htail).1 c hc)
        obtain ⟨before, last, next, rest, heq, hsorted, hdescent⟩ := ih htail
        refine ⟨a :: before, last, next, rest, by rw [heq, List.cons_append], ?_, hdescent⟩
        have hhead : ∀ c ∈ before ++ [last], c = b ∨ r b c := by
          intro c hc
          cases before with
          | nil =>
            rw [List.nil_append, List.cons.injEq] at heq
            exact .inl ((List.mem_singleton.1 hc).trans heq.1.symm)
          | cons d before =>
            rw [List.cons_append, List.cons.injEq] at heq
            rcases List.mem_cons.1 hc with rfl | hc
            · exact .inl heq.1.symm
            · rw [heq.1]
              exact .inr ((List.pairwise_cons.1 hsorted).1 c hc)
        refine List.pairwise_cons.2 ⟨fun c hc => ?_, hsorted⟩
        rcases hhead c hc with rfl | hbc
        · exact hab
        · exact IsTrans.trans _ _ _ hab hbc
      · exact ⟨[], a, b, l, rfl, List.pairwise_singleton r a, hab⟩

section Start

/-- The heads of whole sequences, indexed in turn. -/
def start (key : α → κ) : List (List α) → ℕ → List (Head α) → List (Head α)
  | [], _, heads => heads
  | items :: rest, index, heads => start key rest (index + 1) (push key index items heads)

theorem all_start (key : α → κ) (sequences : List (List α)) (index : ℕ) (heads : List (Head α)) :
    (all (start key sequences index heads)).Perm (sequences.flatten ++ all heads) := by
  induction sequences generalizing index heads with
  | nil => exact .refl _
  | cons items rest ih =>
    refine (ih _ _).trans ?_
    rw [List.flatten_cons, List.append_assoc]
    refine ((all_push key index items heads).append_left _).trans ?_
    rw [← List.append_assoc, ← List.append_assoc]
    exact List.perm_append_comm.append_right _

theorem Ordered.start {heads : List (Head α)} (h : Ordered key heads)
    (sequences : List (List α)) (index : ℕ)
    (hsequences : ∀ items ∈ sequences, items.Pairwise fun a b => key a ≤ key b) :
    Ordered key (start key sequences index heads) := by
  induction sequences generalizing index heads with
  | nil => exact h
  | cons items rest ih =>
    exact ih (h.push index (hsequences items List.mem_cons_self)) _
      fun other hother => hsequences other (List.mem_cons_of_mem _ hother)

theorem mem_start (key : α → κ) (sequences : List (List α)) (index : ℕ) (heads : List (Head α)) :
    (∀ head ∈ heads, head ∈ start key sequences index heads) ∧
      ∀ items ∈ sequences, items ≠ [] →
      ∃ head ∈ start key sequences index heads, head.items = items := by
  induction sequences generalizing index heads with
  | nil => exact ⟨fun head h => h, by simp⟩
  | cons items rest ih =>
    obtain ⟨hheads, hitems⟩ := ih (index + 1) (push key index items heads)
    have hpush : ∀ head ∈ heads, head ∈ push key index items heads := by
      intro head hhead
      unfold push
      cases items with
      | nil => exact hhead
      | cons item tail => exact (List.mem_orderedInsert _).2 (.inr hhead)
    refine ⟨fun head hhead => hheads head (hpush head hhead), fun other hother hne => ?_⟩
    rcases List.mem_cons.1 hother with rfl | hother
    · cases other with
      | nil => exact absurd rfl hne
      | cons item tail =>
        exact ⟨⟨index, item, tail⟩, hheads _ ((List.mem_orderedInsert _).2 (.inl rfl)), rfl⟩
    · exact hitems other hother hne

end Start

/-- The whole merge of sequences. -/
def mergeAll (key : α → κ) (sequences : List (List α)) : List α :=
  let heads := start key sequences 0 []
  merge key (all heads).length heads

theorem mergeAll_perm (sequences : List (List α)) :
    (mergeAll key sequences).Perm sequences.flatten := by
  refine (merge_perm _ _ le_rfl).trans ?_
  simpa [all] using all_start key sequences 0 []

theorem mergeAll_sorted (sequences : List (List α))
    (h : ∀ items ∈ sequences, items.Pairwise fun a b => key a ≤ key b) :
    (mergeAll key sequences).Pairwise fun a b => key a ≤ key b :=
  merge_sorted _ _ le_rfl (Ordered.start ⟨by simp, List.Pairwise.nil⟩ sequences 0 h)

theorem sublist_mergeAll (sequences : List (List α)) :
    ∀ items ∈ sequences, items.Sublist (mergeAll key sequences) := by
  intro items hitems
  by_cases hne : items = []
  · rw [hne]
    exact List.nil_sublist _
  · obtain ⟨head, hhead, rfl⟩ := (mem_start key sequences 0 []).2 items hitems hne
    exact sublist_merge _ _ le_rfl head hhead

end Merge
