import Mathlib.Data.List.Sort
import Mathlib.Tactic

/-! Queues kept as lists with strictly increasing keys. Entries with distinct keys are determined by
what is in the queue, so that a queue can be reasoned about up to permutation. -/

namespace SortedQueue
variable {α κ : Type} [LinearOrder κ] {key : α → κ} {a b : α} {l m : List α}

def Increasing (key : α → κ) (l : List α) : Prop := l.Pairwise fun a b => key a < key b

def insert (key : α → κ) (a : α) (l : List α) : List α :=
  l.orderedInsert (fun a b => key a ≤ key b) a

theorem perm_insert : (insert key a l).Perm (a :: l) := l.perm_orderedInsert _ a

theorem mem_insert : b ∈ insert key a l ↔ b = a ∨ b ∈ l := List.mem_orderedInsert _

theorem Increasing.insert (hl : Increasing key l) (ha : ∀ b ∈ l, key b ≠ key a) :
    Increasing key (insert key a l) := by
  induction l with
  | nil => exact List.pairwise_singleton _ _
  | cons b l ih =>
    obtain ⟨hb, hl⟩ := List.pairwise_cons.1 hl
    unfold SortedQueue.insert
    rw [List.orderedInsert_cons]
    split_ifs with hab
    · have hlt : key a < key b := lt_of_le_of_ne hab (ha b List.mem_cons_self).symm
      refine List.pairwise_cons.2 ⟨fun c hc => ?_, List.pairwise_cons.2 ⟨hb, hl⟩⟩
      rcases List.mem_cons.1 hc with rfl | hc
      · exact hlt
      · exact hlt.trans (hb c hc)
    · refine List.pairwise_cons.2
        ⟨fun c hc => ?_, ih hl fun c hc => ha c (List.mem_cons_of_mem b hc)⟩
      rcases mem_insert.1 hc with rfl | hc
      · exact not_le.1 hab
      · exact hb c hc

/-- A queue is determined by what is in it. -/
theorem Increasing.eq_of_perm (hl : Increasing key l) (hm : Increasing key m)
    (h : l.Perm m) : l = m :=
  h.eq_of_pairwise (fun _ _ _ _ hab hba => absurd hab hba.asymm) hl hm

/-- What a predicate takes off the front is everything that satisfies it, when nothing that does not
comes before. -/
theorem takeWhile_eq_filter {p : α → Bool} (h : l.Pairwise fun a b => p b = true → p a = true) :
    l.takeWhile p = l.filter p ∧ l.dropWhile p = l.filter fun a => !p a := by
  induction l with
  | nil => exact ⟨rfl, rfl⟩
  | cons a l ih =>
    obtain ⟨hfirst, hrest⟩ := List.pairwise_cons.1 h
    by_cases ha : p a = true
    · simp [ha, ih hrest]
    · have hnone : ∀ b ∈ l, ¬ p b = true := fun b hb hpb => ha (hfirst b hb hpb)
      have hall : ∀ b ∈ l, (!p b) = true := fun b hb => by simpa using hnone b hb
      simp only [Bool.not_eq_true] at ha
      simp only [List.takeWhile_cons, List.dropWhile_cons, List.filter_cons, ha, Bool.false_eq_true,
        if_false, Bool.not_false, if_true]
      exact ⟨(List.filter_eq_nil_iff.2 hnone).symm, by rw [List.filter_eq_self.2 hall]⟩

theorem Increasing.split (p : α → Bool) (h : Increasing key l) :
    Increasing key (l.takeWhile p) ∧ Increasing key (l.dropWhile p) ∧
      ∀ a ∈ l.takeWhile p, ∀ b ∈ l.dropWhile p, key a < key b := by
  rw [← List.takeWhile_append_dropWhile (p := p) (l := l)] at h
  exact List.pairwise_append.1 h

/-- What satisfies a predicate stays the same when only entries that do not are put into the queue.
-/
theorem Increasing.filter_of_perm {added : List α} {p : α → Bool} (hl : Increasing key l)
    (hm : Increasing key m)
    (h : m.Perm (added ++ l)) (hadded : ∀ a ∈ added, p a = false) : m.filter p = l.filter p := by
  refine Increasing.eq_of_perm (hm.sublist List.filter_sublist) (hl.sublist List.filter_sublist) ?_
  have hnone : added.filter p = [] := List.filter_eq_nil_iff.2 fun a ha => by simp [hadded a ha]
  have hperm := h.filter p
  rwa [List.filter_append, hnone, List.nil_append] at hperm

/-- An entry behind all others that satisfy a predicate is the last of them. -/
theorem Increasing.filter_snoc {p : α → Bool} (hl : Increasing key l) (hm : Increasing key m)
    (h : m.Perm (a :: l)) (ha : p a = true) (hlast : ∀ b ∈ l, p b = true → key b < key a) :
    m.filter p = l.filter p ++ [a] := by
  have hsnoc : Increasing key (l.filter p ++ [a]) := by
    refine List.pairwise_append.2
      ⟨hl.sublist List.filter_sublist, List.pairwise_singleton _ _, fun b hb c hc => ?_⟩
    obtain ⟨hmem, hpb⟩ := List.mem_filter.1 hb
    rw [List.mem_singleton.1 hc]
    exact hlast b hmem hpb
  refine Increasing.eq_of_perm (hm.sublist List.filter_sublist) hsnoc ?_
  have hperm := h.filter p
  rw [List.filter_cons_of_pos ha] at hperm
  exact hperm.trans (List.perm_append_singleton _ _).symm

end SortedQueue
