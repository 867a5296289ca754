import Mathlib.Data.List.Basic
import Mathlib.Tactic

/-! Lists made of code words, and lists cut into blocks of one length. Code words are put together
again whatever follows them; blocks start other blocks only where whole blocks end. -/

namespace Blocks
variable {α β : Type}

section Words
variable {code : α → List β}

/-- Words that can be told apart whatever follows them. -/
def Splits (code : α → List β) : Prop := ∀ a a' r r', code a ++ r = code a' ++ r' → a = a'

theorem Splits.rest (h : Splits code) {a a' : α} {r r' : List β}
    (heq : code a ++ r = code a' ++ r') :
    a = a' ∧ r = r' := by
  obtain rfl := h a a' r r' heq
  exact ⟨rfl, List.append_cancel_left heq⟩

theorem Splits.flatMap_prefix_iff (h : Splits code) (hne : ∀ a, code a ≠ []) {l m : List α} :
    l.flatMap code <+: m.flatMap code ↔ l <+: m := by
  refine ⟨fun hleading => ?_, fun ⟨r, hr⟩ => ⟨r.flatMap code, by rw [← List.flatMap_append, hr]⟩⟩
  induction l generalizing m with
  | nil => exact List.nil_prefix
  | cons a l ih =>
    obtain ⟨r, hr⟩ := hleading
    rw [List.flatMap_cons, List.append_assoc] at hr
    cases m with
    | nil =>
      rw [List.flatMap_nil, List.append_eq_nil_iff] at hr
      exact absurd hr.1 (hne a)
    | cons b m =>
      rw [List.flatMap_cons] at hr
      obtain ⟨rfl, hrest⟩ := h.rest hr
      exact List.cons_prefix_cons.2 ⟨rfl, ih ⟨r, hrest⟩⟩

theorem Splits.flatMap_injective (h : Splits code) (hne : ∀ a, code a ≠ []) :
    Function.Injective (List.flatMap code) := by
  intro l m heq
  have hlm : l <+: m := (h.flatMap_prefix_iff hne).1 (by rw [heq])
  have hml : m <+: l := (h.flatMap_prefix_iff hne).1 (by rw [heq])
  exact hlm.eq_of_length (le_antisymm hlm.length_le hml.length_le)

end Words

section Cut
variable (n : ℕ)

def cutFuel : ℕ → List α → List (List α)
  | 0, _ | _, [] => []
  | fuel + 1, a :: l => (a :: l).take n :: cutFuel fuel ((a :: l).drop n)

/-- The list in blocks of `n`, the last of which may be shorter. -/
def cut (l : List α) : List (List α) := cutFuel n l.length l

variable {n}

theorem cutFuel_congr (hn : 0 < n) {fuel fuel' : ℕ} {l : List α} (h : l.length ≤ fuel)
    (h' : l.length ≤ fuel') :
    cutFuel n fuel l = cutFuel n fuel' l := by
  induction fuel generalizing fuel' l with
  | zero =>
    obtain rfl : l = [] := List.length_eq_zero_iff.1 (by omega)
    cases fuel' <;> rfl
  | succ fuel ih =>
    cases l with
    | nil => cases fuel' <;> rfl
    | cons a l =>
      rw [List.length_cons] at h h'
      obtain ⟨fuel', rfl⟩ : ∃ m, fuel' = m + 1 := ⟨fuel' - 1, by omega⟩
      have hdrop : ((a :: l).drop n).length ≤ l.length := by
        rw [List.length_drop, List.length_cons]
        omega
      rw [cutFuel, cutFuel, ih (hdrop.trans (Nat.le_of_succ_le_succ h))
        (hdrop.trans (Nat.le_of_succ_le_succ h'))]

@[simp] theorem cut_nil : cut n ([] : List α) = [] := rfl

theorem cut_of_ne_nil (hn : 0 < n) {l : List α} (hl : l ≠ []) :
    cut n l = l.take n :: cut n (l.drop n) := by
  obtain ⟨a, l, rfl⟩ := List.exists_cons_of_ne_nil hl
  have hdrop : ((a :: l).drop n).length ≤ l.length := by
    rw [List.length_drop, List.length_cons]
    omega
  rw [cut, List.length_cons, cutFuel, cut, cutFuel_congr hn hdrop (le_refl _)]

/-- Induction over the blocks of a list. -/
theorem cut_induction (hn : 0 < n) {P : List α → Prop} (hnil : P [])
    (hcons : ∀ l, l ≠ [] → P (l.drop n) → P l) (l : List α) : P l := by
  induction hlen : l.length using Nat.strong_induction_on generalizing l with
  | _ m ih =>
    by_cases hl : l = []
    · rwa [hl]
    · have hpos : 0 < l.length := List.length_pos_of_ne_nil hl
      exact hcons l hl (ih _ (by rw [List.length_drop]; omega) _ rfl)

theorem cut_flatten (hn : 0 < n) (l : List α) : (cut n l).flatten = l := by
  induction l using cut_induction hn with
  | hnil => rfl
  | hcons l hl ih => rw [cut_of_ne_nil hn hl, List.flatten_cons, ih, List.take_append_drop]

theorem cut_injective (hn : 0 < n) : Function.Injective (cut n : List α → List (List α)) := by
  intro l m heq
  rw [← cut_flatten hn l, heq, cut_flatten hn m]

theorem mem_cut (hn : 0 < n) {l b : List α} (hb : b ∈ cut n l) : b ≠ [] ∧ b.length ≤ n ∧ b ⊆ l := by
  induction l using cut_induction hn with
  | hnil => exact absurd hb List.not_mem_nil
  | hcons l hl ih =>
    rw [cut_of_ne_nil hn hl, List.mem_cons] at hb
    rcases hb with rfl | hb
    · refine ⟨?_, List.length_take_le n l, List.take_subset n l⟩
      rw [Ne, List.take_eq_nil_iff, not_or]
      exact ⟨hn.ne', hl⟩
    · obtain ⟨hne, hlen, hsub⟩ := ih hb
      exact ⟨hne, hlen, fun a ha => List.mem_of_mem_drop (hsub ha)⟩

theorem cut_append (hn : 0 < n) {l : List α} (hdvd : n ∣ l.length) (m : List α) :
    cut n (l ++ m) = cut n l ++ cut n m := by
  induction l using cut_induction hn with
  | hnil => rfl
  | hcons l hl ih =>
    have hle : n ≤ l.length := Nat.le_of_dvd (List.length_pos_of_ne_nil hl) hdvd
    have hdvd' : n ∣ (l.drop n).length := by
      rw [List.length_drop]
      exact Nat.dvd_sub hdvd (dvd_refl n)
    have hlm : l ++ m ≠ [] := List.append_ne_nil_of_left_ne_nil hl m
    rw [cut_of_ne_nil hn hlm, cut_of_ne_nil hn hl, List.take_append_of_le_length hle,
      List.drop_append_of_le_length hle, ih hdvd', List.cons_append]

/-- A list of blocks starts another one where whole blocks end. -/
theorem cut_prefix_iff (hn : 0 < n) {l m : List α} :
    cut n l <+: cut n m ↔ l = m ∨ n ∣ l.length ∧ l <+: m := by
  refine ⟨fun hleading => ?_, fun h => ?_⟩
  · induction l using cut_induction hn generalizing m with
    | hnil => exact .inr ⟨dvd_zero n, List.nil_prefix⟩
    | hcons l hl ih =>
      have hm : m ≠ [] := by
        rintro rfl
        rw [cut_nil, List.prefix_nil, cut_of_ne_nil hn hl] at hleading
        exact absurd hleading (List.cons_ne_nil _ _)
      rw [cut_of_ne_nil hn hl, cut_of_ne_nil hn hm, List.cons_prefix_cons] at hleading
      obtain ⟨htake, hdrop⟩ := hleading
      rcases ih hdrop with heq | ⟨hdvd, hpre⟩
      · left
        rw [← List.take_append_drop n l, htake, heq, List.take_append_drop]
      · by_cases hshort : l.length < n
        · left
          -- The last block of `l` is not a whole one, so the one of `m` that equals it ends `m`.
          have hlens := congrArg List.length htake
          rw [List.length_take, List.length_take] at hlens
          rw [List.take_of_length_le (by omega), List.take_of_length_le (by omega)] at htake
          exact htake
        · right
          refine ⟨?_, ?_⟩
          · rw [List.length_drop] at hdvd
            rw [← Nat.sub_add_cancel (not_lt.1 hshort)]
            exact dvd_add hdvd (dvd_refl n)
          · rw [← List.take_append_drop n l, ← List.take_append_drop n m, htake]
            exact (List.prefix_append_right_inj _).2 hpre
  · rcases h with rfl | ⟨hdvd, r, rfl⟩
    · exact List.prefix_rfl
    · rw [cut_append hn hdvd]
      exact List.prefix_append _ _

end Cut

end Blocks
