import Mathlib.Data.List.Basic
import Mathlib.Data.List.TakeWhile
import Mathlib.Order.Lattice
import Mathlib.Tactic.Common

/-!
# Lists kept sorted by insertion

`insertBehind key x l` puts `x` in front of the first element with a greater key.  Started from
nothing, such insertions and removals keep the list a stable sort of what was inserted: sorted
by key, and the elements of one key in the order in which they came.
-/

namespace RealtimeKernel.Lib

variable {α κ : Type*} [LinearOrder κ] {key : α → κ} {x : α} {l items : List α}

/-- Puts `x` behind the leading elements whose keys are not greater. -/
def insertBehind (key : α → κ) (x : α) (l : List α) : List α :=
  l.takeWhile (fun y => decide (key y ≤ key x)) ++
    x :: l.dropWhile (fun y => decide (key y ≤ key x))

theorem insertBehind_perm (key : α → κ) (x : α) (l : List α) :
    (insertBehind key x l).Perm (x :: l) := by
  apply List.perm_middle.trans
  rw [List.takeWhile_append_dropWhile]

/-- An insertion in front of some element leaves the last element where it is. -/
theorem getLast?_insertBehind_of_lt (h : ∃ y ∈ l, key x < key y) :
    (insertBehind key x l).getLast? = l.getLast? := by
  have hne : l.dropWhile (fun y => decide (key y ≤ key x)) ≠ [] := by
    intro hnil
    obtain ⟨y, hy, hlt⟩ := h
    have hle := List.dropWhile_eq_nil_iff.mp hnil y hy
    exact absurd (of_decide_eq_true hle) (not_le.mpr hlt)
  obtain ⟨z, r, hdrop⟩ := List.exists_cons_of_ne_nil hne
  have hl := List.takeWhile_append_dropWhile (p := fun y => decide (key y ≤ key x)) (l := l)
  rw [insertBehind]
  rw [hdrop] at hl ⊢
  generalize l.takeWhile _ = t at hl ⊢
  rw [← hl, List.getLast?_append_of_ne_nil _ (by simp), List.getLast?_append_of_ne_nil _ (by simp),
    List.getLast?_cons_cons]

/-- An insertion behind all elements makes the new element the last one. -/
theorem insertBehind_of_le (h : ∀ y ∈ l, key y ≤ key x) : insertBehind key x l = l ++ [x] := by
  have htake : l.takeWhile (fun y => decide (key y ≤ key x)) = l := by
    rw [List.takeWhile_eq_self_iff]
    intro y hy
    exact decide_eq_true (h y hy)
  have hdrop : l.dropWhile (fun y => decide (key y ≤ key x)) = [] := by
    rw [List.dropWhile_eq_nil_iff]
    intro y hy
    exact decide_eq_true (h y hy)
  rw [insertBehind, htake, hdrop]

/-- In a sorted list, what comes behind the first key greater than `k` is greater. -/
theorem lt_of_mem_dropWhile (key : α → κ) (hl : l.Pairwise fun a b => key a ≤ key b) {k : κ}
    {y : α} (hy : y ∈ l.dropWhile fun y => decide (key y ≤ k)) : k < key y := by
  induction l with
  | nil => simp at hy
  | cons z l ih =>
    obtain ⟨hz, hl'⟩ := List.pairwise_cons.mp hl
    by_cases hle : key z ≤ k
    · rw [List.dropWhile_cons_of_pos (by simpa using hle)] at hy
      exact ih hl' hy
    · have hlt := not_le.mp hle
      rw [List.dropWhile_cons_of_neg (by simpa using hlt)] at hy
      rcases List.mem_cons.mp hy with rfl | hy
      · exact hlt
      · exact lt_of_lt_of_le hlt (hz y hy)

theorem le_of_mem_takeWhile (key : α → κ) {k : κ} {y : α}
    (hy : y ∈ l.takeWhile fun y => decide (key y ≤ k)) : key y ≤ k := by
  have hall := List.all_takeWhile (p := fun y => decide (key y ≤ k)) (l := l)
  exact of_decide_eq_true (List.all_eq_true.mp hall y hy)

/-- In a sorted list, the elements up to a key are a prefix. -/
theorem takeWhile_eq_filter (key : α → κ) (hl : l.Pairwise fun a b => key a ≤ key b) (k : κ) :
    (l.takeWhile fun y => decide (key y ≤ k)) = l.filter fun y => decide (key y ≤ k) := by
  have hnone : (l.dropWhile fun y => decide (key y ≤ k)).filter (fun y => decide (key y ≤ k)) =
      [] := by
    rw [List.filter_eq_nil_iff]
    intro y hy hle
    exact absurd (of_decide_eq_true hle) (not_le.mpr (lt_of_mem_dropWhile key hl hy))
  conv_rhs => rw [← List.takeWhile_append_dropWhile (p := fun y => decide (key y ≤ k)) (l := l)]
  rw [List.filter_append, hnone, List.append_nil, List.filter_eq_self.mpr]
  intro y hy
  exact decide_eq_true (le_of_mem_takeWhile key hy)

/-- In a sorted list, the elements beyond a key are a suffix. -/
theorem dropWhile_eq_filter (key : α → κ) (hl : l.Pairwise fun a b => key a ≤ key b) (k : κ) :
    (l.dropWhile fun y => decide (key y ≤ k)) = l.filter fun y => decide (k < key y) := by
  have hnone : (l.takeWhile fun y => decide (key y ≤ k)).filter (fun y => decide (k < key y)) =
      [] := by
    rw [List.filter_eq_nil_iff]
    intro y hy hlt
    exact absurd (of_decide_eq_true hlt) (not_lt.mpr (le_of_mem_takeWhile key hy))
  conv_rhs => rw [← List.takeWhile_append_dropWhile (p := fun y => decide (key y ≤ k)) (l := l)]
  rw [List.filter_append, hnone, List.nil_append, List.filter_eq_self.mpr]
  intro y hy
  exact decide_eq_true (lt_of_mem_dropWhile key hl hy)

/-- An insertion keeps the list sorted. -/
theorem pairwise_insertBehind (key : α → κ) (hl : l.Pairwise fun a b => key a ≤ key b) (x : α) :
    (insertBehind key x l).Pairwise fun a b => key a ≤ key b := by
  have hsplit := hl
  rw [← List.takeWhile_append_dropWhile (p := fun y => decide (key y ≤ key x)) (l := l),
    List.pairwise_append] at hsplit
  rw [insertBehind, List.pairwise_append]
  refine ⟨hsplit.1, ?_, ?_⟩
  · rw [List.pairwise_cons]
    exact ⟨fun y hy => le_of_lt (lt_of_mem_dropWhile key hl hy), hsplit.2.1⟩
  · intro a ha b hb
    rcases List.mem_cons.mp hb with rfl | hb
    · exact le_of_mem_takeWhile key ha
    · exact hsplit.2.2 a ha b hb

/-- In a sorted list, the inserted element comes last among those of its key. -/
theorem filter_insertBehind (key : α → κ) (hl : l.Pairwise fun a b => key a ≤ key b) (x : α)
    (k : κ) :
    (insertBehind key x l).filter (fun a => decide (key a = k)) =
      (l ++ [x]).filter fun a => decide (key a = k) := by
  conv_rhs =>
    rw [← List.takeWhile_append_dropWhile (p := fun y => decide (key y ≤ key x)) (l := l)]
  rw [insertBehind, List.filter_append, List.filter_append, List.filter_append]
  by_cases hk : key x = k
  · have hnone : (l.dropWhile fun y => decide (key y ≤ key x)).filter
        (fun a => decide (key a = k)) = [] := by
      rw [List.filter_eq_nil_iff]
      intro y hy
      have hlt := lt_of_mem_dropWhile key hl hy
      simpa [hk] using (hk ▸ hlt).ne'
    rw [List.filter_cons_of_pos (by simpa using hk), hnone,
      List.filter_cons_of_pos (by simpa using hk), List.filter_nil, List.append_nil]
  · rw [List.filter_cons_of_neg (by simpa using hk), List.filter_cons_of_neg (by simpa using hk),
      List.filter_nil, List.append_nil]

/-- `l` holds `items` sorted by key, the items of one key in their order. -/
structure StablySorted (key : α → κ) (l items : List α) : Prop where
  perm : l.Perm items
  sorted : l.Pairwise fun a b => key a ≤ key b
  stable : ∀ k, l.filter (fun a => decide (key a = k)) = items.filter fun a => decide (key a = k)

namespace StablySorted

theorem nil : StablySorted key ([] : List α) [] := ⟨.nil, .nil, fun _ => rfl⟩

/-- **Insertion.**  The new item comes last among those of its key. -/
theorem insert (h : StablySorted key l items) (x : α) :
    StablySorted key (insertBehind key x l) (items ++ [x]) where
  perm := by
    apply (insertBehind_perm key x l).trans
    apply (List.Perm.cons x h.perm).trans
    show ([x] ++ items).Perm _
    exact List.perm_append_comm
  sorted := pairwise_insertBehind key h.sorted x
  stable := by
    intro k
    rw [filter_insertBehind key h.sorted, List.filter_append, List.filter_append, h.stable k]

/-- **Removal.**  What is left of the list sorts what is left of the items. -/
theorem filter (h : StablySorted key l items) (p : α → Bool) :
    StablySorted key (l.filter p) (items.filter p) where
  perm := h.perm.filter p
  sorted := h.sorted.filter p
  stable := by
    intro k
    rw [List.filter_comm, h.stable k, List.filter_comm]

end StablySorted

end RealtimeKernel.Lib
