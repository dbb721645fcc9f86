import Mathlib.Algebra.BigOperators.Group.Finset.Basic
import Mathlib.Algebra.Order.BigOperators.Group.Finset
import Mathlib.Data.Fintype.BigOperators
import Mathlib.Tactic.Linarith

/-!
# Families of lists over a finite index

Several queues that share one pool of nodes are a family `c : J → List α`.  Where an element
occurs is counted over the whole family at once: `occurs c a` is the number of places that
hold `a`.  Changing one member changes the count by the difference at that member, and a
family in which every element but one occurs at most once, and that one not at all, holds
fewer entries than there are elements.
-/

namespace RealtimeKernel.Lib

variable {J α β : Type*} [Fintype J] [DecidableEq J]

/-- Replacing one member of a family changes a sum over the family at that member only. -/
theorem sum_update (g : β → ℕ) (c : J → β) (j : J) (b : β) :
    ∑ i, g (Function.update c j b i) + g (c j) = ∑ i, g (c i) + g b := by
  have h₁ := Finset.add_sum_erase Finset.univ (fun i => g (Function.update c j b i))
    (Finset.mem_univ j)
  have h₂ := Finset.add_sum_erase Finset.univ (fun i => g (c i)) (Finset.mem_univ j)
  have h₃ : ∑ i ∈ Finset.univ.erase j, g (Function.update c j b i)
      = ∑ i ∈ Finset.univ.erase j, g (c i) := by
    refine Finset.sum_congr rfl fun i hi => ?_
    rw [Function.update_of_ne (Finset.ne_of_mem_erase hi)]
  simp only [Function.update_self] at h₁
  omega

/-- The number of entries of a family. -/
def entries (c : J → List α) : ℕ := ∑ j, (c j).length

theorem entries_update (c : J → List α) (j : J) (l : List α) :
    entries (Function.update c j l) + (c j).length = entries c + l.length :=
  sum_update List.length c j l

section Occurs

variable [DecidableEq α]

/-- How often `a` occurs in the family. -/
def occurs (c : J → List α) (a : α) : ℕ := ∑ j, (c j).count a

theorem occurs_update (c : J → List α) (j : J) (l : List α) (a : α) :
    occurs (Function.update c j l) a + (c j).count a = occurs c a + l.count a :=
  sum_update (List.count a) c j l

omit [DecidableEq J] in
theorem count_le_occurs (c : J → List α) (j : J) (a : α) : (c j).count a ≤ occurs c a :=
  Finset.single_le_sum (f := fun i => (c i).count a) (fun _ _ => Nat.zero_le _)
    (Finset.mem_univ j)

omit [DecidableEq J] in
theorem occurs_pos_iff (c : J → List α) (a : α) : 0 < occurs c a ↔ ∃ j, a ∈ c j := by
  constructor
  · intro h
    by_contra hno
    have : occurs c a = 0 := Finset.sum_eq_zero fun j _ =>
      List.count_eq_zero.mpr fun hj => hno ⟨j, hj⟩
    omega
  · rintro ⟨j, hj⟩
    exact lt_of_lt_of_le (List.count_pos_iff.mpr hj) (count_le_occurs c j a)

/-- An element that occurs at most once lies in at most one member. -/
theorem eq_of_occurs_le_one {c : J → List α} {a : α} (h : occurs c a ≤ 1) {i j : J}
    (hi : a ∈ c i) (hj : a ∈ c j) : i = j := by
  by_contra hne
  have hsub := Finset.sum_le_univ_sum_of_nonneg (s := {i, j}) (f := fun k => (c k).count a)
    (fun _ => Nat.zero_le _)
  rw [Finset.sum_pair hne] at hsub
  have h₁ := List.count_pos_iff.mpr hi
  have h₂ := List.count_pos_iff.mpr hj
  unfold occurs at h
  omega

omit [DecidableEq J] in
/-- Counted element by element, a family has as many entries as the elements occur in it. -/
theorem entries_eq_sum_occurs [Fintype α] (c : J → List α) : entries c = ∑ a, occurs c a := by
  unfold entries occurs
  rw [Finset.sum_comm]
  refine Finset.sum_congr rfl fun j _ => ?_
  have h := Multiset.sum_count_eq_card (s := Finset.univ) (m := (c j : Multiset α))
    fun a _ => Finset.mem_univ a
  simpa using h.symm

omit [DecidableEq J] in
/-- A family in which no element occurs twice and `a` does not occur has room for `a`. -/
theorem entries_lt_card [Fintype α] {c : J → List α} {a : α} (hle : ∀ b, occurs c b ≤ 1)
    (ha : occurs c a = 0) : entries c < Fintype.card α := by
  rw [entries_eq_sum_occurs, ← Finset.add_sum_erase Finset.univ _ (Finset.mem_univ a), ha]
  have hsum : ∑ b ∈ Finset.univ.erase a, occurs c b ≤ ∑ b ∈ Finset.univ.erase a, 1 :=
    Finset.sum_le_sum fun b _ => hle b
  rw [← Finset.card_eq_sum_ones, Finset.card_erase_of_mem (Finset.mem_univ a),
    Finset.card_univ] at hsum
  have hpos : 0 < Fintype.card α := Fintype.card_pos_iff.mpr ⟨a⟩
  omega

end Occurs

end RealtimeKernel.Lib
