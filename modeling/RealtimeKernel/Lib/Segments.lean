import Mathlib.Algebra.GroupWithZero.Nat
import Mathlib.Data.List.Basic
import Mathlib.Tactic.Common

/-!
# The segments of a list

A list split at every occurrence of a separator has one segment more than it has separators.
`segmentStart S k` is the index at which the segment `k` begins when the segments `S` are
written one after the other with a separator between them.
-/

namespace RealtimeKernel.Lib

variable {α : Type*} {a : α} {S : List (List α)} {k : ℕ}

/-- Where segment `k` begins: each earlier segment is followed by one separator. -/
def segmentStart (S : List (List α)) (k : ℕ) : ℕ := ((S.take k).map fun s => s.length + 1).sum

@[simp] theorem segmentStart_zero : segmentStart S 0 = 0 := by simp [segmentStart]

@[simp] theorem segmentStart_cons_succ (s : List α) :
    segmentStart (s :: S) (k + 1) = s.length + 1 + segmentStart S k := by
  simp [segmentStart]

variable [BEq α]

theorem exists_splitOn_eq_cons (a : α) (l : List α) : ∃ s S, l.splitOn a = s :: S :=
  List.exists_cons_of_ne_nil (List.splitOn_ne_nil a l)

variable [LawfulBEq α]

theorem splitOn_cons_self (l : List α) : (a :: l).splitOn a = [] :: l.splitOn a := by
  rw [List.splitOn_cons_eq_if_modifyHead, if_pos (by simp)]

/-- A list that does not begin with the separator extends the first segment. -/
theorem splitOn_cons_of_ne {x : α} {l s : List α} (hx : x ≠ a) (hl : l.splitOn a = s :: S) :
    (x :: l).splitOn a = (x :: s) :: S := by
  rw [List.splitOn_cons_eq_if_modifyHead, if_neg (by simpa using hx), hl]
  rfl

theorem length_splitOn (a : α) (l : List α) : (l.splitOn a).length = l.count a + 1 := by
  induction l with
  | nil => simp
  | cons x l ih =>
    by_cases hx : x = a
    · subst hx
      rw [splitOn_cons_self, List.length_cons, ih, List.count_cons_self]
    · obtain ⟨s, S, hl⟩ := exists_splitOn_eq_cons a l
      rw [splitOn_cons_of_ne hx hl, List.length_cons, ← List.length_cons (a := s), ← hl, ih,
        List.count_cons_of_ne hx]

/-- Segment `k` stands in the list from `segmentStart` on. -/
theorem take_drop_segmentStart {t : List α} (l : List α) (ht : (l.splitOn a)[k]? = some t) :
    (l.drop (segmentStart (l.splitOn a) k)).take t.length = t := by
  induction l generalizing k t with
  | nil =>
    cases k with
    | zero =>
      obtain rfl : [] = t := by simpa using ht
      rfl
    | succ k => simp at ht
  | cons x l ih =>
    by_cases hx : x = a
    · subst hx
      rw [splitOn_cons_self] at ht ⊢
      cases k with
      | zero =>
        obtain rfl : [] = t := by simpa using ht
        simp
      | succ k =>
        rw [segmentStart_cons_succ, List.length_nil, Nat.zero_add, Nat.add_comm,
          List.drop_succ_cons]
        exact ih (by simpa using ht)
    · obtain ⟨s, S, hl⟩ := exists_splitOn_eq_cons a l
      rw [splitOn_cons_of_ne hx hl] at ht ⊢
      rw [hl] at ih
      cases k with
      | zero =>
        obtain rfl : x :: s = t := by simpa using ht
        have hs := ih (k := 0) (t := s) (by simp)
        simpa using hs
      | succ k =>
        rw [segmentStart_cons_succ, List.length_cons,
          show s.length + 1 + 1 + segmentStart S k = segmentStart (s :: S) (k + 1) + 1 by
            rw [segmentStart_cons_succ]; omega,
          List.drop_succ_cons]
        exact ih (by simpa using ht)

end RealtimeKernel.Lib
