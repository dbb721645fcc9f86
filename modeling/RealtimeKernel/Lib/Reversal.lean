import Mathlib.Logic.Function.Basic
import Mathlib.Tactic.Common

/-!
# Reversing a part of an array in place

Two indices move towards each other from the ends of the part and the elements under them are
exchanged.  Whether the length is odd or even, each element ends up in the mirrored place, and
the elements outside of the part stay where they are.
-/

namespace RealtimeKernel.Lib

variable {α : Type*}

/-- Exchanges the elements under `front` and `last`, then moves both indices inwards. -/
def reverseBetween (a : ℕ → α) (front last : ℕ) : ℕ → α :=
  if front < last then
    reverseBetween (Function.update (Function.update a front (a last)) last (a front))
      (front + 1) (last - 1)
  else a
termination_by last - front

theorem reverseBetween_apply (a : ℕ → α) (front last k : ℕ) :
    reverseBetween a front last k =
      if front ≤ k ∧ k ≤ last then a (front + last - k) else a k := by
  fun_induction reverseBetween a front last with
  | case1 a front last hlt ih =>
    rw [ih]
    by_cases hf : k = front
    · rw [if_neg (by omega), if_pos (by omega), Function.update_of_ne (by omega), hf,
        Function.update_self, Nat.add_sub_cancel_left]
    by_cases hl : k = last
    · rw [if_neg (by omega), if_pos (by omega), hl, Function.update_self, Nat.add_sub_cancel]
    by_cases hin : front ≤ k ∧ k ≤ last
    · rw [if_pos (by omega), if_pos hin, Function.update_of_ne (by omega),
        Function.update_of_ne (by omega)]
      congr 1
      omega
    · rw [if_neg (by omega), if_neg hin, Function.update_of_ne hl, Function.update_of_ne hf]
  | case2 a front last hge =>
    split
    · congr 1
      omega
    · rfl

end RealtimeKernel.Lib
