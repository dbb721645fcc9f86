import Mathlib.Data.Nat.ModEq
import Mathlib.Tactic.Ring

/-!
# Counters that wrap around

A free-running counter has counted to `v`, but a reader sees it modulo `M`, or in two parts that
it reads one after the other: `v / M` and `v % M`.  While the counter advances from `v` to `w`
by less than `M`, there is at most one *carry* between the parts, and everything that can go
wrong is decided by whether there is one.
-/

namespace RealtimeKernel.Lib

/-- There is no carry into the upper part while the counter advances from `v` to `w`. -/
def NoCarry (M v w : ℕ) : Prop := v / M = w / M

instance (M v w : ℕ) : Decidable (NoCarry M v w) := inferInstanceAs (Decidable (_ = _))

/-- The upper part read at `v` and the lower part read at `w`. -/
def twoReads (M v w : ℕ) : ℕ := v / M * M + w % M

variable {M v w : ℕ}

theorem twoReads_eq (h : NoCarry M v w) : twoReads M v w = w := by
  unfold twoReads
  rw [show v / M = w / M from h]
  exact Nat.div_add_mod' w M

/-- A carry between the reads is lost. -/
theorem twoReads_carry (h : v ≤ w) (hw : w < v + M) (hc : ¬ NoCarry M v w) :
    twoReads M v w + M = w := by
  have hM : 0 < M := by omega
  have hle : v / M ≤ w / M := Nat.div_le_div_right h
  have hub : w / M < v / M + 2 := by
    rw [Nat.div_lt_iff_lt_mul hM]
    have hv := Nat.lt_div_mul_add hM (a := v)
    calc w < v + M := hw
      _ ≤ (v / M + 2) * M := by rw [Nat.add_mul]; omega
  have hone : w / M = v / M + 1 := by
    have hne : v / M ≠ w / M := hc
    omega
  have hdiv := Nat.div_add_mod' w M
  rw [hone, Nat.add_mul] at hdiv
  unfold twoReads
  omega

/-- Without a carry the lower part grows by as much as the counter. -/
theorem noCarry_iff (h : v ≤ w) (hM : 0 < M) : NoCarry M v w ↔ v % M + (w - v) < M := by
  have hv := Nat.div_add_mod' v M
  have hsum : w = v / M * M + (v % M + (w - v)) := by omega
  have hdiv : w / M = v / M + (v % M + (w - v)) / M := by
    conv_lhs => rw [hsum, Nat.mul_comm, Nat.mul_add_div hM]
  unfold NoCarry
  rw [hdiv, ← Nat.div_eq_zero_iff_lt hM]
  omega

/-- The difference of two lower parts is what the counter has advanced. -/
theorem mod_sub_mod (h : v ≤ w) (hw : w < v + M) : (M - v % M + w % M) % M = w - v := by
  have hM : 0 < M := by omega
  have hlt := Nat.mod_lt v hM
  have hsum : w % M = (v % M + (w - v)) % M := by
    conv_lhs => rw [show w = v + (w - v) by omega]
    rw [Nat.add_mod, Nat.mod_eq_of_lt (show w - v < M by omega)]
  rw [hsum, Nat.add_mod_mod, show M - v % M + (v % M + (w - v)) = M + (w - v) by omega,
    Nat.add_mod_left, Nat.mod_eq_of_lt (by omega)]

/-- The lower part grows just when the counter advances without a carry. -/
theorem mod_lt_mod_iff (h : v ≤ w) (hw : w < v + M) :
    v % M < w % M ↔ v < w ∧ NoCarry M v w := by
  have hM : 0 < M := by omega
  have hv := Nat.div_add_mod' v M
  have hwd := Nat.div_add_mod' w M
  by_cases hc : NoCarry M v w
  · have heq : v / M * M = w / M * M := by rw [show v / M = w / M from hc]
    simp only [hc, and_true]
    omega
  · have hcarry := twoReads_carry h hw hc
    unfold twoReads at hcarry
    simp only [hc, and_false, iff_false]
    omega

/-- Within one turn of the lower part, a counter value is met again only as itself. -/
theorem eq_of_mod_eq {k : ℕ} (h : v ≤ w) (hw : w < v + M) (hk : k ≤ w - v)
    (heq : (v + k) % M = w % M) : v + k = w := by
  have hmod : v + k ≡ w [MOD M] := heq
  by_contra hne
  have hle := Nat.le_of_dvd (by omega) ((Nat.modEq_iff_dvd' (by omega)).mp hmod)
  omega

end RealtimeKernel.Lib
