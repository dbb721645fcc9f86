import RealtimeKernel.Lib.Bytes

/-!
# What a byte copy reads and writes

`copyAccesses` lists the accesses of a copy loop in order: where a byte is read, where it is
written and which byte it is.  A copy delivers the source as it was before just when no byte is
overwritten by a different one before it is read.
-/

namespace RealtimeKernel.Lib

/-- One round of a copy loop. -/
structure Access where
  read : Addr
  write : Addr
  byte : BitVec 8

/-- The accesses of `copyBytes`. -/
def copyAccesses (m : Mem) (dest src : Addr) : ℕ → List Access
  | 0 => []
  | n + 1 => copyAccesses m dest src n ++
      [⟨src.offset n, dest.offset n, copyBytes m dest src n (src.offset n)⟩]

/-- The copy is what these accesses do to the memory. -/
theorem copyBytes_eq_foldl (m : Mem) (dest src : Addr) (n : ℕ) :
    copyBytes m dest src n =
      (copyAccesses m dest src n).foldl (fun m a => Function.update m a.write a.byte) m := by
  induction n with
  | zero => rfl
  | succ n ih =>
    rw [copyAccesses, List.foldl_append, ← ih]
    rfl

theorem length_copyAccesses (m : Mem) (dest src : Addr) (n : ℕ) :
    (copyAccesses m dest src n).length = n := by
  induction n with
  | zero => rfl
  | succ n ih => rw [copyAccesses, List.length_append, ih, List.length_singleton]

/-- The accesses are those of the offsets below `n`. -/
theorem mem_copyAccesses {m : Mem} {dest src : Addr} {n : ℕ} {a : Access} :
    a ∈ copyAccesses m dest src n ↔
      ∃ i < n, a = ⟨src.offset i, dest.offset i, copyBytes m dest src i (src.offset i)⟩ := by
  induction n with
  | zero => simp [copyAccesses]
  | succ n ih =>
    rw [copyAccesses, List.mem_append, ih, List.mem_singleton]
    constructor
    · rintro (⟨i, hi, rfl⟩ | rfl)
      · exact ⟨i, by omega, rfl⟩
      · exact ⟨n, by omega, rfl⟩
    · rintro ⟨i, hi, rfl⟩
      rcases Nat.lt_succ_iff_lt_or_eq.mp hi with hlt | rfl
      · exact Or.inl ⟨i, hlt, rfl⟩
      · exact Or.inr rfl

/-- A byte stays as it was written. -/
theorem copyBytes_written (m : Mem) (dest src : Addr) {i n : ℕ} (hi : i < n) (hn : n ≤ 2 ^ 64) :
    copyBytes m dest src n (dest.offset i) = copyBytes m dest src i (src.offset i) := by
  induction n with
  | zero => omega
  | succ n ih =>
    rw [copyBytes]
    rcases Nat.lt_succ_iff_lt_or_eq.mp hi with hlt | rfl
    · have hne : dest.offset i ≠ dest.offset n := by
        rw [Ne, Addr.offset_inj (by omega) (by omega)]
        omega
      rw [Function.update_of_ne hne]
      exact ih hlt (by omega)
    · rw [Function.update_self]

/-- No source byte is replaced by a different one before it is read. -/
def Undisturbed (m : Mem) (dest src : Addr) (n : ℕ) : Prop :=
  ∀ i < n, ∀ j < i, src.offset i = dest.offset j → m (src.offset i) = m (src.offset j)

theorem Apart.undisturbed {m : Mem} {dest src : Addr} {n : ℕ} (h : Apart src n dest n) :
    Undisturbed m dest src n :=
  fun i hi j hj heq => absurd heq (h i hi j (by omega))

/-- What is read at an offset: the byte of the source, or one that the copy put there. -/
theorem copyBytes_read (m : Mem) (dest src : Addr) {i : ℕ} (hi : i ≤ 2 ^ 64) :
    (copyBytes m dest src i (src.offset i) = m (src.offset i) ∧
      ∀ j < i, src.offset i ≠ dest.offset j) ∨
    ∃ j < i, src.offset i = dest.offset j ∧
      copyBytes m dest src i (src.offset i) = copyBytes m dest src j (src.offset j) := by
  by_cases h : ∃ j < i, src.offset i = dest.offset j
  · obtain ⟨j, hj, heq⟩ := h
    refine Or.inr ⟨j, hj, heq, ?_⟩
    rw [heq]
    exact copyBytes_written m dest src hj hi
  · have hne : ∀ j < i, src.offset i ≠ dest.offset j := fun j hj heq => h ⟨j, hj, heq⟩
    exact Or.inl ⟨copyBytes_of_ne m dest src hne, hne⟩

/-- **A copy delivers the source as it was before** just when it is undisturbed. -/
theorem copyBytes_faithful_iff (m : Mem) (dest src : Addr) {n : ℕ} (hn : n ≤ 2 ^ 64) :
    (∀ i < n, copyBytes m dest src n (dest.offset i) = m (src.offset i)) ↔
      Undisturbed m dest src n := by
  constructor
  · intro h i hi j hj heq
    have hread : ∀ k < n, copyBytes m dest src k (src.offset k) = m (src.offset k) := by
      intro k hk
      rw [← copyBytes_written m dest src hk hn]
      exact h k hk
    rw [← hread i hi, ← hread j (by omega), heq]
    exact copyBytes_written m dest src hj (by omega)
  · intro h i hi
    rw [copyBytes_written m dest src hi hn]
    induction i using Nat.strong_induction_on with
    | _ i ih =>
      rcases copyBytes_read m dest src (show i ≤ 2 ^ 64 by omega) with ⟨heq, -⟩ | ⟨j, hj, heq, hw⟩
      · exact heq
      · rw [hw, ih j hj (by omega)]
        exact (h i hi j hj heq).symm

end RealtimeKernel.Lib
