import Mathlib.Logic.Function.Basic
import Mathlib.Tactic.NormNum

/-!
# Byte memory with 64-bit addresses

Memory is a function from addresses to bytes.  `copyBytes` copies upwards one byte at a time
and reads the memory it has already written, so overlapping buffers behave as they do in a
byte loop.  Words of 32 bits are stored with the least significant byte first.
-/

namespace RealtimeKernel.Lib

abbrev Addr := BitVec 64

/-- The contents of memory. -/
abbrev Mem := Addr → BitVec 8

/-- The address `i` bytes above `a`. -/
def Addr.offset (a : Addr) (i : ℕ) : Addr := a + BitVec.ofNat 64 i

@[simp] theorem Addr.offset_zero (a : Addr) : Addr.offset a 0 = a := by simp [Addr.offset]

theorem Addr.offset_inj {a : Addr} {i j : ℕ} (hi : i < 2 ^ 64) (hj : j < 2 ^ 64) :
    Addr.offset a i = Addr.offset a j ↔ i = j := by
  unfold Addr.offset
  constructor
  · intro h
    have hij : BitVec.ofNat 64 i = BitVec.ofNat 64 j := by
      simpa using h
    have hnat := congrArg BitVec.toNat hij
    rwa [BitVec.toNat_ofNat, BitVec.toNat_ofNat, Nat.mod_eq_of_lt hi, Nat.mod_eq_of_lt hj] at hnat
  · rintro rfl
    rfl

/-- Copies `n` bytes from `src` to `dest`, from the lowest address upwards. -/
def copyBytes (m : Mem) (dest src : Addr) : ℕ → Mem
  | 0 => m
  | n + 1 =>
    let m' := copyBytes m dest src n
    Function.update m' (dest.offset n) (m' (src.offset n))

/-- Sets the `n` bytes from `base` to zero. -/
def zeroBytes (m : Mem) (base : Addr) (n : ℕ) : Mem :=
  fun a => if (a - base).toNat < n then 0 else m a

/-- Stores a 32-bit word, least significant byte first. -/
def store32 (m : Mem) (a : Addr) (v : BitVec 32) : Mem :=
  Function.update (Function.update (Function.update (Function.update m
    (a.offset 0) (v.extractLsb' 0 8)) (a.offset 1) (v.extractLsb' 8 8))
    (a.offset 2) (v.extractLsb' 16 8)) (a.offset 3) (v.extractLsb' 24 8)

/-- The 32-bit word at an address. -/
def load32 (m : Mem) (a : Addr) : BitVec 32 :=
  m (a.offset 3) ++ m (a.offset 2) ++ m (a.offset 1) ++ m (a.offset 0)

/-- The addresses `a, a + 1, …, a + (n - 1)` and `b, …, b + (k - 1)` have none in common. -/
def Apart (a : Addr) (n : ℕ) (b : Addr) (k : ℕ) : Prop :=
  ∀ i < n, ∀ j < k, a.offset i ≠ b.offset j

theorem Apart.symm {a b : Addr} {n k : ℕ} (h : Apart a n b k) : Apart b k a n :=
  fun i hi j hj heq => h j hj i hi heq.symm

theorem Apart.mono {a b : Addr} {n n' k k' : ℕ} (h : Apart a n b k) (hn : n' ≤ n)
    (hk : k' ≤ k) : Apart a n' b k' :=
  fun i hi j hj => h i (by omega) j (by omega)

/-! ### What a copy changes -/

theorem copyBytes_of_ne (m : Mem) (dest src : Addr) {n : ℕ} {a : Addr}
    (ha : ∀ i < n, a ≠ dest.offset i) : copyBytes m dest src n a = m a := by
  induction n with
  | zero => rfl
  | succ n ih =>
    rw [copyBytes, Function.update_of_ne (ha n (by omega))]
    exact ih fun i hi => ha i (by omega)

theorem store32_of_ne (m : Mem) (a : Addr) (v : BitVec 32) {b : Addr}
    (hb : ∀ i < 4, b ≠ a.offset i) : store32 m a v b = m b := by
  unfold store32
  rw [Function.update_of_ne (hb 3 (by omega)), Function.update_of_ne (hb 2 (by omega)),
    Function.update_of_ne (hb 1 (by omega)), Function.update_of_ne (hb 0 (by omega))]

/-- A word reads back as it was stored. -/
theorem load32_store32 (m : Mem) (a : Addr) (v : BitVec 32) : load32 (store32 m a v) a = v := by
  have hne : ∀ i j : ℕ, i < 4 → j < 4 → i ≠ j → a.offset i ≠ a.offset j := by
    intro i j hi hj h
    rwa [Ne, Addr.offset_inj (by omega) (by omega)]
  have h₀ : store32 m a v (a.offset 0) = v.extractLsb' 0 8 := by
    unfold store32
    rw [Function.update_of_ne (hne 0 3 (by omega) (by omega) (by omega)),
      Function.update_of_ne (hne 0 2 (by omega) (by omega) (by omega)),
      Function.update_of_ne (hne 0 1 (by omega) (by omega) (by omega)), Function.update_self]
  have h₁ : store32 m a v (a.offset 1) = v.extractLsb' 8 8 := by
    unfold store32
    rw [Function.update_of_ne (hne 1 3 (by omega) (by omega) (by omega)),
      Function.update_of_ne (hne 1 2 (by omega) (by omega) (by omega)), Function.update_self]
  have h₂ : store32 m a v (a.offset 2) = v.extractLsb' 16 8 := by
    unfold store32
    rw [Function.update_of_ne (hne 2 3 (by omega) (by omega) (by omega)), Function.update_self]
  have h₃ : store32 m a v (a.offset 3) = v.extractLsb' 24 8 := by
    unfold store32
    rw [Function.update_self]
  unfold load32
  rw [h₀, h₁, h₂, h₃]
  apply BitVec.eq_of_getLsbD_eq
  intro i hi
  simp only [BitVec.getLsbD_append, BitVec.getLsbD_extractLsb']
  by_cases c₀ : i < 8
  · simp [c₀]
  by_cases c₁ : i < 16
  · simp [c₀, show i - 8 < 8 by omega, show 8 + (i - 8) = i by omega]
  by_cases c₂ : i < 24
  · simp [c₀, show ¬ i - 8 < 8 by omega, show i - 8 - 8 < 8 by omega,
      show 16 + (i - 8 - 8) = i by omega]
  · simp [c₀, show ¬ i - 8 < 8 by omega, show ¬ i - 8 - 8 < 8 by omega,
      show i - 8 - 8 - 8 < 8 by omega, show 24 + (i - 8 - 8 - 8) = i by omega]

theorem load32_congr {m m' : Mem} {a : Addr} (h : ∀ i < 4, m' (a.offset i) = m (a.offset i)) :
    load32 m' a = load32 m a := by
  unfold load32
  rw [h 0 (by omega), h 1 (by omega), h 2 (by omega), h 3 (by omega)]

end RealtimeKernel.Lib
