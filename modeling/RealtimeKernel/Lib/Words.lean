import RealtimeKernel.Lib.Bytes

/-!
# 64-bit words in byte memory

Words are little-endian and need no alignment.  What a store changes is said byte by byte:
`InBlock a n c` is "`c` is one of the `n` bytes from `a`", and every store leaves the bytes
outside its block alone.  Blocks may wrap around the end of the address space.
-/

namespace RealtimeKernel.Lib

abbrev Word := BitVec 64

/-! ### Addresses and blocks -/

/-- The address `d` bytes from `a`, upwards or downwards. -/
def Addr.shift (a : Addr) (d : ℤ) : Addr := a + BitVec.ofInt 64 d

theorem Addr.offset_offset (a : Addr) (i j : ℕ) : (a.offset i).offset j = a.offset (i + j) := by
  unfold Addr.offset
  rw [BitVec.add_assoc, ← BitVec.ofNat_add]

theorem Addr.shift_shift (a : Addr) (d e : ℤ) : (a.shift d).shift e = a.shift (d + e) := by
  unfold Addr.shift
  rw [BitVec.add_assoc, ← BitVec.ofInt_add]

@[simp] theorem Addr.shift_zero (a : Addr) : a.shift 0 = a := by simp [Addr.shift]

theorem Addr.offset_eq_shift (a : Addr) (i : ℕ) : a.offset i = a.shift i := by
  simp [Addr.offset, Addr.shift]

/-- The byte `c` is one of the `n` bytes from `a`. -/
def InBlock (a : Addr) (n : ℕ) (c : Addr) : Prop := (c - a).toNat < n

instance (a : Addr) (n : ℕ) (c : Addr) : Decidable (InBlock a n c) :=
  inferInstanceAs (Decidable (_ < _))

theorem Addr.offset_sub_toNat (a : Addr) {i : ℕ} (hi : i < 2 ^ 64) :
    (a.offset i - a).toNat = i := by
  unfold Addr.offset
  rw [BitVec.add_comm, BitVec.add_sub_cancel, BitVec.toNat_ofNat, Nat.mod_eq_of_lt hi]

theorem Addr.offset_sub (a c : Addr) : a.offset (c - a).toNat = c := by
  unfold Addr.offset
  rw [BitVec.ofNat_toNat, BitVec.setWidth_eq, BitVec.add_comm, BitVec.sub_add_cancel]

theorem inBlock_iff {a c : Addr} {n : ℕ} (hn : n ≤ 2 ^ 64) :
    InBlock a n c ↔ ∃ i < n, c = a.offset i := by
  constructor
  · intro h
    exact ⟨(c - a).toNat, h, (Addr.offset_sub a c).symm⟩
  · rintro ⟨i, hi, rfl⟩
    show (a.offset i - a).toNat < n
    rw [Addr.offset_sub_toNat a (by omega)]
    exact hi

/-- A block inside a block. -/
theorem InBlock.sub {a c : Addr} {i n k : ℕ} (h : InBlock (a.offset i) n c) (hk : i + n ≤ k)
    (hmax : k ≤ 2 ^ 64) : InBlock a k c := by
  obtain ⟨j, hj, rfl⟩ := (inBlock_iff (by omega)).mp h
  rw [Addr.offset_offset]
  exact (inBlock_iff hmax).mpr ⟨i + j, by omega, rfl⟩

theorem InBlock.mono {a c : Addr} {n k : ℕ} (h : InBlock a n c) (hk : n ≤ k) : InBlock a k c :=
  Nat.lt_of_lt_of_le h hk

theorem Apart.not_inBlock {a b c : Addr} {n k : ℕ} (h : Apart a n b k) (ha : InBlock a n c) :
    ¬ InBlock b k c := by
  intro hb
  refine h _ ha _ hb ?_
  rw [Addr.offset_sub, Addr.offset_sub]

/-- Blocks inside blocks that are apart. -/
theorem Apart.sub {a b : Addr} {n k i j n' k' : ℕ} (h : Apart a n b k) (hi : i + n' ≤ n)
    (hj : j + k' ≤ k) : Apart (a.offset i) n' (b.offset j) k' := by
  intro x hx y hy
  rw [Addr.offset_offset, Addr.offset_offset]
  exact h (i + x) (by omega) (j + y) (by omega)

/-- Blocks at distinct places of one object. -/
theorem apart_offset (a : Addr) {i j n k : ℕ} (h : i + n ≤ j ∨ j + k ≤ i)
    (hi : i + n ≤ 2 ^ 64) (hj : j + k ≤ 2 ^ 64) : Apart (a.offset i) n (a.offset j) k := by
  intro x hx y hy heq
  rw [Addr.offset_offset, Addr.offset_offset, Addr.offset_inj (by omega) (by omega)] at heq
  omega

/-! ### Loading and storing one word -/

theorem bits_succ (n : ℕ) : 8 + 8 * n = 8 * (n + 1) := by omega

/-- The `n` bytes from `a`, the lowest address least significant. -/
def loadBytes (m : Mem) (a : Addr) : (n : ℕ) → BitVec (8 * n)
  | 0 => BitVec.nil
  | n + 1 => (m (a.offset n) ++ loadBytes m a n).cast (bits_succ n)

def load64 (m : Mem) (a : Addr) : Word := loadBytes m a 8

def store64 (m : Mem) (a : Addr) (v : Word) : Mem := fun c =>
  if (c - a).toNat < 8 then v.extractLsb' (8 * (c - a).toNat) 8 else m c

theorem getLsbD_loadBytes (m : Mem) (a : Addr) (n k : ℕ) :
    (loadBytes m a n).getLsbD k =
      (decide (k < 8 * n) && (m (a.offset (k / 8))).getLsbD (k % 8)) := by
  induction n with
  | zero => simp [loadBytes]
  | succ n ih =>
    rw [loadBytes, BitVec.getLsbD_cast, BitVec.getLsbD_append, ih]
    by_cases h : k < 8 * n
    · simp [h, show k < 8 * (n + 1) by omega]
    · by_cases h' : k < 8 * (n + 1)
      · simp [h, h', show k / 8 = n by omega, show k % 8 = k - 8 * n by omega]
      · have hbig : (m (a.offset n)).getLsbD (k - 8 * n) = false :=
          BitVec.getLsbD_of_ge _ _ (by omega)
        simp [h, h', hbig]

theorem load64_congr {m m' : Mem} {a : Addr} (h : ∀ c, InBlock a 8 c → m' c = m c) :
    load64 m' a = load64 m a := by
  apply BitVec.eq_of_getLsbD_eq
  intro k hk
  show (loadBytes m' a 8).getLsbD k = (loadBytes m a 8).getLsbD k
  rw [getLsbD_loadBytes, getLsbD_loadBytes,
    h _ ((inBlock_iff (by omega)).mpr ⟨k / 8, by omega, rfl⟩)]

/-- A word reads back as it was stored. -/
theorem load64_store64_self (m : Mem) (a : Addr) (v : Word) : load64 (store64 m a v) a = v := by
  apply BitVec.eq_of_getLsbD_eq
  intro k hk
  show (loadBytes (store64 m a v) a 8).getLsbD k = v.getLsbD k
  have hsub : (a.offset (k / 8) - a).toNat = k / 8 := Addr.offset_sub_toNat a (by omega)
  have hbyte : store64 m a v (a.offset (k / 8)) = v.extractLsb' (8 * (k / 8)) 8 := by
    simp only [store64, hsub]
    rw [if_pos (by omega)]
  rw [getLsbD_loadBytes, hbyte, BitVec.getLsbD_extractLsb']
  simp [show k < 8 * 8 by omega, show k % 8 < 8 by omega, show 8 * (k / 8) + k % 8 = k by omega]

theorem store64_outside {m : Mem} {a c : Addr} (v : Word) (h : ¬ InBlock a 8 c) :
    store64 m a v c = m c := if_neg h

/-- A store changes the bytes of its word only: inside, the memory before does not matter. -/
theorem store64_inside {m m' : Mem} {a c : Addr} (v : Word) (h : InBlock a 8 c) :
    store64 m a v c = store64 m' a v c :=
  (if_pos h).trans (if_pos h).symm

theorem load64_store64_of_apart {m : Mem} {a b : Addr} (v : Word) (h : Apart a 8 b 8) :
    load64 (store64 m a v) b = load64 m b :=
  load64_congr fun _ hc => store64_outside v fun ha => h.not_inBlock ha hc

/-! ### Storing a run of words -/

/-- Stores the words at `a`, `a + 8`, …. -/
def storeWords (m : Mem) (a : Addr) : List Word → Mem
  | [] => m
  | w :: ws => storeWords (store64 m a w) (a.offset 8) ws

theorem storeWords_outside {m : Mem} {a c : Addr} {ws : List Word} (h : 8 * ws.length ≤ 2 ^ 64)
    (hc : ¬ InBlock a (8 * ws.length) c) : storeWords m a ws c = m c := by
  induction ws generalizing m a with
  | nil => rfl
  | cons w ws ih =>
    rw [List.length_cons] at h hc
    rw [storeWords, ih (by omega) fun hb => hc (hb.sub (by omega) h)]
    exact store64_outside w fun hb => hc (hb.mono (by omega))

theorem load64_storeWords {m : Mem} {a : Addr} {ws : List Word} (h : 8 * ws.length ≤ 2 ^ 64)
    {i : ℕ} (hi : i < ws.length) :
    load64 (storeWords m a ws) (a.offset (8 * i)) = ws[i] := by
  induction ws generalizing m a i with
  | nil => cases hi
  | cons w ws ih =>
    rw [List.length_cons] at h hi
    rw [storeWords]
    cases i with
    | zero =>
      have hout : load64 (storeWords (store64 m a w) (a.offset 8) ws) a =
          load64 (store64 m a w) a := by
        refine load64_congr fun c hc => storeWords_outside (by omega) fun hb => ?_
        have hap : Apart (a.offset 0) 8 (a.offset 8) (8 * ws.length) :=
          apart_offset a (Or.inl (by omega)) (by omega) (by omega)
        rw [Addr.offset_zero] at hap
        exact hap.not_inBlock hc hb
      show load64 _ (a.offset 0) = w
      rw [Addr.offset_zero, hout, load64_store64_self]
    | succ i =>
      have hi' : i < ws.length := by omega
      rw [show 8 * (i + 1) = 8 + 8 * i by omega, ← Addr.offset_offset]
      exact ih (by omega) hi'

end RealtimeKernel.Lib
