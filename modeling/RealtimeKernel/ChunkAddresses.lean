import Mathlib.Data.Set.Lattice
import Mathlib.Order.CompletePartialOrder
import Mathlib.Order.Interval.Set.Basic
import RealtimeKernel.Lib.Sessions
import RealtimeKernel.MemoryPool

/-!
# The memory pool in bytes and addresses

`MemoryPool` names a chunk by its index.  Here the pool is the C struct: `data` is an array of
bytes that starts at the address `base`, and `unused` is an array of addresses.  A client
allocates what fits in a chunk and frees what it was given and has not freed yet.
-/

namespace RealtimeKernel

open Lib

/-- `MEMORY_POOL_SIZE`. -/
def memoryPoolSize : ℕ := 0x10000

/-- `MEMORY_POOL_CHUNK_SIZE`. -/
def memoryPoolChunkSize : ℕ := 0x80

structure BytePool where
  base : ℕ
  data : ℕ → U8
  unused : ℕ → ℕ
  unusedTop : ℤ

/-- Why a call of the pool does not return. -/
inductive PoolHalt
  /-- The assertion of `memory_pool_allocate` failed. -/
  | assertion
  /-- `unused` is accessed out of its bounds. -/
  | outOfBounds
  deriving DecidableEq, Repr

namespace BytePool

/-! ### `memory_pool.c` -/

/-- One pass of the loop that fills `unused`. -/
def addChunk (self : BytePool) (i : ℕ) : BytePool :=
  { self with
    unused := Function.update self.unused self.unusedTop.toNat
      (self.base + i * memoryPoolChunkSize)
    unusedTop := self.unusedTop + 1 }

def memoryPoolInit (self : BytePool) : BytePool :=
  let self := (List.range memoryPoolSize).foldl
    (fun self i => { self with data := Function.update self.data i 0 }) self
  let self := { self with unusedTop := 0 }
  (List.range (memoryPoolSize / memoryPoolChunkSize)).foldl addChunk self

def memoryPoolAllocate (self : BytePool) (size : ℕ) : Except PoolHalt (Option ℕ × BytePool) :=
  if size ≤ memoryPoolChunkSize then
    if self.unusedTop > 0 then
      let self := { self with unusedTop := self.unusedTop - 1 }
      if self.unusedTop < (memoryPoolChunks : ℤ) then
        .ok (some (self.unused self.unusedTop.toNat), self)
      else .error .outOfBounds
    else .ok (none, self)
  else .error .assertion

def memoryPoolFree (self : BytePool) (addr : ℕ) : Except PoolHalt BytePool :=
  if 0 ≤ self.unusedTop ∧ self.unusedTop < (memoryPoolChunks : ℤ) then
    .ok { self with
      unused := Function.update self.unused self.unusedTop.toNat addr
      unusedTop := self.unusedTop + 1 }
  else .error .outOfBounds

/-! ### The stack of unused chunks -/

variable {p p' : BytePool} {base a : ℕ} {out : List ℕ}

/-- The addresses of all chunks of a pool. -/
def chunks (base : ℕ) : List ℕ :=
  (List.range memoryPoolChunks).map fun i => base + i * memoryPoolChunkSize

/-- The bytes of the chunk at an address. -/
def chunkBytes (a : ℕ) : Set ℕ := Set.Ico a (a + memoryPoolChunkSize)

/-- The first `unused_top` entries of `unused`, the top last. -/
def unusedEntries (p : BytePool) : List ℕ := (List.range p.unusedTop.toNat).map p.unused

theorem mem_chunks : a ∈ chunks base ↔
    ∃ i, i < memoryPoolChunks ∧ base + i * memoryPoolChunkSize = a := by
  simp [chunks]

theorem chunks_nodup (base : ℕ) : (chunks base).Nodup := by
  apply List.Nodup.map _ List.nodup_range
  intro i j hij
  simp only [memoryPoolChunkSize] at hij
  omega

/-- A chunk lies inside the data area. -/
theorem chunkBytes_subset (ha : a ∈ chunks base) :
    chunkBytes a ⊆ Set.Ico base (base + memoryPoolSize) := by
  obtain ⟨i, hi, hia⟩ := mem_chunks.mp ha
  simp only [memoryPoolChunks] at hi
  apply Set.Ico_subset_Ico
  · omega
  · simp only [memoryPoolChunkSize, memoryPoolSize] at *
    omega

/-- Different chunks have no byte in common. -/
theorem chunkBytes_disjoint {b : ℕ} (ha : a ∈ chunks base) (hb : b ∈ chunks base)
    (hab : a ≠ b) : Disjoint (chunkBytes a) (chunkBytes b) := by
  obtain ⟨i, -, hia⟩ := mem_chunks.mp ha
  obtain ⟨j, -, hjb⟩ := mem_chunks.mp hb
  rw [Set.disjoint_left]
  intro x hx hy
  simp only [chunkBytes, Set.mem_Ico, memoryPoolChunkSize] at *
  omega

theorem unusedEntries_length : p.unusedEntries.length = p.unusedTop.toNat := by
  simp [unusedEntries]

/-- Every chunk is unused or in `out`, and only once. -/
structure Splits (base : ℕ) (p : BytePool) (out : List ℕ) : Prop where
  base_eq : p.base = base
  top_nonneg : 0 ≤ p.unusedTop
  perm : (p.unusedEntries ++ out).Perm (chunks base)

namespace Splits

theorem total (h : Splits base p out) : p.unusedTop = memoryPoolChunks - (out.length : ℤ) := by
  have hlen := h.perm.length_eq
  have htop := h.top_nonneg
  rw [List.length_append, unusedEntries_length, chunks, List.length_map,
    List.length_range] at hlen
  omega

theorem nodup (h : Splits base p out) : (p.unusedEntries ++ out).Nodup :=
  h.perm.nodup_iff.mpr (chunks_nodup base)

theorem mem_chunks (h : Splits base p out) (ha : a ∈ out) : a ∈ chunks base :=
  h.perm.subset (List.mem_append_right _ ha)

/-- The unused chunks are those that are not out. -/
theorem mem_unusedEntries (h : Splits base p out) :
    a ∈ p.unusedEntries ↔ a ∈ chunks base ∧ a ∉ out := by
  have hnd := List.nodup_append.mp h.nodup
  rw [← h.perm.mem_iff, List.mem_append]
  constructor
  · intro ha
    exact ⟨.inl ha, fun ho => hnd.2.2 a ha a ho rfl⟩
  · rintro ⟨ha | ha, ho⟩
    · exact ha
    · exact absurd ha ho

/-- With every chunk out, allocation returns `NULL`. -/
theorem allocate_none (h : Splits base p out) {size : ℕ} (hs : size ≤ memoryPoolChunkSize)
    (hout : out.length = memoryPoolChunks) : p.memoryPoolAllocate size = .ok (none, p) := by
  have htop := h.total
  rw [memoryPoolAllocate, if_pos hs, if_neg (by omega)]

/-- With a chunk left, allocation hands one out. -/
theorem allocate_some (h : Splits base p out) {size : ℕ} (hs : size ≤ memoryPoolChunkSize)
    (hout : out.length ≠ memoryPoolChunks) :
    ∃ a p', p.memoryPoolAllocate size = .ok (some a, p') ∧ Splits base p' (out ++ [a]) := by
  have htop := h.total
  have hnonneg := h.top_nonneg
  obtain ⟨n, hn⟩ : ∃ n : ℕ, p.unusedTop = n + 1 := ⟨(p.unusedTop - 1).toNat, by omega⟩
  have hn' : p.unusedTop - 1 = n := by omega
  refine ⟨p.unused n, { p with unusedTop := n }, ?_, h.base_eq, by simp, ?_⟩
  · rw [memoryPoolAllocate, if_pos hs, if_pos (by omega)]
    simp only [hn']
    rw [if_pos (by omega), Int.toNat_natCast]
  · have hentries : p.unusedEntries = (List.range n).map p.unused ++ [p.unused n] := by
      rw [unusedEntries, hn, show ((n : ℤ) + 1).toNat = n + 1 by omega, List.range_succ,
        List.map_append, List.map_singleton]
    have hperm := h.perm
    rw [hentries, List.append_assoc] at hperm
    apply List.Perm.trans _ hperm
    exact List.Perm.append_left _ List.perm_append_comm

/-- A chunk that is out is taken back. -/
theorem free (h : Splits base p out) (ha : a ∈ out) :
    ∃ p', p.memoryPoolFree a = .ok p' ∧ Splits base p' (out.erase a) := by
  have htop := h.total
  have hnonneg := h.top_nonneg
  have hpos := List.length_pos_of_mem ha
  obtain ⟨n, hn⟩ : ∃ n : ℕ, p.unusedTop = n := ⟨p.unusedTop.toNat, by omega⟩
  refine ⟨{ p with unused := Function.update p.unused n a, unusedTop := n + 1 }, ?_, h.base_eq,
    by simp; omega, ?_⟩
  · rw [memoryPoolFree, if_pos (by omega), hn, Int.toNat_natCast]
  · have hold : (List.range n).map (Function.update p.unused n a) = p.unusedEntries := by
      rw [unusedEntries, hn, Int.toNat_natCast]
      apply List.map_congr_left
      intro i hi
      exact Function.update_of_ne (List.mem_range.mp hi).ne _ _
    have hentries : unusedEntries
        { p with unused := Function.update p.unused n a, unusedTop := n + 1 } =
        p.unusedEntries ++ [a] := by
      rw [← hold, unusedEntries, show ((n : ℤ) + 1).toNat = n + 1 by omega, List.range_succ,
        List.map_append, List.map_singleton]
      simp only [Function.update_self]
    rw [hentries, List.append_assoc]
    apply List.Perm.trans _ h.perm
    exact List.Perm.append_left _ (List.perm_cons_erase ha).symm

end Splits

/-! ### The state after `memory_pool_init` -/

/-- Filling one more place of an array that is filled below `n`. -/
theorem update_below {α : Type*} (f g : ℕ → α) (n : ℕ) :
    Function.update (fun j => if j < n then f j else g j) n (f n) =
      fun j => if j < n + 1 then f j else g j := by
  funext j
  rcases Nat.lt_trichotomy j n with hj | hj | hj
  · rw [Function.update_of_ne hj.ne, if_pos hj, if_pos (by omega)]
  · rw [hj, Function.update_self, if_pos (by omega)]
  · rw [Function.update_of_ne hj.ne', if_neg (by omega), if_neg (by omega)]

theorem foldl_addChunk (p : BytePool) (n : ℕ) (htop : p.unusedTop = 0) :
    (List.range n).foldl addChunk p =
      { p with
        unused := fun j => if j < n then p.base + j * memoryPoolChunkSize else p.unused j
        unusedTop := n } := by
  induction n with
  | zero => simp [← htop]
  | succ n ih =>
    rw [List.range_succ, List.foldl_append, ih, List.foldl_cons, List.foldl_nil, addChunk]
    simp only [Int.toNat_natCast]
    rw [update_below (fun j => p.base + j * memoryPoolChunkSize)]
    rfl

theorem foldl_clear (p : BytePool) (n : ℕ) :
    (List.range n).foldl (fun self i => { self with data := Function.update self.data i 0 }) p =
      { p with data := fun j => if j < n then 0 else p.data j } := by
  induction n with
  | zero => simp
  | succ n ih =>
    rw [List.range_succ, List.foldl_append, ih, List.foldl_cons, List.foldl_nil]
    simp only [update_below fun _ => (0 : U8)]

theorem memoryPoolInit_eq (p : BytePool) : p.memoryPoolInit =
    { base := p.base
      data := fun j => if j < memoryPoolSize then 0 else p.data j
      unused := fun j =>
        if j < memoryPoolChunks then p.base + j * memoryPoolChunkSize else p.unused j
      unusedTop := memoryPoolChunks } := by
  rw [memoryPoolInit, foldl_clear, foldl_addChunk _ _ rfl]
  rfl

theorem splits_init (p : BytePool) : Splits p.base p.memoryPoolInit [] := by
  rw [memoryPoolInit_eq]
  refine ⟨rfl, by simp, ?_⟩
  rw [List.append_nil, unusedEntries, chunks, Int.toNat_natCast]
  apply List.Perm.of_eq
  apply List.map_congr_left
  intro i hi
  exact if_pos (List.mem_range.mp hi)

/-! ### The pool of indices is this pool -/

def chunkAddress (base : ℕ) (c : ChunkPtr) : ℕ := base + c * memoryPoolChunkSize

/-- `b` is the pool `p` with each chunk at its address. -/
structure Addresses {κ : Type} (p : MemoryPool κ) (b : BytePool) : Prop where
  top : b.unusedTop = p.unusedTop
  unused : ∀ i : ChunkPtr, b.unused i = chunkAddress b.base (p.unused i)

namespace Addresses

variable {κ : Type} {m m' : MemoryPool κ} {b : BytePool}

theorem init (zero : κ) (b : BytePool) :
    Addresses (RealtimeKernel.memoryPoolInit zero) b.memoryPoolInit := by
  rw [memoryPoolInit_eq]
  exact ⟨rfl, fun i => if_pos i.isLt⟩

theorem allocate (h : Addresses m b) {size : ℕ} (hs : size ≤ memoryPoolChunkSize) :
    ∃ b', b.memoryPoolAllocate size =
        .ok ((RealtimeKernel.memoryPoolAllocate m).1.map (chunkAddress b.base), b') ∧
      b'.base = b.base ∧ Addresses (RealtimeKernel.memoryPoolAllocate m).2 b' := by
  have htop := h.top
  have hle := m.unusedTop_le
  by_cases hpos : 0 < m.unusedTop
  · have hcast : b.unusedTop - 1 = ((m.unusedTop - 1 : ℕ) : ℤ) := by omega
    rw [BytePool.memoryPoolAllocate, if_pos hs, if_pos (by omega),
      RealtimeKernel.memoryPoolAllocate, dif_pos hpos]
    simp only [hcast, Int.toNat_natCast]
    rw [if_pos (by omega)]
    refine ⟨{ b with unusedTop := (m.unusedTop - 1 : ℕ) }, ?_, rfl, rfl, h.unused⟩
    rw [Option.map_some, ← h.unused]
  · rw [BytePool.memoryPoolAllocate, if_pos hs, if_neg (by omega),
      RealtimeKernel.memoryPoolAllocate, dif_neg hpos]
    exact ⟨b, rfl, rfl, h⟩

theorem free (h : Addresses m b) {c : ChunkPtr}
    (hm : RealtimeKernel.memoryPoolFree m c = .ok m') :
    ∃ b', b.memoryPoolFree (chunkAddress b.base c) = .ok b' ∧ b'.base = b.base ∧
      Addresses m' b' := by
  have htop := h.top
  rw [RealtimeKernel.memoryPoolFree] at hm
  split at hm
  · rename_i hlt
    cases hm
    rw [BytePool.memoryPoolFree, if_pos (by omega), htop, Int.toNat_natCast]
    refine ⟨_, rfl, rfl, by simp, ?_⟩
    intro i
    by_cases hi : i = ⟨m.unusedTop, hlt⟩
    · rw [hi]
      simp only [Function.update_self]
    · have hne : (i : ℕ) ≠ m.unusedTop := fun he => hi (Fin.ext he)
      simp only [Function.update_of_ne hi, Function.update_of_ne hne, h.unused]
  · cases hm

end Addresses

/-! ### Sessions with the pool -/

inductive PoolCall
  | allocate (size : ℕ)
  | free (addr : ℕ)
  deriving DecidableEq, Repr

/-- A call of `memory_pool_allocate` or `memory_pool_free`; only the first returns a pointer. -/
def poolCall : Component BytePool PoolCall (Option ℕ) PoolHalt
  | p, .allocate size => p.memoryPoolAllocate size
  | p, .free addr => (p.memoryPoolFree addr).map fun p' => (none, p')

/-- The chunks that are out after a transcript, the one allocated first in front. -/
def outstanding (h : List (PoolCall × Option ℕ)) : List ℕ :=
  h.foldl (fun out e =>
    match e with
    | (.allocate _, some a) => out ++ [a]
    | (.allocate _, none) => out
    | (.free a, _) => out.erase a) []

/-- The client asks for at most a chunk, and frees only what is out. -/
def Fair (h : List (PoolCall × Option ℕ)) : PoolCall → Prop
  | .allocate size => size ≤ memoryPoolChunkSize
  | .free a => a ∈ outstanding h

variable {h : List (PoolCall × Option ℕ)} {c : PoolCall}

theorem outstanding_snoc_allocate (size a : ℕ) :
    outstanding (h ++ [(.allocate size, some a)]) = outstanding h ++ [a] := by
  simp [outstanding]

theorem outstanding_snoc_null (size : ℕ) :
    outstanding (h ++ [(.allocate size, none)]) = outstanding h := by
  simp [outstanding]

theorem outstanding_snoc_free (a : ℕ) (r : Option ℕ) :
    outstanding (h ++ [(.free a, r)]) = (outstanding h).erase a := by
  simp [outstanding]

/-- A fair call returns, and keeps the account of the chunks. -/
theorem Splits.call (hs : Splits base p (outstanding h)) (hf : Fair h c) :
    ∃ r p', poolCall p c = .ok (r, p') ∧ Splits base p' (outstanding (h ++ [(c, r)])) := by
  cases c with
  | allocate size =>
    by_cases hout : (outstanding h).length = memoryPoolChunks
    · refine ⟨none, p, hs.allocate_none hf hout, ?_⟩
      rw [outstanding_snoc_null]
      exact hs
    · obtain ⟨a, p', hcall, hs'⟩ := hs.allocate_some hf hout
      refine ⟨some a, p', hcall, ?_⟩
      rw [outstanding_snoc_allocate]
      exact hs'
  | free a =>
    obtain ⟨p', hcall, hs'⟩ := hs.free hf
    refine ⟨none, p', by simp [poolCall, hcall, Except.map], ?_⟩
    rw [outstanding_snoc_free]
    exact hs'

theorem session_splits {p₀ : BytePool} (hp : Session poolCall p₀.memoryPoolInit h p)
    (hf : Promised Fair h) : Splits p₀.base p (outstanding h) := by
  apply hp.invariant (I := fun h p => Splits p₀.base p (outstanding h)) hf (splits_init p₀)
  intro h p c r p' hs hf hstep
  obtain ⟨r', p'', hstep', hs'⟩ := hs.call hf
  rw [hstep] at hstep'
  cases hstep'
  exact hs'

end BytePool

open BytePool

/-- **The pool hands out disjoint chunks.**  In every session of fair calls from
`memory_pool_init`: the chunks that are out are different chunks, inside `data` and without a
common byte; the first `unused_top` entries of `unused` are the other chunks, each once;
`unused_top` is 512 minus the number of chunks that are out; every fair call returns, and
allocation returns `NULL` just when all chunks are out. -/
theorem memory_pool_disjoint (p₀ : BytePool) {h : List (PoolCall × Option ℕ)} {p : BytePool}
    (hp : Session poolCall p₀.memoryPoolInit h p) (hf : Promised Fair h) :
    (outstanding h).Pairwise (fun a b => Disjoint (chunkBytes a) (chunkBytes b)) ∧
      (∀ a ∈ outstanding h, a ∈ chunks p₀.base ∧
        chunkBytes a ⊆ Set.Ico p₀.base (p₀.base + memoryPoolSize)) ∧
      p.unusedEntries.Nodup ∧
      (∀ a, a ∈ p.unusedEntries ↔ a ∈ chunks p₀.base ∧ a ∉ outstanding h) ∧
      p.unusedTop = 512 - ((outstanding h).length : ℤ) ∧ 0 ≤ p.unusedTop ∧ p.unusedTop ≤ 512 ∧
      (∀ c, Fair h c → ∃ r p', poolCall p c = .ok (r, p')) ∧
      ∀ size, size ≤ memoryPoolChunkSize →
        ((∃ p', p.memoryPoolAllocate size = .ok (none, p')) ↔ (outstanding h).length = 512) := by
  have hs := session_splits hp hf
  have hnd := List.nodup_append.mp hs.nodup
  have htop : p.unusedTop = 512 - ((outstanding h).length : ℤ) := hs.total
  refine ⟨?_, ?_, hnd.1, ?_, htop, hs.top_nonneg, by omega, ?_, ?_⟩
  · apply hnd.2.1.imp_of_mem
    intro a b ha hb hab
    exact chunkBytes_disjoint (hs.mem_chunks ha) (hs.mem_chunks hb) hab
  · intro a ha
    exact ⟨hs.mem_chunks ha, chunkBytes_subset (hs.mem_chunks ha)⟩
  · intro a
    exact hs.mem_unusedEntries
  · intro c hc
    obtain ⟨r, p', hcall, -⟩ := hs.call hc
    exact ⟨r, p', hcall⟩
  · intro size hsize
    constructor
    · rintro ⟨p', hnull⟩
      by_contra hout
      obtain ⟨a, p'', hsome, -⟩ := hs.allocate_some hsize hout
      rw [hsome] at hnull
      cases hnull
    · intro hout
      exact ⟨p, hs.allocate_none hsize hout⟩

/-- Two chunks are allocated, the first is freed and comes back as the third. -/
theorem memory_pool_disjoint_three : ∃ (h : List (PoolCall × Option ℕ)) (p : BytePool),
    h.map Prod.fst = [.allocate 24, .allocate 128, .free 65408, .allocate 1] ∧
    outstanding h = [65280, 65408] ∧
    (outstanding h).Pairwise (fun a b => Disjoint (chunkBytes a) (chunkBytes b)) ∧
    p.unusedTop = 510 := by
  let p₀ : BytePool := ⟨0, fun _ => 7, fun _ => 0, 0⟩
  have hinit := memoryPoolInit_eq p₀
  have hexec : ∃ h p, Session.exec poolCall p₀.memoryPoolInit
      [.allocate 24, .allocate 128, .free 65408, .allocate 1] = .ok (h, p) ∧
      h = [(.allocate 24, some 65408), (.allocate 128, some 65280), (.free 65408, none),
        (.allocate 1, some 65408)] := by
    rw [hinit]
    exact ⟨_, _, rfl, by decide⟩
  obtain ⟨h, p, hrun, hh⟩ := hexec
  have hp := Session.of_exec hrun
  have hfair : Promised Fair h := by
    rw [hh]
    show Promised Fair ([] ++ [_] ++ [_] ++ [_] ++ [_])
    simp only [promised_snoc, promised_nil, true_and]
    refine ⟨⟨⟨?_, ?_⟩, ?_⟩, ?_⟩
    · show 24 ≤ memoryPoolChunkSize
      decide
    · show 128 ≤ memoryPoolChunkSize
      decide
    · show 65408 ∈ [65408, 65280]
      simp
    · show 1 ≤ memoryPoolChunkSize
      decide
  have hd := memory_pool_disjoint p₀ hp hfair
  have hout : outstanding h = [65280, 65408] := by
    rw [hh]
    rfl
  refine ⟨h, p, by rw [hh]; rfl, hout, hd.1, ?_⟩
  have htop := hd.2.2.2.2.1
  rw [hout] at htop
  exact htop

end RealtimeKernel
