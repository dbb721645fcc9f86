import Mathlib.Data.Fintype.Card
import Mathlib.Data.List.FinRange
import Mathlib.Data.List.OfFn
import RealtimeKernel.Basic

/-!
# `memory_pool.c`: the chunk allocator of the servers

The data area is cut into chunks and a stack holds the chunks nobody uses.  A `void *` into the
pool is the index of a chunk.  What a chunk holds is a parameter: each server keeps one kind of
node in its pool.  `unused_top` counts the stack, so that it cannot exceed the number of chunks
in a pool that exists; a `memory_pool_free` that would push it further writes behind the array.
-/

namespace RealtimeKernel

/-- `MEMORY_POOL_SIZE / MEMORY_POOL_CHUNK_SIZE`. -/
def memoryPoolChunks : ℕ := 0x10000 / 0x80

abbrev ChunkPtr := Fin memoryPoolChunks

/-- How a server can stop other than by leaving its loop. -/
inductive Fault
  /-- A null pointer is dereferenced. -/
  | null
  /-- An array is accessed out of its bounds. -/
  | outOfBounds
  /-- A list is walked for ever. -/
  | endless
  deriving DecidableEq, Repr

structure MemoryPool (κ : Type) where
  chunk : ChunkPtr → κ
  unused : ChunkPtr → ChunkPtr
  unusedTop : ℕ
  unusedTop_le : unusedTop ≤ memoryPoolChunks

variable {κ : Type}

/-- `memory_pool_init`, where a cleared chunk reads as `zero`. -/
def memoryPoolInit (zero : κ) : MemoryPool κ where
  chunk := fun _ => zero
  unused := fun i => i
  unusedTop := memoryPoolChunks
  unusedTop_le := Nat.le_refl _

def memoryPoolAllocate (self : MemoryPool κ) : Option ChunkPtr × MemoryPool κ :=
  if h : 0 < self.unusedTop then
    let unusedTop := self.unusedTop - 1
    have hlt : unusedTop < memoryPoolChunks :=
      Nat.lt_of_lt_of_le (Nat.sub_lt h Nat.one_pos) self.unusedTop_le
    (some (self.unused ⟨unusedTop, hlt⟩),
      { self with unusedTop := unusedTop, unusedTop_le := Nat.le_of_lt hlt })
  else (none, self)

def memoryPoolFree (self : MemoryPool κ) (addr : ChunkPtr) : Except Fault (MemoryPool κ) :=
  if h : self.unusedTop < memoryPoolChunks then
    .ok { self with
      unused := Function.update self.unused ⟨self.unusedTop, h⟩ addr
      unusedTop := self.unusedTop + 1
      unusedTop_le := h }
  else .error .outOfBounds

namespace MemoryPool

variable {p p' : MemoryPool κ} {c : ChunkPtr} {held : List ChunkPtr}

/-- Changes the contents of a chunk. -/
def write (p : MemoryPool κ) (c : ChunkPtr) (v : κ) : MemoryPool κ :=
  { p with chunk := Function.update p.chunk c v }

@[simp] theorem write_unusedTop (v : κ) : (p.write c v).unusedTop = p.unusedTop := rfl

@[simp] theorem write_self (v : κ) : (p.write c v).chunk c = v := Function.update_self _ _ _

theorem write_of_ne {d : ChunkPtr} (v : κ) (h : d ≠ c) : (p.write c v).chunk d = p.chunk d :=
  Function.update_of_ne h _ _

/-- The stack of unused chunks, the top last. -/
def free (p : MemoryPool κ) : List ChunkPtr :=
  List.ofFn (n := p.unusedTop) fun i => p.unused ⟨i, Nat.lt_of_lt_of_le i.isLt p.unusedTop_le⟩

@[simp] theorem write_free (v : κ) : (p.write c v).free = p.free := rfl

@[simp] theorem length_free : p.free.length = p.unusedTop := List.length_ofFn

/-- Every chunk is either unused or held by the server, and only once. -/
structure Accounts (p : MemoryPool κ) (held : List ChunkPtr) : Prop where
  nodup : (p.free ++ held).Nodup
  mem : ∀ c, c ∈ p.free ++ held

theorem Accounts.write (h : p.Accounts held) (c : ChunkPtr) (v : κ) :
    (p.write c v).Accounts held := ⟨h.nodup, h.mem⟩

/-- The order in which the server holds its chunks does not matter. -/
theorem Accounts.perm {held' : List ChunkPtr} (h : p.Accounts held) (hp : held.Perm held') :
    p.Accounts held' := by
  have happ : (p.free ++ held).Perm (p.free ++ held') := hp.append_left _
  exact ⟨happ.nodup_iff.mp h.nodup, fun c => happ.mem_iff.mp (h.mem c)⟩

/-- The chunks add up. -/
theorem Accounts.total (h : p.Accounts held) :
    p.unusedTop + held.length = memoryPoolChunks := by
  have hcard : (p.free ++ held).toFinset = Finset.univ := by
    ext c
    simpa using h.mem c
  have hlen := List.toFinset_card_of_nodup h.nodup
  rw [hcard, Finset.card_univ, Fintype.card_fin, List.length_append, length_free] at hlen
  omega

theorem accounts_init (zero : κ) : (memoryPoolInit zero).Accounts [] := by
  have hfree : (memoryPoolInit zero).free = List.finRange memoryPoolChunks :=
    (List.ofFn_id _).symm ▸ rfl
  constructor
  · rw [List.append_nil, hfree]
    exact List.nodup_finRange _
  · intro c
    rw [List.append_nil, hfree]
    exact List.mem_finRange c

theorem getElem_free (p : MemoryPool κ) {i : ℕ} (hi : i < p.free.length) :
    p.free[i] = p.unused ⟨i, Nat.lt_of_lt_of_le (by simpa using hi) p.unusedTop_le⟩ := by
  simp [free]

/-- **Allocation** takes a chunk nobody holds, as long as there is one. -/
theorem Accounts.allocate (h : p.Accounts held) (hroom : held.length < memoryPoolChunks) :
    ∃ c p', memoryPoolAllocate p = (some c, p') ∧ p'.chunk = p.chunk ∧ c ∉ held ∧
      p'.Accounts (c :: held) := by
  have htop : 0 < p.unusedTop := by
    have := h.total
    omega
  have hlt : p.unusedTop - 1 < memoryPoolChunks := by
    have := p.unusedTop_le
    omega
  let p' : MemoryPool κ :=
    { p with unusedTop := p.unusedTop - 1, unusedTop_le := Nat.le_of_lt hlt }
  have hfree : p.free = p'.free ++ [p.unused ⟨p.unusedTop - 1, hlt⟩] := by
    apply List.ext_getElem
    · simp [p']
      omega
    · intro i hi hi'
      rw [getElem_free, List.getElem_append]
      split
      · rw [getElem_free]
      · rename_i hge
        simp only [List.getElem_singleton]
        congr 2
        simp [p'] at hge hi
        omega
  have hacc : p'.Accounts (p.unused ⟨p.unusedTop - 1, hlt⟩ :: held) := by
    have happ : p.free ++ held = p'.free ++ p.unused ⟨p.unusedTop - 1, hlt⟩ :: held := by
      rw [hfree, List.append_assoc]
      rfl
    exact ⟨happ ▸ h.nodup, happ ▸ h.mem⟩
  refine ⟨p.unused ⟨p.unusedTop - 1, hlt⟩, p', ?_, rfl, ?_, hacc⟩
  · rw [memoryPoolAllocate, dif_pos htop]
  · have := (List.nodup_append.mp hacc.nodup).2.1
    exact (List.nodup_cons.mp this).1

/-- **Freeing** a chunk the server holds gives it back. -/
theorem Accounts.free (h : p.Accounts (c :: held)) :
    ∃ p', memoryPoolFree p c = .ok p' ∧ p'.chunk = p.chunk ∧ p'.Accounts held := by
  have htop : p.unusedTop < memoryPoolChunks := by
    have := h.total
    rw [List.length_cons] at this
    omega
  let p' : MemoryPool κ := { p with
    unused := Function.update p.unused ⟨p.unusedTop, htop⟩ c
    unusedTop := p.unusedTop + 1
    unusedTop_le := htop }
  have hfree : p'.free = p.free ++ [c] := by
    apply List.ext_getElem
    · simp [p']
    · intro i hi hi'
      rw [getElem_free, List.getElem_append]
      split
      · rename_i hlt
        rw [getElem_free]
        refine Function.update_of_ne ?_ _ _
        intro heq
        have := congrArg Fin.val heq
        simp at this hlt
        omega
      · rename_i hge
        have hi : i = p.unusedTop := by
          simp [p'] at hge hi
          omega
        subst hi
        simp only [List.getElem_singleton]
        exact Function.update_self _ _ _
  have happ : p.free ++ c :: held = p'.free ++ held := by
    rw [hfree, List.append_assoc]
    rfl
  refine ⟨p', ?_, rfl, happ ▸ h.nodup, happ ▸ h.mem⟩
  rw [memoryPoolFree, dif_pos htop]

end MemoryPool

end RealtimeKernel
