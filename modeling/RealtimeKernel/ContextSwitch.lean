import RealtimeKernel.Lib.Arm64
import RealtimeKernel.KernelMain

/-!
# `macro.S`: saving and restoring the registers of a context

The macros are lists of instructions in the order of the source.  `contextAt` reads the members
of a `struct Task` in memory at the offsets the C layout rules give them; saving makes it the
registers of the user, and loading makes the registers what it is.
-/

namespace RealtimeKernel

open Lib

/-! ### The members of `struct Task` -/

/-- The members the assembly touches.  They come first in the struct, so that what follows
them does not move them. -/
inductive ContextMember
  | x
  | sp
  | spsr
  | pc
  | x30Copy
  deriving DecidableEq

/-- The size and the alignment of a member. -/
structure CType where
  size : ℕ
  align : ℕ

def u64Type : CType := ⟨8, 8⟩

def arrayType (t : CType) (n : ℕ) : CType := ⟨t.size * n, t.align⟩

/-- The members in the order of `task.h`. -/
def contextMembers : List (ContextMember × CType) :=
  [(.x, arrayType u64Type 31), (.sp, u64Type), (.spsr, u64Type), (.pc, u64Type),
    (.x30Copy, u64Type)]

/-- A member begins at the next multiple of its alignment after the members before it. -/
def memberOffset (name : ContextMember) : ℕ → List (ContextMember × CType) → Option ℕ
  | _, [] => none
  | o, (m, t) :: ms =>
    let start := (o + t.align - 1) / t.align * t.align
    if m = name then some start else memberOffset name (start + t.size) ms

/-- `offsetof(Task, name)`. -/
def taskOffset (name : ContextMember) : ℕ := (memberOffset name 0 contextMembers).getD 0

/-- The bytes of `x`, `sp`, `spsr`, `pc` and `x30_copy` together. -/
def contextSize : ℕ := 8 * 35

@[simp] theorem taskOffset_x : taskOffset .x = 0 := by decide

@[simp] theorem taskOffset_sp : taskOffset .sp = 248 := by decide

@[simp] theorem taskOffset_spsr : taskOffset .spsr = 256 := by decide

@[simp] theorem taskOffset_pc : taskOffset .pc = 264 := by decide

@[simp] theorem taskOffset_x30Copy : taskOffset .x30Copy = 272 := by decide

/-- What a task needs to go on: its registers. -/
@[ext] structure Context where
  x : Reg → Word
  sp : Word
  spsr : Word
  pc : Word

/-- The context in the `struct Task` at an address. -/
def contextAt (m : Mem) (task : Addr) : Context where
  x := fun i => load64 m (task.offset (taskOffset .x + 8 * i.val))
  sp := load64 m (task.offset (taskOffset .sp))
  spsr := load64 m (task.offset (taskOffset .spsr))
  pc := load64 m (task.offset (taskOffset .pc))

/-- A context depends on the bytes of its struct only. -/
theorem contextAt_congr {m m' : Mem} {a : Addr} (h : ∀ b, InBlock a contextSize b → m' b = m b) :
    contextAt m' a = contextAt m a := by
  have hword : ∀ i, i + 8 ≤ contextSize → load64 m' (a.offset i) = load64 m (a.offset i) :=
    fun i hi => load64_congr fun b hb => h b (hb.sub hi (by decide))
  have hx : ∀ i : Reg, load64 m' (a.offset (taskOffset .x + 8 * i.val)) =
      load64 m (a.offset (taskOffset .x + 8 * i.val)) :=
    fun i => hword _ (by rw [taskOffset_x, contextSize]; omega)
  have hsp := hword (taskOffset .sp) (by decide)
  have hspsr := hword (taskOffset .spsr) (by decide)
  have hpc := hword (taskOffset .pc) (by decide)
  simp only [contextAt, hx, hsp, hspsr, hpc]

/-- The registers of the user, as they are after an exception and before an `eret`. -/
def userRegs (c : Cpu) : Context where
  x := c.x
  sp := c.spEl0
  spsr := c.spsrEl1
  pc := c.elrEl1

/-- The context of a descriptor of the kernel model. -/
def Task.context (t : Task) : Context where
  x := t.x
  sp := t.sp
  spsr := t.spsr
  pc := t.pc

/-- The registers a trap of the kernel model carries. -/
def Trap.context (t : Trap) : Context where
  x := t.x
  sp := t.sp
  spsr := t.spsr
  pc := t.pc

/-! ### The macros -/

/-- `load_global`: the value of the variable at `var`. -/
def loadGlobal (reg : Reg) (var : Addr) : List Instr :=
  [.ldrLit reg var, .ldr reg (.offset (.x reg) 0)]

def saveGeneralRegs (var : Addr) : List Instr :=
  .str 0 (.pre .sp (-16)) :: loadGlobal 0 var ++
  ([.str 30 (.offset (.x 0) (8 * 34)),
    .add 0 0 8,
    .stp 1 2 (.post (.x 0) 16),
    .stp 3 4 (.post (.x 0) 16),
    .stp 5 6 (.post (.x 0) 16),
    .stp 7 8 (.post (.x 0) 16),
    .stp 9 10 (.post (.x 0) 16),
    .stp 11 12 (.post (.x 0) 16),
    .stp 13 14 (.post (.x 0) 16),
    .stp 15 16 (.post (.x 0) 16),
    .stp 17 18 (.post (.x 0) 16),
    .stp 19 20 (.post (.x 0) 16),
    .stp 21 22 (.post (.x 0) 16),
    .stp 23 24 (.post (.x 0) 16),
    .stp 25 26 (.post (.x 0) 16),
    .stp 27 28 (.post (.x 0) 16),
    .stp 29 30 (.post (.x 0) 16),
    .ldr 1 (.post .sp 16),
    .sub 0 0 (8 * 31),
    .str 1 (.post (.x 0) (8 * 31))] : List Instr)

def loadGeneralRegs (var : Addr) : List Instr :=
  loadGlobal 0 var ++
  ([.add 0 0 (8 * 31),
    .ldp 29 30 (.pre (.x 0) (-16)),
    .ldp 27 28 (.pre (.x 0) (-16)),
    .ldp 25 26 (.pre (.x 0) (-16)),
    .ldp 23 24 (.pre (.x 0) (-16)),
    .ldp 21 22 (.pre (.x 0) (-16)),
    .ldp 19 20 (.pre (.x 0) (-16)),
    .ldp 17 18 (.pre (.x 0) (-16)),
    .ldp 15 16 (.pre (.x 0) (-16)),
    .ldp 13 14 (.pre (.x 0) (-16)),
    .ldp 11 12 (.pre (.x 0) (-16)),
    .ldp 9 10 (.pre (.x 0) (-16)),
    .ldp 7 8 (.pre (.x 0) (-16)),
    .ldp 5 6 (.pre (.x 0) (-16)),
    .ldp 3 4 (.pre (.x 0) (-16)),
    .ldp 1 2 (.pre (.x 0) (-16)),
    .sub 0 0 8,
    .ldr 0 (.offset (.x 0) 0)] : List Instr)

def loadUserRegs (var : Addr) : List Instr :=
  loadGlobal 0 var ++
  ([.add 0 0 (8 * 31),
    .msrSpsel false,
    .ldr 1 (.post (.x 0) 8),
    .movToSp 1,
    .msrSpsel true,
    .ldr 1 (.post (.x 0) 8),
    .msrSpsr 1,
    .ldr 1 (.post (.x 0) 8),
    .msrElr 1] : List Instr) ++
  loadGeneralRegs var

def saveUserRegs (var : Addr) : List Instr :=
  saveGeneralRegs var ++
  ([.msrSpsel false,
    .movFromSp 1,
    .str 1 (.post (.x 0) 8),
    .msrSpsel true,
    .mrsSpsr 1,
    .str 1 (.post (.x 0) 8),
    .mrsElr 1,
    .str 1 (.post (.x 0) 8)] : List Instr)

/-! ### `load_general_regs` and `load_user_regs` -/

/-- The pairs of registers, as `save_general_regs` goes through them. -/
def savedPairs : List (Reg × Reg) :=
  [(1, 2), (3, 4), (5, 6), (7, 8), (9, 10), (11, 12), (13, 14), (15, 16), (17, 18), (19, 20),
    (21, 22), (23, 24), (25, 26), (27, 28), (29, 30)]

theorem mem_savedPairs (q : Reg) : q ∈ pairRegs savedPairs.reverse ↔ q ≠ 0 := by
  revert q
  decide

theorem exec_loadGlobal (c : Cpu) (r : Reg) (var : Addr) :
    c.exec (loadGlobal r var) = c.set r (load64 c.mem var) := by
  simp [loadGlobal, Cpu.step, Cpu.writeback, Cpu.address, Cpu.base, Cpu.set]

/-- **`load_general_regs`** fills the registers from the 31 words the variable points to. -/
theorem exec_loadGeneralRegs (c : Cpu) (var : Addr) :
    c.exec (loadGeneralRegs var) =
      { c with x := fun q => load64 c.mem (Addr.offset (load64 c.mem var) (8 * q.val)) } := by
  have hsplit : loadGeneralRegs var = loadGlobal 0 var ++ [.add 0 0 (8 * 31)] ++
      ldpDown 0 savedPairs.reverse ++ [.sub 0 0 8, .ldr 0 (.offset (.x 0) 0)] := rfl
  let b : Addr := load64 c.mem var
  have hpre : c.exec (loadGlobal 0 var ++ [.add 0 0 (8 * 31)]) = c.set 0 (b.offset (8 * 31)) := by
    rw [Cpu.exec_append, exec_loadGlobal]
    simp [Cpu.step, Cpu.set, Addr.offset_eq_shift, b]
  have hmid : (c.set 0 (b.offset (8 * 31))).exec (ldpDown 0 savedPairs.reverse) =
      { c with
        x := fun q => if q = 0 then b.shift 8 else load64 c.mem (b.offset (8 * q.val)) } := by
    rw [exec_ldpDown _ (by decide) (by decide : Descends 31 savedPairs.reverse) (b := b)
      (by simp [Cpu.set])]
    show ({ c with x := _ } : Cpu) = { c with x := _ }
    congr 1
    funext q
    by_cases hq : q = 0
    · rw [if_pos hq, if_pos hq]
      rfl
    · rw [if_neg hq, if_neg hq, if_pos ((mem_savedPairs q).mpr hq)]
      rfl
  have hback : (b.shift 8).shift (-8) = b := by
    rw [Addr.shift_shift]
    exact Addr.shift_zero b
  rw [hsplit, Cpu.exec_append, Cpu.exec_append, hpre, hmid]
  simp only [Cpu.exec_cons, Cpu.exec_nil, Cpu.step, Cpu.set, Cpu.writeback, Cpu.address, Cpu.base,
    Function.update_self, Function.update_idem, if_true, Nat.cast_ofNat, hback, Addr.shift_zero]
  congr 1
  funext q
  by_cases hq : q = 0
  · rw [hq, Function.update_self, Fin.val_zero, Nat.mul_zero, Addr.offset_zero]
  · rw [Function.update_of_ne hq, if_neg hq]

/-- **`load_user_regs`** makes the registers the context the variable points to. -/
theorem exec_loadUserRegs (c : Cpu) (var : Addr) :
    c.exec (loadUserRegs var) =
      { c with
        x := (contextAt c.mem (load64 c.mem var)).x
        spEl0 := (contextAt c.mem (load64 c.mem var)).sp
        spsrEl1 := (contextAt c.mem (load64 c.mem var)).spsr
        elrEl1 := (contextAt c.mem (load64 c.mem var)).pc
        spsel := true } := by
  let b : Addr := load64 c.mem var
  rw [loadUserRegs, Cpu.exec_append, Cpu.exec_append, exec_loadGlobal, exec_loadGeneralRegs]
  simp [Cpu.step, Cpu.set, Cpu.writeback, Cpu.setBase, Cpu.address, Cpu.base, Cpu.setSp,
    contextAt, Addr.shift_shift, Addr.offset_eq_shift]

/-! ### `save_general_regs` and `save_user_regs` -/

/-- Where `save_general_regs` keeps `x0` for a while: 16 bytes on the stack of the kernel. -/
def scratch (c : Cpu) : Addr := Addr.shift c.spEl1 (-16)

/-- Memory when `x1`, …, `x30` are stored in the area and `x0` is still on the stack. -/
def pushedMem (c : Cpu) (area : Addr) : Mem :=
  storeWords (store64 (store64 c.mem (scratch c) (c.x 0)) (area.offset 272) (c.x 30))
    (area.offset 8) ((pairRegs savedPairs).map c.x)

/-- Memory after `save_general_regs`. -/
def generalMem (c : Cpu) (area : Addr) : Mem :=
  store64 (pushedMem c area) area (load64 (pushedMem c area) (scratch c))

/-- Memory after `save_user_regs`. -/
def userMem (c : Cpu) (area : Addr) : Mem :=
  store64 (store64 (store64 (generalMem c area) (area.offset 248) c.spEl0)
    (area.offset 256) c.spsrEl1) (area.offset 264) c.elrEl1

variable {c : Cpu} {var area b : Addr}

theorem exec_saveGeneralRegs (sp : c.spsel = true) (h : Apart (scratch c) 16 var 8) :
    c.exec (saveGeneralRegs var) =
      { c with
        x := Function.update (Function.update c.x 1
          (load64 (pushedMem c (load64 c.mem var)) (scratch c))) 0
          (Addr.offset (load64 c.mem var) 248)
        mem := generalMem c (load64 c.mem var) } := by
  have hsplit : saveGeneralRegs var = [.str 0 (.pre .sp (-16))] ++ loadGlobal 0 var ++
      [.str 30 (.offset (.x 0) (8 * 34)), .add 0 0 8] ++ stpUp 0 savedPairs ++
      [.ldr 1 (.post .sp 16), .sub 0 0 (8 * 31), .str 1 (.post (.x 0) (8 * 31))] := rfl
  let a : Addr := load64 c.mem var
  let m₁ : Mem := store64 c.mem (scratch c) (c.x 0)
  let m₂ : Mem := store64 m₁ (a.offset 272) (c.x 30)
  have hpush : c.exec [.str 0 (.pre .sp (-16))] = { c with spEl1 := scratch c, mem := m₁ } := by
    simp [Cpu.step, Cpu.writeback, Cpu.setBase, Cpu.address, Cpu.base, Cpu.store, Cpu.setSp,
      Cpu.sp, sp, scratch, m₁]
  have hptr : load64 m₁ var = a :=
    load64_store64_of_apart _ (h.mono (by omega) (by omega))
  have hpre : c.exec ([.str 0 (.pre .sp (-16))] ++ loadGlobal 0 var ++
      [.str 30 (.offset (.x 0) (8 * 34)), .add 0 0 8]) =
      { c with x := Function.update c.x 0 (a.offset 8), spEl1 := scratch c, mem := m₂ } := by
    rw [Cpu.exec_append, Cpu.exec_append, hpush, exec_loadGlobal]
    simp [Cpu.step, Cpu.set, Cpu.writeback, Cpu.address, Cpu.base, Cpu.store, hptr,
      Addr.offset_eq_shift, m₂]
  have hx : ∀ q ∈ pairRegs savedPairs, Function.update c.x 0 (a.offset 8) q = c.x q := by
    intro q hq
    refine Function.update_of_ne ?_ _ _
    rintro rfl
    exact absurd hq (by decide)
  have hend : (a.offset 8).shift (16 * savedPairs.length) = a.offset 248 := by
    rw [Addr.offset_eq_shift, Addr.offset_eq_shift, Addr.shift_shift]
    rfl
  have hdown : (a.offset 248).shift (-248) = a := by
    rw [Addr.offset_eq_shift, Addr.shift_shift]
    exact Addr.shift_zero a
  have hup : a.shift 248 = a.offset 248 := (Addr.offset_eq_shift a 248).symm
  have hpop : (scratch c).shift 16 = c.spEl1 := by
    rw [scratch, Addr.shift_shift]
    exact Addr.shift_zero _
  rw [hsplit, Cpu.exec_append, Cpu.exec_append, hpre, exec_stpUp _ (by decide)]
  simp only [List.map_congr_left hx, Function.update_self, Function.update_idem, hend]
  simp [Cpu.step, Cpu.set, Cpu.writeback, Cpu.setBase, Cpu.address, Cpu.base, Cpu.store, Cpu.setSp,
    Cpu.sp, sp, hdown, hpop, hup]
  refine ⟨?_, rfl⟩
  rw [Function.update_comm (by decide : (0 : Reg) ≠ 1), Function.update_idem]
  rfl

theorem exec_saveUserRegs (sp : c.spsel = true) (h : Apart (scratch c) 16 var 8) :
    c.exec (saveUserRegs var) =
      { c with
        x := Function.update (Function.update c.x 1 c.elrEl1) 0 (Addr.offset (load64 c.mem var) 272)
        mem := userMem c (load64 c.mem var) } := by
  rw [saveUserRegs, Cpu.exec_append, exec_saveGeneralRegs sp h]
  simp [Cpu.step, Cpu.set, Cpu.writeback, Cpu.setBase, Cpu.address, Cpu.base, Cpu.store,
    Cpu.sp, sp, userMem, Addr.offset_eq_shift, Addr.shift_shift]
  funext q
  by_cases h₀ : q = 0
  · simp [h₀]
  · by_cases h₁ : q = 1
    · simp [h₁]
    · simp [h₀, h₁]

/-! ### What the saves leave in memory -/

theorem getElem?_savedPairs (q : Reg) :
    q ≠ 0 → (pairRegs savedPairs)[q.val - 1]? = some q := by
  revert q
  decide

theorem length_savedWords (c : Cpu) : ((pairRegs savedPairs).map c.x).length = 30 := by
  simp [savedPairs]

/-- Outside the area and the stack, `save_general_regs` changes what its debug store of `x30`
changes. -/
theorem generalMem_debug (h : ¬ InBlock area 248 b) (hscratch : ¬ InBlock (scratch c) 16 b) :
    generalMem c area b = store64 c.mem (area.offset 272) (c.x 30) b := by
  have hlen := length_savedWords c
  rw [generalMem, store64_outside _ fun hb => h (hb.mono (by omega)), pushedMem,
    storeWords_outside (by omega) fun hb => h (hb.sub (by omega) (by omega))]
  by_cases hdebug : InBlock (area.offset 272) 8 b
  · exact store64_inside _ hdebug
  · rw [store64_outside _ hdebug, store64_outside _ hdebug,
      store64_outside _ fun hb => hscratch (hb.mono (by omega))]

/-- The saved word of every register but `x0`, wherever the stack is. -/
theorem load64_generalMem {q : Reg} (hq : q ≠ 0) :
    load64 (generalMem c area) (area.offset (8 * q.val)) = c.x q := by
  have hlen := length_savedWords c
  have hpos : 0 < q.val := Nat.pos_of_ne_zero fun h => hq (Fin.ext h)
  have hword : ((pairRegs savedPairs).map c.x)[q.val - 1]? = some (c.x q) := by
    rw [List.getElem?_map, getElem?_savedPairs q hq]
    rfl
  obtain ⟨hlt, hword⟩ := List.getElem?_eq_some_iff.mp hword
  have hself : Apart (area.offset 0) 8 (area.offset (8 * q.val)) 8 :=
    apart_offset area (by omega) (by omega) (by omega)
  rw [Addr.offset_zero] at hself
  rw [generalMem, load64_store64_of_apart _ hself, ← hword,
    ← load64_storeWords (by omega) hlt, pushedMem, Addr.offset_offset]
  congr 2
  omega

theorem load64_generalMem_zero (h : Apart (scratch c) 16 area contextSize) :
    load64 (generalMem c area) area = c.x 0 := by
  have hlen := length_savedWords c
  have hin : ∀ {d : Addr}, InBlock (scratch c) 8 d → ¬ InBlock area contextSize d :=
    fun hd => h.not_inBlock (hd.mono (by omega))
  rw [generalMem, load64_store64_self, ← load64_store64_self c.mem (scratch c) (c.x 0)]
  refine load64_congr fun d hd => ?_
  rw [pushedMem, storeWords_outside (by omega) fun hb =>
      hin hd (hb.sub (by rw [contextSize]; omega) (by decide)),
    store64_outside _ fun hb => hin hd (hb.sub (by decide) (by decide))]

theorem userMem_outside (h : ¬ InBlock area contextSize b) (hscratch : ¬ InBlock (scratch c) 16 b) :
    userMem c area b = c.mem b := by
  have hsub : ∀ {i n : ℕ}, i + n ≤ contextSize → ¬ InBlock (area.offset i) n b :=
    fun hi hb => h (hb.sub hi (by decide))
  rw [userMem, store64_outside _ (hsub (by decide)), store64_outside _ (hsub (by decide)),
    store64_outside _ (hsub (by decide)),
    generalMem_debug (fun hb => h (hb.mono (by decide))) hscratch,
    store64_outside _ (hsub (by decide))]

/-- A word of the area below the stack pointer, of which only `save_general_regs` knows. -/
theorem load64_userMem_low {i : ℕ} (hi : i + 8 ≤ 248) :
    load64 (userMem c area) (area.offset i) = load64 (generalMem c area) (area.offset i) := by
  rw [userMem, load64_store64_of_apart _ (apart_offset area (by omega) (by omega) (by omega)),
    load64_store64_of_apart _ (apart_offset area (by omega) (by omega) (by omega)),
    load64_store64_of_apart _ (apart_offset area (by omega) (by omega) (by omega))]

/-- **`save_user_regs`** makes the context in the struct the registers of the user. -/
theorem contextAt_userMem (h : Apart (scratch c) 16 area contextSize) :
    contextAt (userMem c area) area = userRegs c := by
  have hx : ∀ q : Reg, load64 (userMem c area) (area.offset (8 * q.val)) = c.x q := by
    intro q
    rw [load64_userMem_low (by have := q.isLt; omega)]
    by_cases hq : q = 0
    · rw [hq, Fin.val_zero, Nat.mul_zero, Addr.offset_zero, load64_generalMem_zero h]
    · exact load64_generalMem hq
  have hsp : load64 (userMem c area) (area.offset 248) = c.spEl0 := by
    rw [userMem, load64_store64_of_apart _ (apart_offset area (by omega) (by omega) (by omega)),
      load64_store64_of_apart _ (apart_offset area (by omega) (by omega) (by omega)),
      load64_store64_self]
  have hspsr : load64 (userMem c area) (area.offset 256) = c.spsrEl1 := by
    rw [userMem, load64_store64_of_apart _ (apart_offset area (by omega) (by omega) (by omega)),
      load64_store64_self]
  have hpc : load64 (userMem c area) (area.offset 264) = c.elrEl1 := by
    rw [userMem, load64_store64_self]
  simp only [contextAt, userRegs, taskOffset_x, taskOffset_sp, taskOffset_spsr, taskOffset_pc,
    Nat.zero_add, hx, hsp, hspsr, hpc]

/-! ### Saving, then loading -/

/-- The objects a context switch of a task touches share no byte: the 16 bytes below the stack
pointer of the kernel, the context in the struct, and the variable that points to it.  Entering
an exception selects `SP_EL1`. -/
structure Separated (c : Cpu) (var : Addr) : Prop where
  banked : c.spsel = true
  stack_var : Apart (scratch c) 16 var 8
  stack_context : Apart (scratch c) 16 (load64 c.mem var) contextSize
  context_var : Apart (load64 c.mem var) contextSize var 8

theorem Separated.exec_saveUserRegs (h : Separated c var) :
    contextAt (c.exec (saveUserRegs var)).mem (load64 c.mem var) = userRegs c := by
  rw [RealtimeKernel.exec_saveUserRegs h.banked h.stack_var]
  exact contextAt_userMem h.stack_context

/-- The variable still points to the struct after the save. -/
theorem Separated.pointer_kept (h : Separated c var) :
    load64 (c.exec (saveUserRegs var)).mem var = load64 c.mem var := by
  rw [RealtimeKernel.exec_saveUserRegs h.banked h.stack_var]
  exact load64_congr fun b hb => userMem_outside
    (fun hc => h.context_var.not_inBlock hc hb) (fun hs => h.stack_var.not_inBlock hs hb)

theorem userRegs_exec_loadUserRegs (c : Cpu) (var : Addr) :
    userRegs (c.exec (loadUserRegs var)) = contextAt c.mem (load64 c.mem var) := by
  rw [exec_loadUserRegs]
  rfl

/-- The kernel model's `saveContext` is what the assembly does to the struct. -/
theorem Separated.saveContext (h : Separated c var) (t : Task) {trap : Trap}
    (htrap : trap.context = userRegs c) :
    contextAt (c.exec (saveUserRegs var)).mem (load64 c.mem var) =
      (RealtimeKernel.saveContext t trap).context :=
  h.exec_saveUserRegs.trans htrap.symm

/-! ### A task that has not run -/

theorem changeTaskState_task {k k' : Kernel} {t : TaskPtr} {s : TaskState}
    (h : changeTaskState k t s = .ok k') (u : TaskPtr) :
    ∃ s', k'.task u = { k.task u with state := s' } := by
  unfold changeTaskState at h
  split at h
  · cases h
  · obtain ⟨k₁, hk₁, hk'⟩ := bind_eq_ok.mp h
    have htask : k₁.task = k.task := by
      cases s with
      | ready =>
        obtain ⟨_, -, hk₁⟩ := bind_eq_ok.mp hk₁
        cases hk₁
        rfl
      | _ =>
        cases hk₁
        rfl
    cases hk'
    by_cases hu : u = t
    · subst hu
      exact ⟨s, by simp [Kernel.modify, Core.modify, htask]⟩
    · exact ⟨(k.task u).state, by simp [Kernel.modify, Core.modify, htask, hu]⟩

/-- What `create_task` fills in. -/
theorem createTask_context {img : Image} {k k' : Kernel} {priority parentTid : ℤ} {func : U64}
    {t : TaskPtr} (h : createTask img k priority func parentTid = .ok (some t, k')) :
    ∃ block, (k'.task t).memoryBlock = some block ∧
      (k'.task t).context =
        { x := Function.update (fun _ => 0) 30 img.exit
          sp := memoryGetBlockEnd img block
          spsr := 0
          pc := func } := by
  unfold createTask at h
  split at h
  · rename_i u _
    obtain ⟨block, -, h⟩ := bind_eq_ok.mp h
    obtain ⟨⟨pool, jobq⟩, -, h⟩ := bind_eq_ok.mp h
    obtain ⟨k₁, hk₁, h⟩ := bind_eq_ok.mp h
    obtain ⟨rfl, rfl⟩ : u = t ∧ k₁ = k' := by simpa using h
    obtain ⟨s', hs'⟩ := changeTaskState_task hk₁ u
    refine ⟨block, ?_, ?_⟩
    · rw [hs']
      simp [Kernel.modify, Core.modify, newTask]
    · rw [hs']
      simp [Kernel.modify, Core.modify, newTask, Task.context, taskInit]
  · cases h

/-- **The context of a task** survives being saved and loaded, and is the one `create_task`
gave it when it runs for the first time. -/
theorem context_switch (var : Addr) :
    (∀ c : Cpu, Separated c var →
      contextAt (c.exec (saveUserRegs var)).mem (load64 c.mem var) = userRegs c) ∧
    (∀ c : Cpu, userRegs (c.exec (loadUserRegs var)) = contextAt c.mem (load64 c.mem var)) ∧
    (∀ c d : Cpu, Separated c var →
      (∀ b, InBlock var 8 b ∨ InBlock (load64 c.mem var) contextSize b →
        d.mem b = (c.exec (saveUserRegs var)).mem b) →
      userRegs (d.exec (loadUserRegs var)) = userRegs c) ∧
    (∀ img k priority func parentTid t k',
      createTask img k priority func parentTid = .ok (some t, k') →
      ∃ block, (k'.task t).memoryBlock = some block ∧
        (k'.task t).sp = memoryGetBlockEnd img block ∧ (k'.task t).pc = func ∧
        (k'.task t).x 30 = img.exit ∧ (k'.task t).spsr = 0 ∧
        ∀ d : Cpu, contextAt d.mem (load64 d.mem var) = (k'.task t).context →
          userRegs (d.exec (loadUserRegs var)) = (k'.task t).context) := by
  refine ⟨fun c h => h.exec_saveUserRegs, fun c => userRegs_exec_loadUserRegs c var, ?_, ?_⟩
  · intro c d h hd
    have hptr : load64 d.mem var = load64 c.mem var :=
      (load64_congr fun b hb => hd b (Or.inl hb)).trans h.pointer_kept
    rw [userRegs_exec_loadUserRegs, hptr, ← h.exec_saveUserRegs]
    exact contextAt_congr fun b hb => hd b (Or.inr hb)
  · intro img k priority func parentTid t k' hk
    obtain ⟨block, hblock, hcontext⟩ := createTask_context hk
    have hexit : (k'.task t).context.x 30 = img.exit := by
      rw [hcontext]
      simp
    exact ⟨block, hblock, congrArg Context.sp hcontext, congrArg Context.pc hcontext, hexit,
      congrArg Context.spsr hcontext, fun d hd => (userRegs_exec_loadUserRegs d var).trans hd⟩

/-- The objects of the next example are in different places. -/
def switchExample : Cpu where
  x := fun i => BitVec.ofNat 64 i.val
  spEl0 := 0x9000
  spEl1 := 0x80000
  spsel := true
  spsrEl1 := 0
  elrEl1 := 0x4000
  pc := 0
  mem := store64 (fun _ => 0) 0x1000 0x2000

theorem switchExample_separated : Separated switchExample 0x1000 := by
  have hptr : load64 switchExample.mem 0x1000 = Addr.offset 0 0x2000 :=
    load64_store64_self _ _ _
  have hscratch : scratch switchExample = Addr.offset 0 0x7fff0 := by decide
  have hvar : (0x1000 : Addr) = Addr.offset 0 0x1000 := by decide
  refine ⟨rfl, ?_, ?_, ?_⟩
  · rw [hscratch, hvar]
    exact apart_offset 0 (by decide) (by decide) (by decide)
  · rw [hscratch, hptr]
    exact apart_offset 0 (by decide) (by decide) (by decide)
  · rw [hptr, hvar]
    exact apart_offset 0 (by decide) (by decide) (by decide)

theorem context_switch_example :
    contextAt (switchExample.exec (saveUserRegs 0x1000)).mem
        (load64 switchExample.mem 0x1000) = userRegs switchExample ∧
      userRegs ((switchExample.exec (saveUserRegs 0x1000)).exec (loadUserRegs 0x1000)) =
        userRegs switchExample := by
  obtain ⟨hsave, -, hback, -⟩ := context_switch 0x1000
  exact ⟨hsave _ switchExample_separated, hback _ _ switchExample_separated fun _ _ => rfl⟩

end RealtimeKernel
