import RealtimeKernel.ContextSwitch

/-!
# `asm_exception.S`: a trip through user mode

`activate_running_task` saves the registers of the kernel in `_kernel_regs`, loads the context
of the current task and leaves for user mode; one of the two exception entries comes back.
What the user does in between is not constrained: the state at the entry has the kernel's
stack pointer, which user mode cannot reach, and any other registers and memory.

`save_general_regs` has a debug store of `x30` at offset 272, which is `x30_copy` of a
`struct Task` but lies beyond the 31 words of `_kernel_regs`.
-/

namespace RealtimeKernel

open Lib

/-- The addresses of the two pointer variables the assembly reads. -/
structure Symbols where
  kernelRegs : Addr
  currentTask : Addr

/-! ### The code -/

def switchToKernel (s : Symbols) : List Instr :=
  saveUserRegs s.currentTask ++ loadGeneralRegs s.kernelRegs

def synchronousExceptionEntry (s : Symbols) : List Instr :=
  switchToKernel s ++ [.movImm 0 0, .ret]

def irqEntry (s : Symbols) : List Instr :=
  switchToKernel s ++ [.movImm 0 1, .ret]

def activateRunningTask (s : Symbols) : List Instr :=
  saveGeneralRegs s.kernelRegs ++ loadUserRegs s.currentTask ++ [.eret]

/-- Why a user execution ends. -/
inductive ExceptionKind
  | synchronous
  | irq

/-- The entry the vector table branches to. -/
def ExceptionKind.entry (s : Symbols) : ExceptionKind → List Instr
  | .synchronous => synchronousExceptionEntry s
  | .irq => irqEntry s

/-- What the kernel reads in `x0`. -/
def ExceptionKind.code : ExceptionKind → Word
  | .synchronous => 0
  | .irq => 1

/-! ### The property -/

/-- The array `_kernel_regs`, of 31 words. -/
def kernelArea (s : Symbols) (c : Cpu) : Addr := load64 c.mem s.kernelRegs

def taskArea (s : Symbols) (c : Cpu) : Addr := load64 c.mem s.currentTask

/-- The objects the assembly touches share no byte, and `sp` is `SP_EL1`. -/
structure Layout (s : Symbols) (c : Cpu) : Prop where
  banked : c.spsel = true
  stack_kernelRegs : Apart (scratch c) 16 s.kernelRegs 8
  stack_currentTask : Apart (scratch c) 16 s.currentTask 8
  stack_kernelArea : Apart (scratch c) 16 (kernelArea s c) 248
  stack_taskArea : Apart (scratch c) 16 (taskArea s c) contextSize
  kernelArea_kernelRegs : Apart (kernelArea s c) 248 s.kernelRegs 8
  kernelArea_currentTask : Apart (kernelArea s c) 248 s.currentTask 8
  taskArea_kernelRegs : Apart (taskArea s c) contextSize s.kernelRegs 8
  taskArea_currentTask : Apart (taskArea s c) contextSize s.currentTask 8
  taskArea_kernelArea : Apart (taskArea s c) contextSize (kernelArea s c) 248

/-- The bytes the save and restore code may change: `_kernel_regs`, the context of the current
task, and 16 bytes below the stack pointer. -/
def MayChange (s : Symbols) (c : Cpu) (b : Addr) : Prop :=
  InBlock (kernelArea s c) 248 b ∨ InBlock (taskArea s c) contextSize b ∨ InBlock (scratch c) 16 b

/-- The kernel leaves for user mode in state `k` and an exception comes back in state `u`. -/
structure Survives (s : Symbols) (k u : Cpu) (kind : ExceptionKind) : Prop where
  regs : ∀ q ≠ 0, (u.exec (kind.entry s)).x q = k.x q
  sp : (u.exec (kind.entry s)).spEl1 = k.spEl1
  x0 : (u.exec (kind.entry s)).x 0 = kind.code
  returns : (u.exec (kind.entry s)).pc = k.x 30
  leaving : ∀ b, ¬ MayChange s k b → (k.exec (activateRunningTask s)).mem b = k.mem b
  entering : ∀ b, ¬ MayChange s u b → (u.exec (kind.entry s)).mem b = u.mem b

/-- Storing `x30` behind `_kernel_regs` changes no byte that should stay. -/
def DebugHarmless (s : Symbols) (k : Cpu) : Prop :=
  ∀ b, ¬ MayChange s k b →
    store64 k.mem ((kernelArea s k).offset 272) (k.x 30) b = k.mem b

/-- When the exception arrives, `_kernel_regs` still has the registers of the kernel. -/
def Intact (s : Symbols) (k u : Cpu) : Prop :=
  ∀ q ≠ 0, load64 u.mem ((kernelArea s u).offset (8 * q.val)) = k.x q

/-! ### Leaving and entering -/

variable {s : Symbols} {k u : Cpu} {kind : ExceptionKind}

theorem Layout.activate_mem (h : Layout s k) :
    (k.exec (activateRunningTask s)).mem = generalMem k (kernelArea s k) := by
  rw [activateRunningTask, Cpu.exec_append, Cpu.exec_append,
    exec_saveGeneralRegs h.banked h.stack_kernelRegs, exec_loadUserRegs]
  rfl

theorem Layout.activate_spEl1 (h : Layout s k) :
    (k.exec (activateRunningTask s)).spEl1 = k.spEl1 := by
  rw [activateRunningTask, Cpu.exec_append, Cpu.exec_append,
    exec_saveGeneralRegs h.banked h.stack_kernelRegs, exec_loadUserRegs]
  rfl

/-- The words behind `kernel_regs` are the same after saving the context of the user. -/
theorem Layout.switch_words (h : Layout s u) (q : Reg) :
    load64 (userMem u (taskArea s u))
        (Addr.offset (load64 (userMem u (taskArea s u)) s.kernelRegs) (8 * q.val)) =
      load64 u.mem ((kernelArea s u).offset (8 * q.val)) := by
  have hptr : load64 (userMem u (taskArea s u)) s.kernelRegs = kernelArea s u :=
    load64_congr fun b hb => userMem_outside
      (fun hc => h.taskArea_kernelRegs.not_inBlock hc hb)
      (fun hc => h.stack_kernelRegs.not_inBlock hc hb)
  have hin : ∀ {b : Addr}, InBlock ((kernelArea s u).offset (8 * q.val)) 8 b →
      InBlock (kernelArea s u) 248 b := fun hb => hb.sub (by omega) (by decide)
  rw [hptr]
  exact load64_congr fun b hb => userMem_outside
    (fun hc => h.taskArea_kernelArea.not_inBlock hc (hin hb))
    (fun hc => h.stack_kernelArea.not_inBlock hc (hin hb))

/-- **The exception entry** reloads the words behind `kernel_regs` and reports its kind. -/
theorem Layout.exec_entry (h : Layout s u) :
    u.exec (kind.entry s) =
      { u with
        x := Function.update
          (fun q => load64 u.mem ((kernelArea s u).offset (8 * q.val))) 0 kind.code
        pc := load64 u.mem ((kernelArea s u).offset 240)
        mem := userMem u (taskArea s u) } := by
  have hswitch : u.exec (switchToKernel s) =
      { u with
        x := fun q => load64 u.mem ((kernelArea s u).offset (8 * q.val))
        mem := userMem u (taskArea s u) } := by
    rw [switchToKernel, Cpu.exec_append, exec_saveUserRegs h.banked h.stack_currentTask,
      exec_loadGeneralRegs]
    simp only [← h.switch_words]
    rfl
  have hlr : Reg.lr = 30 := rfl
  cases kind with
  | synchronous =>
    rw [ExceptionKind.entry, synchronousExceptionEntry, Cpu.exec_append, hswitch]
    simp [Cpu.step, Cpu.set, ExceptionKind.code, hlr]
  | irq =>
    rw [ExceptionKind.entry, irqEntry, Cpu.exec_append, hswitch]
    simp [Cpu.step, Cpu.set, ExceptionKind.code, hlr]

/-- **Leaving for user mode** changes what the debug store changes, and else only what it may. -/
theorem Layout.leaving_debug (h : Layout s k) {b : Addr} (hb : ¬ MayChange s k b) :
    (k.exec (activateRunningTask s)).mem b =
      store64 k.mem ((kernelArea s k).offset 272) (k.x 30) b := by
  rw [h.activate_mem]
  exact generalMem_debug (fun hk => hb (Or.inl hk)) fun hs => hb (Or.inr (Or.inr hs))

theorem Layout.entry_x (h : Layout s u) (kind : ExceptionKind) {q : Reg} (hq : q ≠ 0) :
    (u.exec (kind.entry s)).x q = load64 u.mem ((kernelArea s u).offset (8 * q.val)) := by
  rw [h.exec_entry]
  simp [hq]

/-- **The kernel survives** a trip through user mode exactly when the debug store does no harm
and the saved registers are still there at the exception. -/
theorem kernel_trip_iff (s : Symbols) (k u : Cpu) (kind : ExceptionKind) (hk : Layout s k)
    (hu : Layout s u) (hsp : u.spEl1 = (k.exec (activateRunningTask s)).spEl1) :
    Survives s k u kind ↔ DebugHarmless s k ∧ Intact s k u := by
  constructor
  · intro h
    constructor
    · intro b hb
      rw [← hk.leaving_debug hb]
      exact h.leaving b hb
    · intro q hq
      rw [← hu.entry_x kind hq]
      exact h.regs q hq
  · rintro ⟨hdebug, hintact⟩
    refine ⟨fun q hq => (hu.entry_x kind hq).trans (hintact q hq), ?_, ?_, ?_,
      fun b hb => (hk.leaving_debug hb).trans (hdebug b hb), fun b hb => ?_⟩
    · rw [hu.exec_entry]
      exact hsp.trans hk.activate_spEl1
    · rw [hu.exec_entry]
      simp
    · rw [hu.exec_entry]
      exact hintact 30 (by decide)
    · rw [hu.exec_entry]
      exact userMem_outside (fun h => hb (Or.inr (Or.inl h))) fun h => hb (Or.inr (Or.inr h))

/-! ### Two kernels -/

/-- A place for each object. -/
def tripSymbols : Symbols := ⟨Addr.offset 0 0x1000, Addr.offset 0 0x1008⟩

/-- A kernel that called `activate_running_task` from `returnTo`, with memory clear but for the
two pointers. -/
def tripKernel (returnTo : Word) : Cpu where
  x := fun i => if i = 30 then returnTo else BitVec.ofNat 64 i.val
  spEl0 := 0
  spEl1 := Addr.offset 0 0x80000
  spsel := true
  spsrEl1 := 0
  elrEl1 := 0
  pc := 0
  mem := store64 (store64 (fun _ => 0) tripSymbols.kernelRegs (Addr.offset 0 0x2000))
    tripSymbols.currentTask (Addr.offset 0 0x3000)

/-- The user traps at its first instruction. -/
def tripUser (returnTo : Word) : Cpu :=
  { (tripKernel returnTo).exec (activateRunningTask tripSymbols) with spsel := true }

theorem tripKernel_kernelArea (v : Word) :
    kernelArea tripSymbols (tripKernel v) = Addr.offset 0 0x2000 := by
  have hap : Apart tripSymbols.currentTask 8 tripSymbols.kernelRegs 8 :=
    apart_offset 0 (by decide) (by decide) (by decide)
  exact (load64_store64_of_apart _ hap).trans (load64_store64_self _ _ _)

theorem tripKernel_taskArea (v : Word) :
    taskArea tripSymbols (tripKernel v) = Addr.offset 0 0x3000 := load64_store64_self _ _ _

theorem tripKernel_scratch (v : Word) :
    scratch (tripKernel v) = Addr.offset 0 0x7fff0 := by
  show (Addr.offset 0 0x80000).shift (-16) = _
  decide

/-- The addresses decide whether the layout is one. -/
theorem layout_of_places {c : Cpu} (banked : c.spsel = true)
    (stack : scratch c = Addr.offset 0 0x7fff0)
    (kernel : kernelArea tripSymbols c = Addr.offset 0 0x2000)
    (task : taskArea tripSymbols c = Addr.offset 0 0x3000) : Layout tripSymbols c := by
  constructor
  · exact banked
  all_goals
    simp only [stack, kernel, task]
    exact apart_offset 0 (by decide) (by decide) (by decide)

theorem tripKernel_layout (v : Word) : Layout tripSymbols (tripKernel v) :=
  layout_of_places rfl (tripKernel_scratch v) (tripKernel_kernelArea v) (tripKernel_taskArea v)

theorem tripUser_mem (v : Word) :
    (tripUser v).mem = generalMem (tripKernel v) (Addr.offset 0 0x2000) := by
  rw [tripUser, (tripKernel_layout v).activate_mem, tripKernel_kernelArea]

theorem tripUser_spEl1 (v : Word) :
    (tripUser v).spEl1 = ((tripKernel v).exec (activateRunningTask tripSymbols)).spEl1 := by
  rw [tripUser]

/-- The pointers are outside everything the kernel stores on its way out. -/
theorem tripUser_pointer (v : Word) {i : ℕ} (hi : 0x1000 ≤ i ∧ i ≤ 0x1008) :
    load64 (tripUser v).mem (Addr.offset 0 i) = load64 (tripKernel v).mem (Addr.offset 0 i) := by
  have hap : ∀ {j n : ℕ}, 0x2000 ≤ j → j + n ≤ 0x80000 →
      ∀ {b : Addr}, InBlock (Addr.offset 0 i) 8 b → ¬ InBlock (Addr.offset 0 j) n b :=
    fun hj hn b hb => (apart_offset 0 (by omega) (by omega) (by omega)).not_inBlock hb
  refine load64_congr fun b hb => ?_
  have hstack : ¬ InBlock (scratch (tripKernel v)) 16 b := by
    rw [tripKernel_scratch]
    exact hap (by decide) (by decide) hb
  rw [tripUser_mem, generalMem_debug (hap (by decide) (by decide) hb) hstack, Addr.offset_offset,
    store64_outside _ (hap (by decide) (by decide) hb)]

theorem tripUser_kernelArea (v : Word) :
    kernelArea tripSymbols (tripUser v) = Addr.offset 0 0x2000 :=
  (tripUser_pointer v (by decide)).trans (tripKernel_kernelArea v)

theorem tripUser_layout (v : Word) : Layout tripSymbols (tripUser v) := by
  refine layout_of_places rfl ?_ (tripUser_kernelArea v)
    ((tripUser_pointer v (by decide)).trans (tripKernel_taskArea v))
  rw [scratch, tripUser_spEl1, (tripKernel_layout v).activate_spEl1]
  exact tripKernel_scratch v

theorem tripUser_intact (v : Word) : Intact tripSymbols (tripKernel v) (tripUser v) := by
  intro q hq
  rw [tripUser_kernelArea, tripUser_mem]
  exact load64_generalMem hq

/-- Behind `_kernel_regs` the memory of the example is clear. -/
theorem tripKernel_mem_zero (v : Word) {b : Addr} (hb : InBlock (Addr.offset 0 0x2110) 8 b) :
    (tripKernel v).mem b = 0 := by
  have hout : ∀ {i : ℕ}, i ≤ 0x1008 → ¬ InBlock (Addr.offset 0 i) 8 b :=
    fun hi => (apart_offset 0 (by omega) (by omega) (by omega)).not_inBlock hb
  have hcurrent : ¬ InBlock tripSymbols.currentTask 8 b := hout (by decide)
  have hkernel : ¬ InBlock tripSymbols.kernelRegs 8 b := hout (by decide)
  exact (store64_outside _ hcurrent).trans (store64_outside _ hkernel)

/-- With a return address of zero the debug store writes what is there. -/
theorem kernel_trip_zero :
    Survives tripSymbols (tripKernel 0) (tripUser 0) .irq := by
  refine (kernel_trip_iff tripSymbols (tripKernel 0) (tripUser 0) .irq (tripKernel_layout 0)
    (tripUser_layout 0) (tripUser_spEl1 0)).mpr ⟨fun b _ => ?_, tripUser_intact 0⟩
  rw [tripKernel_kernelArea, Addr.offset_offset]
  by_cases hb : InBlock (Addr.offset 0 0x2110) 8 b
  · rw [tripKernel_mem_zero 0 hb]
    exact (if_pos hb).trans (by simp [tripKernel])
  · exact store64_outside _ hb

/-- Called from anywhere else, the debug store changes the word behind `_kernel_regs`. -/
theorem kernel_trip_debug_store :
    Layout tripSymbols (tripKernel 0x44) ∧ Layout tripSymbols (tripUser 0x44) ∧
      Intact tripSymbols (tripKernel 0x44) (tripUser 0x44) ∧
      ¬ Survives tripSymbols (tripKernel 0x44) (tripUser 0x44) .synchronous := by
  refine ⟨tripKernel_layout _, tripUser_layout _, tripUser_intact _, fun h => ?_⟩
  have hb : ¬ MayChange tripSymbols (tripKernel 0x44) (Addr.offset 0 0x2110) := by
    rw [MayChange, tripKernel_kernelArea, tripKernel_taskArea, tripKernel_scratch]
    decide
  have hleave := h.leaving _ hb
  rw [(tripKernel_layout _).leaving_debug hb, tripKernel_kernelArea, Addr.offset_offset,
    tripKernel_mem_zero _ (by decide)] at hleave
  exact absurd hleave (by decide)

end RealtimeKernel
