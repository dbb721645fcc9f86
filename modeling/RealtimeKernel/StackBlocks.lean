import RealtimeKernel.KernelRuns
import RealtimeKernel.Lib.Ownership
import RealtimeKernel.Lib.Words

/-!
# The stacks of live tasks

`memory.c` keeps one flag for each block and a task keeps a pointer to its block, so who owns
what is nowhere written down.  `Stacked` says it: a block is flagged just when a live task owns
it, and no two live tasks own the same one.  Only Create and Exit touch the blocks: `Holdings`
lists what a handler does to them, and with the descriptors counted against the blocks the
allocator never comes out empty-handed when there is a descriptor.
-/

namespace RealtimeKernel

open Lib

namespace AbsKernel

variable {a a' m : AbsKernel} {img : Image} {c : TaskPtr} {trap : Trap}

/-! ### What a handler does to the blocks -/

/-- What a handler does to the live tasks, their blocks and the flags. -/
inductive Holdings (img : Image) (a : AbsKernel) (c : TaskPtr) (trap : Trap) (a' : AbsKernel) :
    Prop
  | exited {i : BlockPtr} (call : trap.syscall = some .exit) (live : c ∈ a.jobq)
      (block : (a.task c).memoryBlock = some i) (jobq : a'.jobq = a.jobq.erase c)
      (used : a'.memoryBlocksUsed = Function.update a.memoryBlocksUsed i false)
      (mem : a'.mem = zeroBytes a.mem (blockAddr img i) memoryBlockSize)
      (keep : ∀ t, t ≠ c → (a'.task t).memoryBlock = (a.task t).memoryBlock)
  /-- A descriptor is taken from the free list, and a block with it. -/
  | created {t : TaskPtr} {i : BlockPtr} (call : trap.syscall ≠ some .exit) (free : t ∈ a.free)
      (alloc : memoryAllocateBlock a.memoryBlocksUsed = (some i, a'.memoryBlocksUsed))
      (block : (a'.task t).memoryBlock = some i) (jobq : a'.jobq = a.jobq ++ [t])
      (sp : (a'.task t).sp = memoryGetBlockEnd img i)
      (keep : ∀ u, u ≠ t → (a'.task u).memoryBlock = (a.task u).memoryBlock)
  | kept (call : trap.syscall ≠ some .exit) (jobq : a'.jobq = a.jobq)
      (used : a'.memoryBlocksUsed = a.memoryBlocksUsed)
      (keep : ∀ t, (a'.task t).memoryBlock = (a.task t).memoryBlock)

theorem setState_memoryBlock (a : AbsKernel) (t : TaskPtr) (s : TaskState) (u : TaskPtr) :
    ((a.setState t s).task u).memoryBlock = (a.task u).memoryBlock :=
  modify_field a t _ Task.memoryBlock rfl u

theorem assign_memoryBlock (a : AbsKernel) (t : TaskPtr) (v : ℤ) (u : TaskPtr) :
    ((a.assign t v).task u).memoryBlock = (a.task u).memoryBlock :=
  modify_field a t _ Task.memoryBlock rfl u

theorem makeReady_memoryBlock (a : AbsKernel) (t u : TaskPtr) :
    ((a.makeReady t).task u).memoryBlock = (a.task u).memoryBlock :=
  a.setState_memoryBlock t .ready u

theorem registerSender_memoryBlock (a : AbsKernel) (t : TaskPtr) (tid : ℤ) (u : TaskPtr) :
    ((a.modify t fun _ => (registerSender (a.task t) tid).2).task u).memoryBlock
      = (a.task u).memoryBlock :=
  modify_field a t _ Task.memoryBlock rfl u

theorem nextSender_memoryBlock (a : AbsKernel) (t u : TaskPtr) :
    ((a.modify t fun _ => (nextSender (a.task t)).2).task u).memoryBlock
      = (a.task u).memoryBlock :=
  modify_field a t _ Task.memoryBlock rfl u

theorem makeReady_sp (a : AbsKernel) (t u : TaskPtr) :
    ((a.makeReady t).task u).sp = (a.task u).sp :=
  modify_field a t (fun t => { t with state := .ready }) Task.sp rfl u

/-- A call other than Create and Exit, or none at all. -/
theorem Holdings.of_call {o : Option Syscall} (call : trap.syscall = o) (ho : o ≠ some .exit)
    (jobq : a'.jobq = a.jobq) (used : a'.memoryBlocksUsed = a.memoryBlocksUsed)
    (keep : ∀ t, (a'.task t).memoryBlock = (a.task t).memoryBlock) :
    Holdings img a c trap a' :=
  .kept (by rw [call]; exact ho) jobq used keep

/-- **Only Create and Exit touch the blocks.** -/
theorem Effect.holdings (he : Effect img a c trap a') : Holdings img a c trap a' := by
  have hirq : ∀ {chi clo}, trap.cause = .irq waitTimer1 chi clo → trap.syscall = none :=
    fun hcause => by simp [Trap.syscall, hcause]
  cases he with
  | @exited i call live block =>
    refine .exited call live block rfl rfl rfl fun t ht => ?_
    simp [removed, ht]
  | @created t free i used call hfree alloc =>
    refine .created (t := t) (by simp [call]) (by simp [hfree]) alloc ?_ rfl ?_ fun u hu => ?_
    · rw [assign_memoryBlock, makeReady_memoryBlock]
      simp [addTask, newTask]
    · have hsp : ∀ (b : AbsKernel) (v : ℤ), ((b.assign c v).task t).sp = (b.task t).sp :=
        fun b v => modify_field b c _ Task.sp rfl t
      rw [hsp, makeReady_sp]
      simp [addTask, newTask]
    · rw [assign_memoryBlock, makeReady_memoryBlock]
      simp [addTask, hu]
  | ignored cause cls =>
    exact .of_call (o := none) (by simp [Trap.syscall, cause, cls]) (by simp) rfl rfl
      fun _ => rfl
  | tickIdle cause => exact .of_call (hirq cause) (by simp) rfl rfl fun _ => rfl
  | tickWoke cause =>
    exact .of_call (hirq cause) (by simp) rfl rfl fun u => makeReady_memoryBlock _ _ u
  | yielded call => exact .of_call call (by simp) rfl rfl fun _ => rfl
  | toldTid call => exact .of_call call (by simp) rfl rfl fun u => assign_memoryBlock _ _ _ u
  | toldParentTid call =>
    exact .of_call call (by simp) rfl rfl fun u => assign_memoryBlock _ _ _ u
  | createFailed call =>
    exact .of_call call (by simp) rfl rfl fun u => assign_memoryBlock _ _ _ u
  | sendNoTask call => exact .of_call call (by simp) rfl rfl fun u => assign_memoryBlock _ _ _ u
  | sendDirect call =>
    refine .of_call call (by simp) rfl rfl fun u => ?_
    rw [setState_memoryBlock, makeReady_memoryBlock, assign_memoryBlock, setMem_task]
  | sendQueued call =>
    refine .of_call call (by simp) rfl rfl fun u => ?_
    rw [setState_memoryBlock, registerSender_memoryBlock]
  | sendFull call => exact .of_call call (by simp) rfl rfl fun u => assign_memoryBlock _ _ _ u
  | receiveBlocked call =>
    exact .of_call call (by simp) rfl rfl fun u => setState_memoryBlock _ _ _ u
  | receiveVanished call =>
    refine .of_call call (by simp) rfl rfl fun u => ?_
    rw [assign_memoryBlock, nextSender_memoryBlock]
  | received call =>
    refine .of_call call (by simp) rfl rfl fun u => ?_
    rw [setState_memoryBlock, assign_memoryBlock, setMem_task, nextSender_memoryBlock]
  | replyNoTask call =>
    exact .of_call call (by simp) rfl rfl fun u => assign_memoryBlock _ _ _ u
  | replied call =>
    refine .of_call call (by simp) rfl rfl fun u => ?_
    rw [assign_memoryBlock, makeReady_memoryBlock, assign_memoryBlock, setMem_task]
  | repliedRunning call =>
    refine .of_call call (by simp) rfl rfl fun u => ?_
    rw [assign_memoryBlock, assign_memoryBlock, setMem_task]
  | awaited call =>
    exact .of_call call (by simp) rfl rfl fun u => setState_memoryBlock _ _ _ u

theorem Enters.memoryBlock (he : Enters a trap c m) :
    m.jobq = a.jobq ∧ m.free = a.free ∧ m.memoryBlocksUsed = a.memoryBlocksUsed ∧
      ∀ t, (m.task t).memoryBlock = (a.task t).memoryBlock := by
  have hdispatch : ∀ (a₁ : AbsKernel) rq t,
      ((a₁.dispatch c rq trap).task t).memoryBlock = (a₁.task t).memoryBlock := by
    intro a₁ rq t
    by_cases ht : t = c
    · subst ht
      simp [dispatch, saveContext]
    · simp [dispatch, ht]
  cases he with
  | intro hr pop state =>
    cases hr with
    | running => exact ⟨rfl, rfl, rfl, fun t => by rw [hdispatch, makeReady_memoryBlock]⟩
    | blocked => exact ⟨rfl, rfl, rfl, fun t => hdispatch _ _ t⟩
    | gone => exact ⟨rfl, rfl, rfl, fun t => hdispatch _ _ t⟩

/-! ### Every flagged block has one live owner -/

/-- The flags are those of the blocks that live tasks own. -/
structure Stacked (a : AbsKernel) : Prop where
  wellFormed : a.WellFormed
  owned : Owned a.jobq (fun t => (a.task t).memoryBlock) a.memoryBlocksUsed

theorem Stacked.enters (h : a.Stacked) (he : Enters a trap c m) : m.Stacked := by
  obtain ⟨hjobq, -, hused, hblock⟩ := he.memoryBlock
  refine ⟨h.wellFormed.enters he, ?_⟩
  rw [hjobq, hused]
  exact h.owned.congr fun t _ => hblock t

theorem Stacked.addTask {priority parentTid : ℤ} {func : U64} {t : TaskPtr} {free : List TaskPtr}
    {i : BlockPtr} {used : BlockPtr → Bool} (h : a.Stacked) (hfree : a.free = t :: free)
    (alloc : memoryAllocateBlock a.memoryBlocksUsed = (some i, used)) :
    Owned (a.jobq ++ [t])
      (fun u => ((a.addTask img priority func parentTid t free i used).task u).memoryBlock)
      used := by
  obtain ⟨hunused, rfl⟩ := memoryAllocateBlock_eq_some alloc
  have ht : t ∉ a.jobq := h.wellFormed.free_jobq t (by simp [hfree])
  refine h.owned.allocate hunused ?_ fun u hu => ?_
  · simp [AbsKernel.addTask, newTask]
  · have hut : u ≠ t := by
      rintro rfl
      exact ht hu
    simp [AbsKernel.addTask, hut]

theorem Stacked.effect (h : m.Stacked) (hc : m.currentTask = some c)
    (he : Effect img m c trap a') : a'.Stacked := by
  refine ⟨h.wellFormed.effect hc he, ?_⟩
  cases he.holdings with
  | kept call jobq used keep =>
    rw [jobq, used]
    exact h.owned.congr fun t _ => keep t
  | @created t i call free alloc block jobq sp keep =>
    obtain ⟨hunused, hused⟩ := memoryAllocateBlock_eq_some alloc
    rw [jobq, hused]
    refine h.owned.allocate hunused block fun u hu => keep u ?_
    rintro rfl
    exact h.wellFormed.free_jobq u free hu
  | exited call live block jobq used mem keep =>
    rw [jobq, used]
    exact h.owned.release h.wellFormed.jobq_nodup live block fun u _ hne => keep u hne

/-! ### New tasks -/

/-- The stack pointer of the task is one past the end of its own block. -/
def StartsOnBlock (img : Image) (a : AbsKernel) (t : TaskPtr) : Prop :=
  ∃ i, (a.task t).memoryBlock = some i ∧ (a.task t).sp = memoryGetBlockEnd img i

/-- `create_task` at boot. -/
theorem Stacked.createTask {priority parentTid : ℤ} {func : U64} {o : Option TaskPtr}
    (h : a.Stacked) (hs : ∀ t ∈ a.jobq, StartsOnBlock img a t) (hw : a'.WellFormed)
    (hc : a.createTask img priority func parentTid = .ok (o, a')) :
    a'.Stacked ∧ ∀ t ∈ a'.jobq, StartsOnBlock img a' t := by
  rcases createTask_eq_ok.mp hc with ⟨-, -, rfl⟩ |
    ⟨t, free, i, used, hfree, alloc, -, -, -, rfl⟩
  · exact ⟨h, hs⟩
  · refine ⟨⟨hw, (h.addTask hfree alloc).congr fun u _ => makeReady_memoryBlock _ t u⟩,
      fun u hu => ?_⟩
    unfold StartsOnBlock
    rw [makeReady_memoryBlock, makeReady_sp]
    by_cases hut : u = t
    · subst hut
      exact ⟨i, by simp [AbsKernel.addTask, newTask], by simp [AbsKernel.addTask, newTask]⟩
    · have hin : u ∈ a.jobq := by
        rw [makeReady_jobq] at hu
        exact (List.mem_append.mp hu).resolve_right (by simpa using hut)
      have hsame : (a.addTask img priority func parentTid t free i used).task u = a.task u := by
        simp [AbsKernel.addTask, hut]
      rw [hsame]
      exact hs u hin

theorem boot_stacked {b : Boot} (hb : boot b = .ok a) :
    a.Stacked ∧ ∀ t ∈ a.jobq, StartsOnBlock b.img a t := by
  obtain ⟨o₁, a₁, o₂, h₁, ho₁, h₂, ho₂⟩ := boot_created hb
  have hinit : (init b).Stacked := ⟨(orderly_init b).toWellFormed, Owned.nil _⟩
  obtain ⟨hs₁, hstart₁⟩ := hinit.createTask (by simp [init]) ho₁.toWellFormed h₁
  exact hs₁.createTask hstart₁ ho₂.toWellFormed h₂

end AbsKernel

/-- **Every state of a run is stacked.** -/
theorem Boot.Reaches.stacked {b : Boot} {h : List (Iter Kernel Trap)} {k : Kernel}
    (r : b.Reaches h k) : ∃ a, Rep k a ∧ a.Stacked := by
  obtain ⟨h', a, ⟨a₀, ha₀, hrun⟩, hka, -⟩ := r.abs
  refine ⟨a, hka, hrun.invariant (I := AbsKernel.Stacked) (P := fun _ => True)
    (AbsKernel.boot_stacked ha₀).1 (fun _ _ => trivial) ?_⟩
  intro s trap m s' hs _ hm hs'
  obtain ⟨c, hst⟩ := AbsKernel.step_of_body b.img hm hs'
  exact (hs.enters hst.enters).effect hst.enters.current.1 hst.effect

/-! ### The blocks of the kernel -/

/-- The task is live and owns the block. -/
def Kernel.Owns (k : Kernel) (t : TaskPtr) (i : BlockPtr) : Prop :=
  t ∈ k.live ∧ (k.task t).memoryBlock = some i

/-- Blocks, flags and live tasks are in step. -/
structure StacksApart (img : Image) (k : Kernel) : Prop where
  used : ∀ i, k.memoryBlocksUsed i = true ↔ ∃ t, k.Owns t i
  owns : ∀ t ∈ k.live, ∃ i, k.Owns t i
  distinct : ∀ t u i, k.Owns t i → k.Owns u i → t = u
  available : k.taskPoolPtr ≠ none → (memoryAllocateBlock k.memoryBlocksUsed).1 ≠ none
  apart : ∀ t u i j, t ≠ u → k.Owns t i → k.Owns u j →
    Apart (blockAddr img i) memoryBlockSize (blockAddr img j) memoryBlockSize

/-- The stack pointer of the task is one past the end of its own block. -/
def Kernel.StartsOnBlock (img : Image) (k : Kernel) (t : TaskPtr) : Prop :=
  ∃ i, k.Owns t i ∧ (k.task t).sp = Addr.offset (blockAddr img i) memoryBlockSize

theorem memoryGetBlockEnd_eq (img : Image) (i : BlockPtr) :
    memoryGetBlockEnd img i = Addr.offset (blockAddr img i) memoryBlockSize := by
  unfold memoryGetBlockEnd blockAddr
  rw [Addr.offset_offset, Nat.add_one_mul]

theorem blockAddr_apart (img : Image) {i j : BlockPtr} (h : i ≠ j) :
    Apart (blockAddr img i) memoryBlockSize (blockAddr img j) memoryBlockSize := by
  have hi := i.isLt
  have hj := j.isLt
  have hne : i.val ≠ j.val := fun he => h (Fin.ext he)
  simp only [memoryBlockMaxNum] at hi hj
  refine apart_offset img.memoryBlocks ?_ ?_ ?_
  · simp only [memoryBlockSize]
    omega
  · simp only [memoryBlockSize]
    omega
  · simp only [memoryBlockSize]
    omega

namespace Rep

variable {k m k' : Kernel} {a m' a' : AbsKernel} {img : Image} {c : TaskPtr} {trap : Trap}

theorem memoryBlock_eq (h : Rep k a) (t : TaskPtr) :
    (a.task t).memoryBlock = (k.task t).memoryBlock := by
  rw [h.task_eq]
  rfl

theorem memoryBlocksUsed_eq (h : Rep k a) : a.memoryBlocksUsed = k.memoryBlocksUsed := by
  rw [h.core]
  rfl

theorem owns_iff (h : Rep k a) {t : TaskPtr} {i : BlockPtr} :
    k.Owns t i ↔ t ∈ a.jobq ∧ (a.task t).memoryBlock = some i := by
  unfold Kernel.Owns
  rw [h.live_eq, h.memoryBlock_eq]

theorem startsOnBlock (h : Rep k a) {t : TaskPtr} (ht : t ∈ a.jobq)
    (hs : a.StartsOnBlock img t) : k.StartsOnBlock img t := by
  obtain ⟨i, hi, hsp⟩ := hs
  refine ⟨i, h.owns_iff.mpr ⟨ht, hi⟩, ?_⟩
  rw [← memoryGetBlockEnd_eq, ← hsp, h.task_eq]
  rfl

theorem stacksApart (h : Rep k a) (hs : a.Stacked) : StacksApart img k where
  used := by
    intro i
    rw [← h.memoryBlocksUsed_eq, hs.owned.used_iff]
    exact exists_congr fun t => h.owns_iff.symm
  owns := by
    intro t ht
    rw [h.live_eq] at ht
    obtain ⟨i, hi⟩ := Option.ne_none_iff_exists'.mp (hs.wellFormed.block t ht)
    exact ⟨i, h.owns_iff.mpr ⟨ht, hi⟩⟩
  distinct := by
    intro t u i ht hu
    obtain ⟨htj, hti⟩ := h.owns_iff.mp ht
    obtain ⟨huj, hui⟩ := h.owns_iff.mp hu
    exact hs.owned.inj t htj u huj i hti hui
  available := by
    intro hpool
    have hfree : a.free ≠ [] := by
      intro hnil
      have hstart := h.free.start_eq
      rw [hnil] at hstart
      exact hpool hstart
    obtain ⟨⟨i, used, alloc⟩, -⟩ := hs.wellFormed.create_resources hfree
    rw [← h.memoryBlocksUsed_eq, alloc]
    simp
  apart := by
    intro t u i j hne ht hu
    apply blockAddr_apart
    rintro rfl
    obtain ⟨htj, hti⟩ := h.owns_iff.mp ht
    obtain ⟨huj, hui⟩ := h.owns_iff.mp hu
    exact hne (hs.owned.inj t htj u huj i hti hui)

/-- The tasks a handler adds start on their own blocks. -/
theorem new_startsOnBlock (hm : Rep m m') (hk' : Rep k' a')
    (he : AbsKernel.Effect img m' c trap a') :
    ∀ t ∈ k'.live, t ∉ m.live → k'.StartsOnBlock img t := by
  intro t ht hnew
  rw [hk'.live_eq] at ht
  rw [hm.live_eq] at hnew
  cases he.holdings with
  | kept call jobq =>
    rw [jobq] at ht
    exact absurd ht hnew
  | exited call live block jobq =>
    rw [jobq] at ht
    exact absurd (List.mem_of_mem_erase ht) hnew
  | @created u i call free alloc block jobq sp =>
    have htu : t = u := by
      rw [jobq] at ht
      exact List.mem_singleton.mp ((List.mem_append.mp ht).resolve_left hnew)
    subst htu
    exact hk'.startsOnBlock ht ⟨i, block, sp⟩

end Rep

/-- The block of the task that exits, and its flag, are cleared, and nothing else is. -/
structure Released (img : Image) (m : Kernel) (c : TaskPtr) (k' : Kernel) (i : BlockPtr) :
    Prop where
  owned : m.Owns c i
  flags : k'.memoryBlocksUsed = Function.update m.memoryBlocksUsed i false
  cleared : ∀ x, InBlock (blockAddr img i) memoryBlockSize x → k'.mem x = 0
  kept : ∀ x, ¬ InBlock (blockAddr img i) memoryBlockSize x → k'.mem x = m.mem x

theorem Rep.released {m k' : Kernel} {m' a' : AbsKernel} {img : Image} {c : TaskPtr}
    {trap : Trap} (hm : Rep m m') (hk' : Rep k' a') (he : AbsKernel.Effect img m' c trap a')
    (call : trap.syscall = some .exit) : ∃ i, Released img m c k' i := by
  cases he.holdings with
  | kept hcall => exact absurd call hcall
  | created hcall => exact absurd call hcall
  | @exited i _ live block jobq used mem =>
    refine ⟨i, hm.owns_iff.mpr ⟨live, block⟩, ?_, fun x hx => ?_, fun x hx => ?_⟩
    · rw [← hk'.memoryBlocksUsed_eq, used, hm.memoryBlocksUsed_eq]
    · rw [← hk'.mem_eq, mem]
      exact if_pos hx
    · rw [← hk'.mem_eq, mem, ← hm.mem_eq]
      exact if_neg hx

/-- **Stacks of live tasks never overlap.**  In every state of a run the flags are those of the
blocks of live tasks, every live task has a block of its own, apart from the others, and a block
is left for every free descriptor.  The tasks of the boot and every new task start at the end of
their own blocks, and an Exit clears the block and the flag of the task that makes it. -/
theorem stacks_never_overlap (b : Boot) (h : List (Iter Kernel Trap)) (k : Kernel)
    (r : b.Reaches h k) :
    StacksApart b.img k ∧
    (∀ k₀, b.kernel = .ok k₀ → ∀ t ∈ k₀.live, k₀.StartsOnBlock b.img t) ∧
    ∀ trap m, enterTrap k trap = .ok m → StacksApart b.img m ∧
      ∀ k', handleCurrentException b.img m trap = .ok k' →
        StacksApart b.img k' ∧
        (∀ t ∈ k'.live, t ∉ m.live → k'.StartsOnBlock b.img t) ∧
        (trap.syscall = some .exit → ∀ c, m.currentTask = some c →
          ∃ i, Released b.img m c k' i) := by
  obtain ⟨a, hka, hs⟩ := r.stacked
  refine ⟨hka.stacksApart hs, fun k₀ hk₀ t ht => ?_, fun trap m hm => ?_⟩
  · obtain ⟨a₀, ha₀, hrep⟩ := Refines.ok_left (y := AbsKernel.boot b) b.kernel_refines hk₀
    rw [hrep.live_eq] at ht
    exact hrep.startsOnBlock ht ((AbsKernel.boot_stacked ha₀).2 t ht)
  · obtain ⟨m', hm', hrepm⟩ := (hka.enterTrap trap).ok_left hm
    obtain ⟨c, hent⟩ := AbsKernel.enterTrap_enters.mp hm'
    have hmid := hs.enters hent
    refine ⟨hrepm.stacksApart hmid, fun k' hk' => ?_⟩
    obtain ⟨a', ha', hrep'⟩ := (hrepm.handleCurrentException b.img trap).ok_left hk'
    have heff := AbsKernel.handle_effect hent.current.1 hent.current.2.1 ha'
    refine ⟨hrep'.stacksApart (hmid.effect hent.current.1 heff),
      hrepm.new_startsOnBlock hrep' heff, fun call c' hc' => ?_⟩
    obtain rfl : c = c' := by
      rw [← hrepm.currentTask_eq, hent.current.1] at hc'
      exact Option.some.inj hc'
    exact hrepm.released hrep' heff call

/-- The first task creates a task and exits. -/
theorem stacks_never_overlap_run : ∃ hist k, zeroBoot.Reaches hist k ∧ k.live.length = 2 ∧
    StacksApart zeroBoot.img k := by
  obtain ⟨hist, k, r, -, hk⟩ := Boot.reaches_of_check zeroBoot [svc 1 [3, 0], svc 3 []]
    (fun _ k => decide (k.live.length = 2)) (by decide +kernel)
  exact ⟨hist, k, r, of_decide_eq_true hk, (stacks_never_overlap zeroBoot hist k r).1⟩

end RealtimeKernel
