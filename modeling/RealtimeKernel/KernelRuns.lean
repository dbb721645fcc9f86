import RealtimeKernel.Orderly

/-!
# Runs of the booted kernel

`Boot.Reaches b h k` says that the kernel booted from `b` is at the loop head of `kmain` in state
`k` after the iterations `h`; `AbsKernel.Reaches` is the same for the kernel without pointers.
`Boot.Reaches.abs` matches every run of the kernel with a run of the other, iteration by
iteration, and the invariants of the previous modules hold along the matching run.
-/

namespace RealtimeKernel

open Lib

/-- The booted kernel is at its loop head in state `k` after the iterations `h`. -/
def Boot.Reaches (b : Boot) (h : List (Iter Kernel Trap)) (k : Kernel) : Prop :=
  ∃ k₀, b.kernel = .ok k₀ ∧ (kmainLoop b.img).Run k₀ h k

/-- The last iteration of a run. -/
theorem Boot.Reaches.unsnoc {b : Boot} {h : List (Iter Kernel Trap)} {i : Iter Kernel Trap}
    {k : Kernel} (r : b.Reaches (h ++ [i]) k) :
    b.Reaches h i.head ∧ enterTrap i.head i.input = .ok i.mid ∧
      handleCurrentException b.img i.mid i.input = .ok i.next ∧ k = i.next := by
  obtain ⟨k₀, hk₀, hrun⟩ := r
  obtain ⟨r₀, hlast⟩ := hrun.unsnoc
  exact ⟨⟨k₀, hk₀, r₀⟩, hlast⟩

namespace AbsKernel

def boot (b : Boot) : Except Halt AbsKernel := (init b).initTasks b.img

/-- The same without pointers. -/
def Reaches (b : Boot) (h : List (Iter AbsKernel Trap)) (a : AbsKernel) : Prop :=
  ∃ a₀, boot b = .ok a₀ ∧ (loop b.img).Run a₀ h a

/-! ### The boot -/

theorem rep_init (b : Boot) :
    Rep (initKernel b.img (zeroKernel b.mem) b.chi b.clo) (init b) where
  core := by
    simp only [init, Core.erase]
    congr 1
  free := seg_finRange _ (fun _ => rfl) _ rfl
  free_nodup := List.nodup_finRange _
  free_jobq := by simp [init]
  jobs := JobsRep.init _
  ready := QueuesRep.init _
  irq := QueuesRep.init _

theorem orderly_init (b : Boot) : (init b).Orderly where
  jobq_nodup := List.nodup_nil
  free_nodup := List.nodup_finRange _
  free_jobq := by simp [init]
  ready_free := by simp [init]
  irq_free := by simp [init]
  current_free := by simp [init, initKernel, initScheduler, taskQueueInit]
  dead_tid := fun _ _ => rfl
  live_tid := by simp [init]
  tid_inj := by simp [init]
  count := by simp [init, initKernel, initScheduler, taskQueueInit]
  blocks := by
    simp [init, initKernel, initScheduler, taskQueueInit, memoryInit, usedBlocks]
  block := by simp [init]
  running := by simp [init, taskInit, Task.erase]
  prio := by simp [init, taskInit, Task.erase, Task.PrioOk]
  ring := fun _ => Queue.Ring.init _
  ready := by simp [init, occurs, taskInit, Task.erase]
  ready_prio := by simp [init]
  irq := by simp [init, occurs, cells, taskInit, Task.erase]
  dead := fun _ _ => rfl
  live := by simp [init]
  sender := by simp [rings, init, taskInit, Task.erase]
  once := by simp [rings, init, taskInit, Task.erase, occurs]
  waiting := by simp [rings, init, taskInit, Task.erase]

/-- While descriptors are free, `create_task` finds a memory block and a job node. -/
theorem WellFormed.create_resources {a : AbsKernel} (h : a.WellFormed) (hfree : a.free ≠ []) :
    (∃ block used, memoryAllocateBlock a.memoryBlocksUsed = (some block, used)) ∧
      a.jobq.length < maxTaskNum := by
  have hlen : 0 < a.free.length := List.length_pos_of_ne_nil hfree
  have h₁ := h.blocks
  have h₂ := h.jobq_room
  simp only [maxTaskNum] at h₁ h₂ ⊢
  exact ⟨memoryAllocateBlock_of_lt (by simp only [memoryBlockMaxNum]; omega), by omega⟩

namespace Orderly

variable {a : AbsKernel} {img : Image} {c : TaskPtr} {trap : Trap}

theorem pushable (h : a.Orderly) {t : TaskPtr} (ht : (a.task t).state ≠ .ready) :
    a.Pushable t :=
  ⟨ht, h.prio t, h.toConsistent.ready_room ht⟩

/-- A descriptor from the free list can be made a ready task. -/
theorem addTask_pushable (h : a.Orderly) {priority parentTid : ℤ} {func : U64} {t : TaskPtr}
    {free : List TaskPtr} {block : BlockPtr} {used : BlockPtr → Bool}
    (hfree : a.free = t :: free)
    (alloc : memoryAllocateBlock a.memoryBlocksUsed = (some block, used)) :
    (a.addTask img priority func parentTid t free block used).Pushable t := by
  have ht : (a.task t).state ≠ .ready := by
    rw [h.dead t (h.free_jobq t (by simp [hfree]))]
    decide
  refine ⟨?_, (h.toWellFormed.addTask hfree alloc).prio t, h.toConsistent.ready_room ht⟩
  simp [AbsKernel.addTask, newTask, taskInit]

/-- `create_task` always returns, and leaves an orderly state. -/
theorem createTask (h : a.Orderly) (img : Image) (priority parentTid : ℤ) (func : U64) :
    ∃ o a', a.createTask img priority func parentTid = .ok (o, a') ∧ a'.Orderly := by
  cases hfree : a.free with
  | nil => exact ⟨none, a, createTask_eq_ok.mpr (Or.inl ⟨hfree, rfl, rfl⟩), h⟩
  | cons t free =>
    obtain ⟨⟨block, used, alloc⟩, room⟩ :=
      h.toWellFormed.create_resources (by rw [hfree]; exact List.cons_ne_nil t free)
    have hnd := h.free_nodup
    rw [hfree, List.nodup_cons] at hnd
    have ht : t ∉ a.jobq := h.free_jobq t (by simp [hfree])
    exact ⟨some t, _, createTask_eq_ok.mpr (Or.inr ⟨t, free, block, used, hfree, alloc, room,
      h.addTask_pushable hfree alloc, rfl, rfl⟩), ⟨(h.toWellFormed.addTask hfree alloc).makeReady
      hnd.1, h.toConsistent.created ht, h.toRings.created ht⟩⟩

end Orderly

/-- What holds before the first task has run. -/
structure Fresh (a : AbsKernel) : Prop where
  current : a.currentTask = none
  state : ∀ t, (a.task t).state = .initialized ∨ (a.task t).state = .ready
  result : ∀ t, (a.task t).shouldPassResult = false
  ring : ∀ t, a.rings t = []
  awaiting : ∀ i p, a.irqq i p = []
  taken : ∀ t, t ∈ a.free ∨ t ∈ a.jobq

theorem fresh_init (b : Boot) : (init b).Fresh where
  current := rfl
  state := fun _ => Or.inl rfl
  result := fun _ => rfl
  ring := by simp [rings, init, taskInit, Task.erase]
  awaiting := fun _ _ => rfl
  taken := fun t => Or.inl (List.mem_finRange t)

theorem Fresh.createTask {img : Image} {a a' : AbsKernel} {priority parentTid : ℤ} {func : U64}
    {o : Option TaskPtr} (h : a.Fresh)
    (hc : a.createTask img priority func parentTid = .ok (o, a')) : a'.Fresh := by
  rcases createTask_eq_ok.mp hc with ⟨-, -, rfl⟩ |
    ⟨t, free, block, used, hfree, -, -, -, -, rfl⟩
  · exact h
  · refine ⟨h.current, fun u => ?_, fun u => ?_, fun u => ?_, h.awaiting, fun u => ?_⟩
    · rw [makeReady_task, setState_state]
      by_cases hu : u = t
      · exact Or.inr (if_pos hu)
      · rw [if_neg hu]
        simpa [addTask, hu] using h.state u
    · by_cases hu : u = t
      · subst hu
        simp [addTask, newTask, taskInit]
      · simpa [addTask, hu] using h.result u
    · by_cases hu : u = t
      · subst hu
        simp [rings, addTask, newTask, taskInit]
      · simpa [rings, addTask, hu] using h.ring u
    · have := h.taken u
      rw [hfree, List.mem_cons] at this
      simp only [makeReady_free, makeReady_jobq, addTask, List.mem_append, List.mem_singleton]
      tauto

/-- **The kernel boots** into an orderly state in which no task has run. -/
theorem boot_ok (b : Boot) : ∃ a₀, boot b = .ok a₀ ∧ a₀.Orderly ∧ a₀.Fresh := by
  obtain ⟨o₁, a₁, h₁, ho₁⟩ := (orderly_init b).createTask b.img initialPriority (-1)
    b.img.initialUserTask
  obtain ⟨o₂, a₂, h₂, ho₂⟩ := ho₁.createTask b.img taskPriorityMin (-1)
    b.img.idleTask
  refine ⟨a₂, ?_, ho₂, ((fresh_init b).createTask h₁).createTask h₂⟩
  simp only [boot, AbsKernel.initTasks, h₁, ok_bind, h₂]

/-- The two calls of `create_task` that a boot is made of. -/
theorem boot_created {b : Boot} {a : AbsKernel} (hb : boot b = .ok a) :
    ∃ o₁ a₁ o₂, (init b).createTask b.img initialPriority b.img.initialUserTask (-1)
        = .ok (o₁, a₁) ∧ a₁.Orderly ∧
      a₁.createTask b.img taskPriorityMin b.img.idleTask (-1) = .ok (o₂, a) ∧ a.Orderly := by
  obtain ⟨o₁, a₁, h₁, ho₁⟩ := (orderly_init b).createTask b.img initialPriority (-1)
    b.img.initialUserTask
  obtain ⟨o₂, a₂, h₂, ho₂⟩ := ho₁.createTask b.img taskPriorityMin (-1) b.img.idleTask
  obtain rfl : a₂ = a := by
    simp only [boot, AbsKernel.initTasks, h₁, ok_bind, h₂] at hb
    exact Except.ok.inj hb
  exact ⟨o₁, a₁, o₂, h₁, ho₁, h₂, ho₂⟩

end AbsKernel

theorem Boot.kernel_refines (b : Boot) : Refines Rep b.kernel (AbsKernel.boot b) := by
  unfold Boot.kernel AbsKernel.boot
  exact Rep.initTasks b.img (AbsKernel.rep_init b)

theorem Boot.kernel_ok (b : Boot) : ∃ k₀, b.kernel = .ok k₀ := by
  obtain ⟨a₀, ha, -, -⟩ := AbsKernel.boot_ok b
  obtain ⟨k₀, hk, -⟩ := Refines.ok_right (x := b.kernel) b.kernel_refines ha
  exact ⟨k₀, hk⟩

/-- **Every run of the kernel is matched by a run without pointers.** -/
theorem Boot.Reaches.abs {b : Boot} {h : List (Iter Kernel Trap)} {k : Kernel}
    (r : b.Reaches h k) :
    ∃ h' a, AbsKernel.Reaches b h' a ∧ Rep k a ∧ List.Forall₂ (Loop.IterRel Rep) h h' := by
  obtain ⟨k₀, hk₀, hrun⟩ := r
  obtain ⟨a₀, ha₀, hrep⟩ := Refines.ok_left (y := AbsKernel.boot b) b.kernel_refines hk₀
  obtain ⟨h', a, hrun', hka, hh⟩ := hrun.refines (M := AbsKernel.loop b.img) hrep
    (fun _ _ trap hst => hst.enterTrap trap)
    fun _ _ trap hst => hst.handleCurrentException b.img trap
  exact ⟨h', a, ⟨a₀, ha₀, hrun'⟩, hka, hh⟩

namespace AbsKernel

variable {b : Boot} {h : List (Iter AbsKernel Trap)} {a : AbsKernel} {img : Image} {c : TaskPtr}
  {trap : Trap}

/-! ### The invariants along a run -/

/-- What an iteration of the loop is made of. -/
structure Step (img : Image) (a : AbsKernel) (trap : Trap) (c : TaskPtr) (m a' : AbsKernel) :
    Prop where
  enters : Enters a trap c m
  effect : Effect img m c trap a'

theorem Enters.current {m : AbsKernel} (he : Enters a trap c m) :
    m.currentTask = some c ∧ (m.task c).state = .running ∧ (m.task c).x = trap.x ∧
      m.mem = trap.mem := by
  cases he with
  | intro hr pop state => simp [dispatch, saveContext]

/-- An iteration is an `Enters` and an `Effect` of the same task. -/
theorem step_of_body (img : Image) {m a' : AbsKernel} (hm : (loop img).enter a trap = .ok m)
    (hs : (loop img).handle m trap = .ok a') : ∃ c, Step img a trap c m a' := by
  obtain ⟨c, he⟩ := enterTrap_enters.mp hm
  exact ⟨c, he, handle_effect he.current.1 he.current.2.1 hs⟩

/-- A well-formed state stays well formed through an iteration. -/
theorem Step.wellFormed {m a' : AbsKernel} (hst : Step img a trap c m a') (h : a.WellFormed) :
    m.WellFormed ∧ a'.WellFormed := by
  have hm := h.enters hst.enters
  exact ⟨hm, hm.effect hst.enters.current.1 hst.effect⟩

theorem Step.orderly {m a' : AbsKernel} (hst : Step img a trap c m a') (h : a.Orderly)
    (hok : m.ReplyOk trap) : m.Orderly ∧ a'.Orderly := by
  have hm := h.enters hst.enters
  obtain ⟨hc, hrun, hx, -⟩ := hst.enters.current
  exact ⟨hm, hm.effect hc hrun hx hok hst.effect⟩

/-- **Every reachable state is well formed.** -/
theorem Reaches.wellFormed (r : Reaches b h a) : a.WellFormed := by
  obtain ⟨a₀, ha₀, hrun⟩ := r
  obtain ⟨a₁, ha₁, ho, -⟩ := boot_ok b
  obtain rfl : a₀ = a₁ := Except.ok.inj (ha₀.symm.trans ha₁)
  refine hrun.invariant (I := WellFormed) (P := fun _ => True) ho.toWellFormed
    (fun _ _ => trivial) ?_
  intro s trap m s' hs _ hm hs'
  obtain ⟨c, hst⟩ := step_of_body b.img hm hs'
  exact (hst.wellFormed hs).2

/-- **Every state reached with replies to waiting tasks only is orderly.** -/
theorem Reaches.orderly (r : Reaches b h a) (hok : ∀ i ∈ h, i.mid.ReplyOk i.input) :
    a.Orderly := by
  obtain ⟨a₀, ha₀, hrun⟩ := r
  obtain ⟨a₁, ha₁, ho, -⟩ := boot_ok b
  obtain rfl : a₀ = a₁ := Except.ok.inj (ha₀.symm.trans ha₁)
  refine hrun.invariant (I := Orderly) (P := fun i => i.mid.ReplyOk i.input) ho hok ?_
  intro s trap m s' hs hP hm hs'
  obtain ⟨c, hst⟩ := step_of_body b.img hm hs'
  exact (hst.orderly hs hP).2

end AbsKernel

/-- An iteration of the kernel is matched by one without pointers. -/
theorem Rep.iteration (img : Image) {k m k' : Kernel} {a : AbsKernel} {trap : Trap}
    (hr : Rep k a) (hm : RealtimeKernel.enterTrap k trap = .ok m)
    (hk' : RealtimeKernel.handleCurrentException img m trap = .ok k') :
    ∃ c m' a', Rep m m' ∧ Rep k' a' ∧ AbsKernel.Step img a trap c m' a' := by
  obtain ⟨m', hm', hrepm⟩ := (hr.enterTrap trap).ok_left hm
  obtain ⟨a', ha', hrep'⟩ := (hrepm.handleCurrentException img trap).ok_left hk'
  obtain ⟨c, hst⟩ := AbsKernel.step_of_body img hm' ha'
  exact ⟨c, m', a', hrepm, hrep', hst⟩

/-! ### Reading the kernel's lists -/

namespace Kernel

/-- The live tasks, in the order of the job queue. -/
def live (k : Kernel) : List TaskPtr := taskListTasks k.jobqPool k.jobq

/-- The ready tasks of one priority, earliest first. -/
def ready (k : Kernel) (p : Fin taskPriorityMax) : List TaskPtr :=
  taskListTasks k.readyqPool (k.readyq.taskList p)

/-- The tasks in one list of an irq queue, earliest first. -/
def waiters (k : Kernel) (i : Fin numInterrupt) (p : Fin taskPriorityMax) : List TaskPtr :=
  taskListTasks k.irqqPool ((k.irqq i).taskList p)

/-- The descriptors on the free list headed by `task_pool_ptr`. -/
def freeTasks (k : Kernel) : List TaskPtr :=
  follow (fun t => (k.task t).next) taskPoolSize k.taskPoolPtr

/-- The ring of senders of a task, oldest first. -/
def ring (k : Kernel) (r : TaskPtr) : List U64 := (k.task r).senders.contents

/-- A Reply that finds a live task names one in state `WATIREPLY`. -/
def ReplyOk (k : Kernel) (trap : Trap) : Prop :=
  trap.syscall = some .reply → ∀ s, getTaskByTid k (toInt32 (trap.x 0)) = .ok (some s) →
    (k.task s).state = .watireply

instance (k : Kernel) (trap : Trap) : Decidable (k.ReplyOk trap) :=
  inferInstanceAs (Decidable (_ → ∀ _, _ → _))

end Kernel

namespace Rep

variable {k : Kernel} {a : AbsKernel}

theorem live_eq (h : Rep k a) : k.live = a.jobq := h.jobs.view_eq

theorem ready_eq (h : Rep k a) (p : Fin taskPriorityMax) : k.ready p = a.readyq p :=
  h.ready.view_eq () p

theorem waiters_eq (h : Rep k a) (i : Fin numInterrupt) (p : Fin taskPriorityMax) :
    k.waiters i p = a.irqq i p :=
  h.irq.view_eq i p

theorem freeTasks_eq (h : Rep k a) : k.freeTasks = a.free :=
  h.free.follow_eq (by simpa using h.free_nodup.length_le_card)

theorem state_eq (h : Rep k a) (t : TaskPtr) : (a.task t).state = (k.task t).state := by
  rw [h.task_eq]
  rfl

theorem tid_eq (h : Rep k a) (t : TaskPtr) : (a.task t).tid = (k.task t).tid := by
  rw [h.task_eq]
  rfl

theorem x_eq (h : Rep k a) (t : TaskPtr) : (a.task t).x = (k.task t).x := by
  rw [h.task_eq]
  rfl

theorem ring_eq (h : Rep k a) (r : TaskPtr) : a.rings r = k.ring r := by
  unfold AbsKernel.rings Kernel.ring
  rw [h.task_eq]
  rfl

theorem replyOk (h : Rep k a) {trap : Trap} (hok : k.ReplyOk trap) : a.ReplyOk trap := by
  intro hc s hs
  rw [h.state_eq]
  exact hok hc s (by rw [h.getTaskByTid_eq, hs])

end Rep

/-! ### Running the kernel on given traps -/

/-- The kernel boots and survives the traps, and `p` holds of its history and final state. -/
def Boot.check (b : Boot) (traps : List Trap) (p : List (Iter Kernel Trap) → Kernel → Bool) :
    Bool :=
  match b.kernel >>= fun k₀ => (kmainLoop b.img).exec k₀ traps with
  | .ok (h, k) => p h k
  | .error _ => false

theorem Boot.reaches_of_check (b : Boot) (traps : List Trap)
    (p : List (Iter Kernel Trap) → Kernel → Bool) (hp : b.check traps p = true) :
    ∃ h k, b.Reaches h k ∧ h.map Iter.input = traps ∧ p h k = true := by
  unfold Boot.check at hp
  split at hp
  · rename_i h k hk
    obtain ⟨k₀, hk₀, hexec⟩ := bind_eq_ok.mp hk
    obtain ⟨hrun, hmap⟩ := Loop.run_of_exec hexec
    exact ⟨h, k, ⟨k₀, hk₀, hrun⟩, hmap, hp⟩
  · cases hp

/-- A boot with all addresses and memory zero, for examples. -/
def zeroBoot : Boot :=
  { img := { memoryBlocks := 0, exit := 0, initialUserTask := 0, idleTask := 0 },
    mem := fun _ => 0, chi := 0, clo := 0 }

/-- A trap of the instruction `svc #code` with the given arguments. -/
def svc (code : ℕ) (args : List U64) : Trap :=
  { x := fun i => args.getD i 0, sp := 0, spsr := 0, pc := 0, mem := fun _ => 0,
    cause := .sync (esrOfCode code) }

/-- An interrupt of timer 1 in user code with the given registers. -/
def tick (args : List U64) : Trap :=
  { x := fun i => args.getD i 0, sp := 0, spsr := 0, pc := 0, mem := fun _ => 0,
    cause := .irq waitTimer1 0 0 }

/-- **The matching run of a run with replies to waiting tasks only is orderly.** -/
theorem Boot.Reaches.orderly {b : Boot} {h : List (Iter Kernel Trap)} {k : Kernel}
    (r : b.Reaches h k) (hok : ∀ i ∈ h, i.mid.ReplyOk i.input) :
    ∃ h' a, AbsKernel.Reaches b h' a ∧ Rep k a ∧ List.Forall₂ (Loop.IterRel Rep) h h' ∧
      (∀ j ∈ h', j.mid.ReplyOk j.input) ∧ a.Orderly := by
  obtain ⟨h', a, r', hka, hh⟩ := r.abs
  have hok' : ∀ j ∈ h', j.mid.ReplyOk j.input :=
    Loop.forall_of_forall₂ hh hok fun i j hij hi => hij.input ▸ hij.mid.replyOk hi
  exact ⟨h', a, r', hka, hh, hok', r'.orderly hok'⟩

end RealtimeKernel
