import RealtimeKernel.Refinement

/-!
# What one iteration of the kernel can do

`Enters a trap c m` says how the kernel gets from its loop head to the handler of `trap`: the
current task is requeued, the task `c` is taken from the ready queue, activated, and its context
saved.  `Effect img a c trap a'` lists the outcomes of the handlers, one constructor for each way
through the code of a system call or interrupt, with the guards of that way and the state it
leaves.  `enterTrap_enters` and `handle_effect` are the only places where the functions are
taken apart; every invariant is a case analysis on these two relations.
-/

namespace RealtimeKernel

open Lib

theorem deref_eq_ok {α : Type} {o : Option α} {x : α} : deref o = .ok x ↔ o = some x := by
  cases o <;> simp [deref]

/-- The priority of a task as an index of the priority queues. -/
def Task.prio (t : Task) : Fin taskPriorityMax := Fin.ofNat taskPriorityMax t.priority.toNat

/-- The priority lies in the range of the priority queues. -/
def Task.PrioOk (t : Task) : Prop := taskPriorityMin ≤ t.priority ∧ t.priority < taskPriorityMax

theorem Task.prio_eq {t : Task} (h : t.PrioOk) :
    (⟨t.priority.toNat, toNat_lt_taskPriorityMax h⟩ : Fin taskPriorityMax) = t.prio := by
  ext
  simp only [prio, Fin.ofNat]
  rw [Nat.mod_eq_of_lt (toNat_lt_taskPriorityMax h)]

theorem Task.prio_val {t : Task} (h : t.PrioOk) : (t.prio : ℤ) = t.priority := by
  rw [← Task.prio_eq h]
  have h₁ := h.1
  simp only [taskPriorityMin] at h₁
  simp only
  omega

theorem entries_cells_unit (c : Fin taskPriorityMax → List TaskPtr) :
    entries (cells fun _ : Unit => c) = entries c := by
  simp [entries, cells, Fintype.sum_prod_type]

/-- `irqq[WAIT_TIMER_1]` -/
def timer1 : Fin numInterrupt := ⟨waitTimer1, by decide⟩

namespace AbsKernel

/-! ### Updates -/

/-- The state field of one descriptor. -/
def setState (a : AbsKernel) (t : TaskPtr) (s : TaskState) : AbsKernel :=
  a.modify t fun u => { u with state := s }

/-- `assign_result` on a descriptor. -/
def assign (a : AbsKernel) (t : TaskPtr) (v : ℤ) : AbsKernel :=
  a.modify t fun u => assignResult u (ofInt v)

/-- `change_task_state(t, READY)` when it succeeds. -/
def makeReady (a : AbsKernel) (t : TaskPtr) : AbsKernel :=
  { a.setState t .ready with readyq := pushAt a.readyq (a.task t).prio t }

/-- The memory after `copy_message`. -/
def copied (mem : Mem) (msgFrom : U64) (lenFrom : ℤ) (msgTo : U64) (lenTo : ℤ) : Mem :=
  memcpy mem msgTo msgFrom (toUsize (actualLen lenFrom lenTo))

section Simp

variable (a : AbsKernel) (t : TaskPtr) (f : Task → Task) (mem : Mem) (s : TaskState) (v : ℤ)

@[simp] theorem modify_task :
    (a.modify t f).task = Function.update a.task t (f (a.task t)) := rfl
@[simp] theorem modify_taskIdCnt : (a.modify t f).taskIdCnt = a.taskIdCnt := rfl
@[simp] theorem modify_currentTask : (a.modify t f).currentTask = a.currentTask := rfl
@[simp] theorem modify_memoryBlocksUsed :
    (a.modify t f).memoryBlocksUsed = a.memoryBlocksUsed := rfl
@[simp] theorem modify_mem : (a.modify t f).mem = a.mem := rfl
@[simp] theorem modify_clocks : (a.modify t f).clocks = a.clocks := rfl
@[simp] theorem modify_free : (a.modify t f).free = a.free := rfl
@[simp] theorem modify_jobq : (a.modify t f).jobq = a.jobq := rfl
@[simp] theorem modify_readyq : (a.modify t f).readyq = a.readyq := rfl
@[simp] theorem modify_irqq : (a.modify t f).irqq = a.irqq := rfl

@[simp] theorem setMem_task : (a.setMem mem).task = a.task := rfl
@[simp] theorem setMem_taskIdCnt : (a.setMem mem).taskIdCnt = a.taskIdCnt := rfl
@[simp] theorem setMem_currentTask : (a.setMem mem).currentTask = a.currentTask := rfl
@[simp] theorem setMem_memoryBlocksUsed :
    (a.setMem mem).memoryBlocksUsed = a.memoryBlocksUsed := rfl
@[simp] theorem setMem_mem : (a.setMem mem).mem = mem := rfl
@[simp] theorem setMem_clocks : (a.setMem mem).clocks = a.clocks := rfl
@[simp] theorem setMem_free : (a.setMem mem).free = a.free := rfl
@[simp] theorem setMem_jobq : (a.setMem mem).jobq = a.jobq := rfl
@[simp] theorem setMem_readyq : (a.setMem mem).readyq = a.readyq := rfl
@[simp] theorem setMem_irqq : (a.setMem mem).irqq = a.irqq := rfl

@[simp] theorem makeReady_task : (a.makeReady t).task = (a.setState t .ready).task := rfl
@[simp] theorem makeReady_taskIdCnt : (a.makeReady t).taskIdCnt = a.taskIdCnt := rfl
@[simp] theorem makeReady_currentTask : (a.makeReady t).currentTask = a.currentTask := rfl
@[simp] theorem makeReady_memoryBlocksUsed :
    (a.makeReady t).memoryBlocksUsed = a.memoryBlocksUsed := rfl
@[simp] theorem makeReady_mem : (a.makeReady t).mem = a.mem := rfl
@[simp] theorem makeReady_clocks : (a.makeReady t).clocks = a.clocks := rfl
@[simp] theorem makeReady_free : (a.makeReady t).free = a.free := rfl
@[simp] theorem makeReady_jobq : (a.makeReady t).jobq = a.jobq := rfl
@[simp] theorem makeReady_readyq :
    (a.makeReady t).readyq = pushAt a.readyq (a.task t).prio t := rfl
@[simp] theorem makeReady_irqq : (a.makeReady t).irqq = a.irqq := rfl

@[simp] theorem assign_mem : (a.assign t v).mem = a.mem := rfl
@[simp] theorem assign_jobq : (a.assign t v).jobq = a.jobq := rfl
@[simp] theorem assign_free : (a.assign t v).free = a.free := rfl
@[simp] theorem assign_readyq : (a.assign t v).readyq = a.readyq := rfl
@[simp] theorem assign_irqq : (a.assign t v).irqq = a.irqq := rfl
@[simp] theorem assign_currentTask : (a.assign t v).currentTask = a.currentTask := rfl
@[simp] theorem setState_mem : (a.setState t s).mem = a.mem := rfl
@[simp] theorem setState_jobq : (a.setState t s).jobq = a.jobq := rfl
@[simp] theorem setState_free : (a.setState t s).free = a.free := rfl
@[simp] theorem setState_readyq : (a.setState t s).readyq = a.readyq := rfl
@[simp] theorem setState_irqq : (a.setState t s).irqq = a.irqq := rfl
@[simp] theorem setState_currentTask : (a.setState t s).currentTask = a.currentTask := rfl

/-- A field that `f` leaves alone is unchanged on every descriptor. -/
theorem modify_field {α : Type} (g : Task → α) (h : g (f (a.task t)) = g (a.task t))
    (u : TaskPtr) : g ((a.modify t f).task u) = g (a.task u) := by
  by_cases hu : u = t
  · subst hu
    simp [h]
  · simp [hu]

variable (u : TaskPtr)

@[simp] theorem assign_state : ((a.assign t v).task u).state = (a.task u).state :=
  modify_field a t _ Task.state rfl u
@[simp] theorem assign_tid : ((a.assign t v).task u).tid = (a.task u).tid :=
  modify_field a t _ Task.tid rfl u
@[simp] theorem assign_x : ((a.assign t v).task u).x = (a.task u).x :=
  modify_field a t _ Task.x rfl u
@[simp] theorem assign_senders : ((a.assign t v).task u).senders = (a.task u).senders :=
  modify_field a t _ Task.senders rfl u
@[simp] theorem setState_tid : ((a.setState t s).task u).tid = (a.task u).tid :=
  modify_field a t _ Task.tid rfl u
@[simp] theorem setState_x : ((a.setState t s).task u).x = (a.task u).x :=
  modify_field a t _ Task.x rfl u
@[simp] theorem setState_senders : ((a.setState t s).task u).senders = (a.task u).senders :=
  modify_field a t _ Task.senders rfl u
@[simp] theorem setState_shouldPassResult :
    ((a.setState t s).task u).shouldPassResult = (a.task u).shouldPassResult :=
  modify_field a t _ Task.shouldPassResult rfl u
@[simp] theorem setState_result : ((a.setState t s).task u).result = (a.task u).result :=
  modify_field a t _ Task.result rfl u

theorem setState_state :
    ((a.setState t s).task u).state = if u = t then s else (a.task u).state := by
  by_cases hu : u = t
  · subst hu
    simp [setState]
  · simp [setState, hu]

end Simp

/-! ### The queues -/

theorem popQueues_eq_ok {ι : Type} [DecidableEq ι] {c c' : ι → Fin taskPriorityMax → List TaskPtr}
    {i : ι} {t : TaskPtr} :
    popQueues c i = .ok (t, c') ↔
      ∃ ci, popHighest (c i) = some (t, ci) ∧ c' = Function.update c i ci := by
  unfold popQueues
  cases popHighest (c i) with
  | none => simp
  | some r =>
    obtain ⟨u, ci⟩ := r
    simp only [Except.ok.injEq, Prod.mk.injEq, Option.some.injEq]
    constructor
    · rintro ⟨rfl, rfl⟩
      exact ⟨ci, ⟨rfl, rfl⟩, rfl⟩
    · rintro ⟨ci', ⟨rfl, rfl⟩, rfl⟩
      exact ⟨rfl, rfl⟩

theorem pushQueues_eq_ok {ι : Type} [Fintype ι] [DecidableEq ι]
    {c c' : ι → Fin taskPriorityMax → List TaskPtr} {i : ι} {t : TaskPtr} {u : Task} :
    pushQueues c i t u.priority = .ok c' ↔
      u.PrioOk ∧ entries (cells c) < maxTaskNum ∧
        c' = Function.update c i (pushAt (c i) u.prio t) := by
  unfold pushQueues
  constructor
  · intro h
    split at h
    · rename_i hp
      split at h
      · rename_i hroom
        cases h
        exact ⟨hp, hroom, by rw [← Task.prio_eq hp]⟩
      · cases h
    · cases h
  · rintro ⟨hp, hroom, rfl⟩
    have hp' : taskPriorityMin ≤ u.priority ∧ u.priority < taskPriorityMax := hp
    rw [dif_pos hp', if_pos hroom, Task.prio_eq hp]

/-! ### `change_task_state` -/

/-- What has to hold for a task to be pushed on the ready queue. -/
structure Pushable (a : AbsKernel) (t : TaskPtr) : Prop where
  state : (a.task t).state ≠ .ready
  prio : (a.task t).PrioOk
  room : entries a.readyq < maxTaskNum

theorem changeTaskState_ready {a a' : AbsKernel} {t : TaskPtr} :
    a.changeTaskState t .ready = .ok a' ↔ a.Pushable t ∧ a' = a.makeReady t := by
  unfold changeTaskState
  by_cases hs : (a.task t).state = .ready
  · rw [if_pos hs]
    constructor
    · intro h
      cases h
    · rintro ⟨hp, -⟩
      exact absurd hs hp.state
  · rw [if_neg hs]
    simp only [pushReady, bind_eq_ok, pushQueues_eq_ok, entries_cells_unit]
    constructor
    · rintro ⟨a₁, ⟨rq, ⟨hp, hroom, rfl⟩, h₁⟩, h₂⟩
      cases h₁
      cases h₂
      exact ⟨⟨hs, hp, hroom⟩, by simp [makeReady, setState, modify]⟩
    · rintro ⟨⟨-, hp, hroom⟩, rfl⟩
      refine ⟨_, ⟨_, ⟨hp, hroom, rfl⟩, rfl⟩, ?_⟩
      simp [makeReady, setState, modify]

theorem changeTaskState_running {a a' : AbsKernel} {t : TaskPtr} :
    a.changeTaskState t .running = .ok a' ↔
      (a.task t).state ≠ .running ∧
        a' = { a.setState t .running with currentTask := some t } := by
  unfold changeTaskState
  by_cases hs : (a.task t).state = .running
  · simp [hs]
  · rw [if_neg hs, ok_bind, Except.ok.injEq]
    constructor
    · rintro rfl
      exact ⟨hs, rfl⟩
    · rintro ⟨-, rfl⟩
      rfl

/-- The other states only change the descriptor. -/
theorem changeTaskState_blocked {a a' : AbsKernel} {t : TaskPtr} {s : TaskState}
    (hs : s.beforeReady = true) :
    a.changeTaskState t s = .ok a' ↔ (a.task t).state ≠ s ∧ a' = a.setState t s := by
  have heq : a.changeTaskState t s =
      if (a.task t).state = s then .error .changeTaskState else .ok (a.setState t s) := by
    cases s <;> first | exact absurd hs (by decide) | rfl
  rw [heq]
  by_cases hne : (a.task t).state = s
  · simp [hne]
  · simp [hne, eq_comm]

/-! ### From the loop head to the handler -/

/-- The current task goes back to the ready queue unless it is blocked or gone. -/
inductive Requeue (a : AbsKernel) : AbsKernel → Prop
  | running {c : TaskPtr} (current : a.currentTask = some c)
      (state : (a.task c).state = .running) (push : a.Pushable c) : Requeue a (a.makeReady c)
  | blocked {c : TaskPtr} (current : a.currentTask = some c)
      (state : (a.task c).state.beforeReady = true) : Requeue a a
  | gone (current : a.currentTask = none) : Requeue a a

/-- The task `c` has left the ready queue `rq`, is running, and `trap` has been saved. -/
def dispatch (a : AbsKernel) (c : TaskPtr) (rq : Fin taskPriorityMax → List TaskPtr)
    (trap : Trap) : AbsKernel :=
  { a with
    readyq := rq, currentTask := some c, mem := trap.mem
    task := Function.update a.task c (saveContext { a.task c with state := .running } trap) }

/-- The kernel reaches the handler of `trap`, made by the task `c`, in state `m`. -/
inductive Enters (a : AbsKernel) (trap : Trap) (c : TaskPtr) : AbsKernel → Prop
  | intro {a₁ : AbsKernel} {rq : Fin taskPriorityMax → List TaskPtr} (requeue : Requeue a a₁)
      (pop : popHighest a₁.readyq = some (c, rq)) (state : (a₁.task c).state ≠ .running) :
      Enters a trap c (a₁.dispatch c rq trap)

theorem requeueCurrent_eq_ok {a a₁ : AbsKernel} :
    a.requeueCurrent = .ok a₁ ↔ Requeue a a₁ := by
  unfold requeueCurrent
  cases hc : a.currentTask with
  | none =>
    constructor
    · intro h
      cases h
      exact .gone hc
    · intro h
      cases h with
      | running current => simp [hc] at current
      | blocked current => simp [hc] at current
      | gone => rfl
  | some c =>
    by_cases hs : (a.task c).state = .running
    · simp only [if_pos hs, changeTaskState_ready]
      constructor
      · rintro ⟨hp, rfl⟩
        exact .running hc hs hp
      · intro h
        cases h with
        | running current state push =>
          obtain rfl : c = _ := Option.some.inj (hc.symm.trans current)
          exact ⟨push, rfl⟩
        | blocked current state =>
          obtain rfl : c = _ := Option.some.inj (hc.symm.trans current)
          simp [hs, TaskState.beforeReady] at state
        | gone current => simp [hc] at current
    · simp only [if_neg hs]
      constructor
      · intro h
        split at h
        · rename_i hb
          cases h
          exact .blocked hc hb
        · cases h
      · intro h
        cases h with
        | running current state push =>
          obtain rfl : c = _ := Option.some.inj (hc.symm.trans current)
          exact absurd state hs
        | blocked current state =>
          obtain rfl : c = _ := Option.some.inj (hc.symm.trans current)
          rw [if_pos state]
        | gone current => simp [hc] at current

theorem schedule_eq_ok {a a₂ : AbsKernel} {o : Option TaskPtr} :
    a.schedule = .ok (o, a₂) ↔ ∃ a₁, Requeue a a₁ ∧
      ((o = none ∧ (∀ p, a₁.readyq p = []) ∧ a₂ = a₁) ∨
        ∃ c rq, o = some c ∧ popHighest a₁.readyq = some (c, rq) ∧
          a₂ = { a₁ with readyq := rq }) := by
  unfold schedule popReady
  rw [bind_eq_ok]
  refine exists_congr fun a₁ => ?_
  rw [requeueCurrent_eq_ok]
  refine and_congr_right fun _ => ?_
  by_cases hnil : ∀ p, a₁.readyq p = []
  · rw [if_pos hnil]
    constructor
    · intro h
      cases h
      exact Or.inl ⟨rfl, hnil, rfl⟩
    · rintro (⟨rfl, -, rfl⟩ | ⟨c, rq, -, hpop, -⟩)
      · rfl
      · rw [popHighest_eq_none.mpr hnil] at hpop
        cases hpop
  · rw [if_neg hnil]
    constructor
    · intro h
      simp only [bind_eq_ok] at h
      obtain ⟨⟨c, a₃⟩, ⟨⟨c', cs⟩, hpop, heq⟩, hlast⟩ := h
      cases heq
      cases hlast
      obtain ⟨ci, hci, rfl⟩ := popQueues_eq_ok.mp hpop
      exact Or.inr ⟨_, ci, rfl, hci, by simp⟩
    · rintro (⟨-, hno, -⟩ | ⟨c, rq, rfl, hpop, rfl⟩)
      · exact absurd hno hnil
      · have : popQueues (fun _ : Unit => a₁.readyq) ()
            = .ok (c, Function.update (fun _ : Unit => a₁.readyq) () rq) :=
          popQueues_eq_ok.mpr ⟨rq, hpop, rfl⟩
        simp [this]

theorem activate_eq_ok {a a' : AbsKernel} {c : TaskPtr} :
    a.activate c = .ok a' ↔ (a.task c).state ≠ .running ∧
      a' = { a.modify c fun t =>
        { t with
          state := .running
          x := if t.shouldPassResult then Function.update t.x 0 t.result else t.x }
        with currentTask := some c } := by
  unfold activate
  rw [bind_eq_ok]
  constructor
  · rintro ⟨a₁, h₁, h₂⟩
    obtain ⟨hs, rfl⟩ := changeTaskState_running.mp h₁
    refine ⟨hs, ?_⟩
    by_cases hf : (a.task c).shouldPassResult
    · simp [setState, hf] at h₂
      simp [← h₂, modify, Core.modify, hf]
    · simp [setState, hf] at h₂
      simp [← h₂, modify, Core.modify, hf]
  · rintro ⟨hs, rfl⟩
    refine ⟨_, changeTaskState_running.mpr ⟨hs, rfl⟩, ?_⟩
    by_cases hf : (a.task c).shouldPassResult
    · simp [setState, hf, modify, Core.modify]
    · simp [setState, hf, modify, Core.modify]

theorem enterTrap_enters {a m : AbsKernel} {trap : Trap} :
    a.enterTrap trap = .ok m ↔ ∃ c, Enters a trap c m := by
  unfold enterTrap
  rw [bind_eq_ok]
  constructor
  · rintro ⟨⟨o, a₂⟩, hs, h⟩
    obtain ⟨a₁, hrq, ⟨rfl, -, -⟩ | ⟨c, rq, rfl, hpop, rfl⟩⟩ := schedule_eq_ok.mp hs
    · cases h
    · simp only [bind_eq_ok] at h
      obtain ⟨a₃, hact, c', hc', h⟩ := h
      obtain ⟨hne, rfl⟩ := activate_eq_ok.mp hact
      obtain rfl : c = c' := by simpa using deref_eq_ok.mp hc'
      cases h
      refine ⟨c, ?_⟩
      have hent : Enters a trap c _ := Enters.intro hrq hpop hne
      convert hent using 1
      simp [dispatch, modify, Core.modify, setMem, saveContext]
  · rintro ⟨c, h⟩
    cases h with
    | @intro a₁ rq requeue pop state =>
      refine ⟨(some c, { a₁ with readyq := rq }),
        schedule_eq_ok.mpr ⟨a₁, requeue, Or.inr ⟨c, rq, rfl, pop, rfl⟩⟩, ?_⟩
      simp only [bind_eq_ok]
      refine ⟨_, activate_eq_ok.mpr ⟨state, rfl⟩, c, rfl, ?_⟩
      simp [dispatch, modify, Core.modify, setMem, saveContext]

/-! ### The outcomes of the handlers -/

/-- `create_task` up to the new task's `change_task_state(READY)`. -/
def addTask (img : Image) (a : AbsKernel) (priority : ℤ) (func : U64) (parentTid : ℤ)
    (t : TaskPtr) (free : List TaskPtr) (block : BlockPtr) (used : BlockPtr → Bool) : AbsKernel :=
  { a with
    free := free, taskIdCnt := a.taskIdCnt + 1, memoryBlocksUsed := used
    task := Function.update a.task t
      (newTask img a.taskIdCnt parentTid (i32Clamp priority taskPriorityMin (taskPriorityMax - 1))
        block func (a.task t))
    jobq := a.jobq ++ [t] }

/-- `remove_current_task` of the live task `c`. -/
def removed (img : Image) (a : AbsKernel) (c : TaskPtr) (block : BlockPtr) : AbsKernel :=
  { a with
    jobq := a.jobq.erase c, currentTask := none
    mem := zeroBytes a.mem (blockAddr img block) memoryBlockSize
    memoryBlocksUsed := Function.update a.memoryBlocksUsed block false
    task := Function.update a.task c (taskInit (a.task c)) }

/-- The length that a Receive of `r` reports for the message of `s`. -/
def deliveredLen (a : AbsKernel) (s r : TaskPtr) : ℤ :=
  actualLen (toInt32 ((a.task s).x 2)) (toInt32 ((a.task r).x 2))

/-- Memory once the tid of `s` and its message are stored where `r` asked for them. -/
def delivered (a : AbsKernel) (s r : TaskPtr) : Mem :=
  copied (storeInt a.mem ((a.task r).x 0) (a.task s).tid) ((a.task s).x 1)
    (toInt32 ((a.task s).x 2)) ((a.task r).x 1) (toInt32 ((a.task r).x 2))

/-- The length that both sides of a Reply of `r` to `s` are given. -/
def repliedLen (a : AbsKernel) (r s : TaskPtr) : ℤ :=
  actualLen (toInt32 ((a.task r).x 2)) (toInt32 ((a.task s).x 4))

/-- Memory once the reply of `r` is stored where `s` asked for it. -/
def repliedMem (a : AbsKernel) (r s : TaskPtr) : Mem :=
  copied a.mem ((a.task r).x 1) (toInt32 ((a.task r).x 2)) ((a.task s).x 3)
    (toInt32 ((a.task s).x 4))

/-- The handler of `trap`, made by the running task `c`, leaves the given state. -/
inductive Effect (img : Image) (a : AbsKernel) (c : TaskPtr) (trap : Trap) : AbsKernel → Prop
  /-- An exception that is no `svc` is only reported. -/
  | ignored {esr : U64} (cause : trap.cause = .sync esr) (cls : exceptionClass esr ≠ svcClass) :
      Effect img a c trap a
  | yielded (call : trap.syscall = some .yield) : Effect img a c trap a
  | toldTid (call : trap.syscall = some .myTid) :
      Effect img a c trap (a.assign c (a.task c).tid)
  | toldParentTid (call : trap.syscall = some .myParentTid) :
      Effect img a c trap (a.assign c (a.task c).parentTid)
  | created {t : TaskPtr} {free : List TaskPtr} {block : BlockPtr} {used : BlockPtr → Bool}
      (call : trap.syscall = some .create) (hfree : a.free = t :: free)
      (alloc : memoryAllocateBlock a.memoryBlocksUsed = (some block, used))
      (room : a.jobq.length < maxTaskNum)
      (push : (a.addTask img (toInt32 ((a.task c).x 0)) ((a.task c).x 1) (a.task c).tid t free
        block used).Pushable t) :
      Effect img a c trap (((a.addTask img (toInt32 ((a.task c).x 0)) ((a.task c).x 1)
        (a.task c).tid t free block used).makeReady t).assign c a.taskIdCnt)
  | createFailed (call : trap.syscall = some .create) (hfree : a.free = []) :
      Effect img a c trap (a.assign c (-1))
  | exited {block : BlockPtr} (call : trap.syscall = some .exit) (live : c ∈ a.jobq)
      (hblock : (a.task c).memoryBlock = some block) : Effect img a c trap (a.removed img c block)
  | sendNoTask (call : trap.syscall = some .send)
      (lookup : a.getTaskByTid (toInt32 ((a.task c).x 0)) = none) :
      Effect img a c trap (a.assign c (-1))
  /-- The receiver was waiting. -/
  | sendDirect {r : TaskPtr} (call : trap.syscall = some .send)
      (lookup : a.getTaskByTid (toInt32 ((a.task c).x 0)) = some r)
      (state : (a.task r).state = .waitreceive) (push : a.Pushable r) :
      Effect img a c trap ((((a.setMem (a.delivered c r)).assign r (a.deliveredLen c r)).makeReady
        r).setState c .watireply)
  /-- The receiver was not waiting and its ring had room. -/
  | sendQueued {r : TaskPtr} (call : trap.syscall = some .send)
      (lookup : a.getTaskByTid (toInt32 ((a.task c).x 0)) = some r)
      (state : (a.task r).state ≠ .waitreceive)
      (room : (registerSender (a.task r) (a.task c).tid).1 = true) :
      Effect img a c trap
        ((a.modify r fun _ => (registerSender (a.task r) (a.task c).tid).2).setState c .watisend)
  | sendFull {r : TaskPtr} (call : trap.syscall = some .send)
      (lookup : a.getTaskByTid (toInt32 ((a.task c).x 0)) = some r)
      (state : (a.task r).state ≠ .waitreceive)
      (full : (registerSender (a.task r) (a.task c).tid).1 = false) :
      Effect img a c trap (a.assign c (-2))
  | receiveBlocked (call : trap.syscall = some .receive)
      (empty : queueIsEmpty (a.task c).senders = true) :
      Effect img a c trap (a.setState c .waitreceive)
  | receiveVanished (call : trap.syscall = some .receive)
      (nonempty : queueIsEmpty (a.task c).senders = false)
      (lookup : a.getTaskByTid (nextSender (a.task c)).1 = none) :
      Effect img a c trap
        ((a.modify c fun _ => (nextSender (a.task c)).2).assign c (-1))
  /-- A queued sender was picked up. -/
  | received {s : TaskPtr} (call : trap.syscall = some .receive)
      (nonempty : queueIsEmpty (a.task c).senders = false)
      (lookup : a.getTaskByTid (nextSender (a.task c)).1 = some s)
      (state : (a.task s).state ≠ .watireply) :
      Effect img a c trap ((((a.modify c fun _ => (nextSender (a.task c)).2).setMem
        (a.delivered s c)).assign c (a.deliveredLen s c)).setState s .watireply)
  | replyNoTask (call : trap.syscall = some .reply)
      (lookup : a.getTaskByTid (toInt32 ((a.task c).x 0)) = none) :
      Effect img a c trap (a.assign c (-1))
  | replied {s : TaskPtr} (call : trap.syscall = some .reply)
      (lookup : a.getTaskByTid (toInt32 ((a.task c).x 0)) = some s)
      (state : (a.task s).state ≠ .running) (push : a.Pushable s) :
      Effect img a c trap ((((a.setMem (a.repliedMem c s)).assign s (a.repliedLen c s)).makeReady
        s).assign c (a.repliedLen c s))
  /-- Only the caller itself can be running. -/
  | repliedRunning {s : TaskPtr} (call : trap.syscall = some .reply)
      (lookup : a.getTaskByTid (toInt32 ((a.task c).x 0)) = some s)
      (state : (a.task s).state = .running) :
      Effect img a c trap (((a.setMem (a.repliedMem c s)).assign s (a.repliedLen c s)).assign
        c (a.repliedLen c s))
  | awaited {i : Fin numInterrupt} (call : trap.syscall = some .awaitEvent)
      (valid : (i : ℤ) = toInt32 ((a.task c).x 0) ∧ (i : ℤ) < 1022) (prio : (a.task c).PrioOk)
      (room : entries (cells a.irqq) < maxTaskNum) :
      Effect img a c trap { a.setState c .awatievent with
        irqq := Function.update a.irqq i (pushAt (a.irqq i) (a.task c).prio c) }
  /-- Timer 1, and no task waits for it. -/
  | tickIdle {chi clo : U32} {clocks : Clocks} (cause : trap.cause = .irq waitTimer1 chi clo)
      (tick : sysClockNotifyTick a.clocks 1 chi clo = .ok clocks)
      (idle : ∀ p, a.irqq timer1 p = []) : Effect img a c trap { a with clocks := clocks }
  /-- Timer 1 wakes the first waiter of the highest priority. -/
  | tickWoke {chi clo : U32} {clocks : Clocks} {t : TaskPtr}
      {q : Fin taskPriorityMax → List TaskPtr} (cause : trap.cause = .irq waitTimer1 chi clo)
      (tick : sysClockNotifyTick a.clocks 1 chi clo = .ok clocks)
      (pop : popHighest (a.irqq timer1) = some (t, q))
      (state : (a.task t).state = .awatievent) (push : a.Pushable t) :
      Effect img a c trap
        ({ a with clocks := clocks, irqq := Function.update a.irqq timer1 q }.makeReady t)

/-! ### The handlers have no other outcomes -/

theorem createTask_eq_ok {img : Image} {a a' : AbsKernel} {priority parentTid : ℤ} {func : U64}
    {o : Option TaskPtr} :
    a.createTask img priority func parentTid = .ok (o, a') ↔
      (a.free = [] ∧ o = none ∧ a' = a) ∨
      ∃ t free block used, a.free = t :: free ∧
        memoryAllocateBlock a.memoryBlocksUsed = (some block, used) ∧
        a.jobq.length < maxTaskNum ∧
        (a.addTask img priority func parentTid t free block used).Pushable t ∧ o = some t ∧
        a' = (a.addTask img priority func parentTid t free block used).makeReady t := by
  unfold createTask
  cases hfree : a.free with
  | nil =>
    simp only [Except.ok.injEq, Prod.mk.injEq, reduceCtorEq, false_and, exists_false, or_false,
      true_and]
    constructor
    · rintro ⟨rfl, rfl⟩
      exact ⟨rfl, rfl⟩
    · rintro ⟨rfl, rfl⟩
      exact ⟨rfl, rfl⟩
  | cons t free =>
    rcases hb : memoryAllocateBlock a.memoryBlocksUsed with ⟨block, used⟩
    simp only [reduceCtorEq, false_and, false_or, List.cons.injEq, Prod.mk.injEq, bind_eq_ok,
      deref_eq_ok]
    constructor
    · rintro ⟨b, rfl, h⟩
      split at h
      · rename_i hroom
        obtain ⟨a₁, h₁, h₂⟩ := bind_eq_ok.mp h
        obtain ⟨hp, rfl⟩ := changeTaskState_ready.mp h₁
        cases h₂
        exact ⟨t, free, b, used, ⟨rfl, rfl⟩, ⟨rfl, rfl⟩, hroom, hp, rfl, rfl⟩
      · cases h
    · rintro ⟨t', free', b, used', ⟨rfl, rfl⟩, ⟨rfl, rfl⟩, hroom, hp, rfl, rfl⟩
      refine ⟨b, rfl, ?_⟩
      rw [if_pos hroom, bind_eq_ok]
      exact ⟨_, changeTaskState_ready.mpr ⟨hp, rfl⟩, rfl⟩

section Handlers

variable {img : Image} {a a' : AbsKernel} {c : TaskPtr} {trap : Trap}

theorem sysCreate_effect (hc : a.currentTask = some c) (call : trap.syscall = some .create)
    (h : a.sysCreate img = .ok a') : Effect img a c trap a' := by
  simp only [sysCreate, hc, deref, ok_bind, bind_eq_ok] at h
  obtain ⟨⟨o, a₁⟩, h₁, h₂⟩ := h
  rcases createTask_eq_ok.mp h₁ with ⟨hfree, rfl, rfl⟩ |
    ⟨t, free, block, used, hfree, halloc, hroom, hpush, rfl, rfl⟩
  · cases h₂
    exact .createFailed call hfree
  · cases h₂
    have htid : (((a.addTask img (toInt32 ((a.task c).x 0)) ((a.task c).x 1) (a.task c).tid t free
        block used).makeReady t).task t).tid = a.taskIdCnt := by
      simp [setState, addTask, newTask]
    rw [htid]
    exact .created call hfree halloc hroom hpush

theorem removeCurrentTask_effect (hc : a.currentTask = some c)
    (call : trap.syscall = some .exit) (h : a.removeCurrentTask img = .ok a') :
    Effect img a c trap a' := by
  simp only [removeCurrentTask, hc, deref, ok_bind] at h
  split at h
  · rename_i hlive
    obtain ⟨block, hb, h⟩ := bind_eq_ok.mp h
    cases h
    exact .exited call hlive (deref_eq_ok.mp hb)
  · cases h

theorem synchronizedSendReceive_eq_ok {msgFrom msgTo : U64} {lenFrom lenTo len : ℤ}
    {r : TaskPtr} :
    a.synchronizedSendReceive msgFrom lenFrom r msgTo lenTo = .ok (len, a') ↔
      len = actualLen lenFrom lenTo ∧
      (((a.task r).state ≠ .running ∧ a.Pushable r ∧
          a' = (((a.setMem (copied a.mem msgFrom lenFrom msgTo lenTo)).assign r
            (actualLen lenFrom lenTo)).makeReady r)) ∨
        ((a.task r).state = .running ∧
          a' = ((a.setMem (copied a.mem msgFrom lenFrom msgTo lenTo)).assign r
            (actualLen lenFrom lenTo)))) := by
  have hstate : (((a.setMem (copied a.mem msgFrom lenFrom msgTo lenTo)).assign r
      (actualLen lenFrom lenTo)).task r).state = (a.task r).state := by
    simp [assign, assignResult]
  have hpush : ((a.setMem (copied a.mem msgFrom lenFrom msgTo lenTo)).assign r
      (actualLen lenFrom lenTo)).Pushable r ↔ a.Pushable r := by
    constructor
    · rintro ⟨h₁, h₂, h₃⟩
      exact ⟨by rwa [hstate] at h₁, by simpa [assign, assignResult, Task.PrioOk] using h₂, h₃⟩
    · rintro ⟨h₁, h₂, h₃⟩
      exact ⟨by rwa [hstate], by simpa [assign, assignResult, Task.PrioOk] using h₂, h₃⟩
  unfold synchronizedSendReceive copyMessage
  simp only [bind_eq_ok, Except.ok.injEq, Prod.mk.injEq]
  by_cases hr : (a.task r).state = .running
  · have hr' : ¬ (((a.setMem (copied a.mem msgFrom lenFrom msgTo lenTo)).assign r
        (actualLen lenFrom lenTo)).task r).state ≠ .running := by
      rw [hstate]
      exact not_not.mpr hr
    simp only [hr, ne_eq, not_true_eq_false, false_and, false_or, true_and]
    constructor
    · rintro ⟨a₁, h₁, rfl, rfl⟩
      have h₁' := (if_neg hr').symm.trans h₁
      cases h₁'
      exact ⟨rfl, rfl⟩
    · rintro ⟨rfl, rfl⟩
      exact ⟨_, if_neg hr', rfl, rfl⟩
  · have hr' : (((a.setMem (copied a.mem msgFrom lenFrom msgTo lenTo)).assign r
        (actualLen lenFrom lenTo)).task r).state ≠ .running := by
      rw [hstate]
      exact hr
    simp only [hr, ne_eq, not_false_eq_true, false_and, or_false, true_and]
    constructor
    · rintro ⟨a₁, h₁, rfl, rfl⟩
      have h₁' := (if_pos hr').symm.trans h₁
      obtain ⟨hp, rfl⟩ := changeTaskState_ready.mp h₁'
      exact ⟨rfl, hpush.mp hp, rfl⟩
    · rintro ⟨rfl, hp, rfl⟩
      exact ⟨_, (if_pos hr').trans (changeTaskState_ready.mpr ⟨hpush.mpr hp, rfl⟩), rfl, rfl⟩

theorem sysSend_effect (hc : a.currentTask = some c) (call : trap.syscall = some .send)
    (h : a.sysSend = .ok a') : Effect img a c trap a' := by
  simp only [sysSend, hc, deref, ok_bind] at h
  cases hl : a.getTaskByTid (toInt32 (getSendArgs (a.task c)).tid) with
  | none =>
    simp only [hl] at h
    cases h
    exact .sendNoTask call hl
  | some r =>
    simp only [hl] at h
    by_cases hr : (a.task r).state = .waitreceive
    · rw [if_pos hr] at h
      obtain ⟨⟨len, a₁⟩, h₁, h₂⟩ := bind_eq_ok.mp h
      obtain ⟨-, ⟨-, hp, rfl⟩ | ⟨hrun', -⟩⟩ := synchronizedSendReceive_eq_ok.mp h₁
      · obtain ⟨-, rfl⟩ := (changeTaskState_blocked rfl).mp h₂
        exact .sendDirect call hl hr ⟨hp.state, hp.prio, hp.room⟩
      · rw [setMem_task, hr] at hrun'
        cases hrun'
    · rw [if_neg hr] at h
      split at h
      · rename_i hroom
        obtain ⟨-, rfl⟩ := (changeTaskState_blocked rfl).mp h
        exact .sendQueued call hl hr hroom
      · rename_i hfull
        cases h
        exact .sendFull call hl hr (by simpa using hfull)

/-- `next_sender` changes nothing that a lookup or a copy reads. -/
theorem task_nextSender (a : AbsKernel) (c t : TaskPtr) :
    ((a.modify c fun _ => (nextSender (a.task c)).2).task t).tid = (a.task t).tid ∧
      ((a.modify c fun _ => (nextSender (a.task c)).2).task t).x = (a.task t).x ∧
      ((a.modify c fun _ => (nextSender (a.task c)).2).task t).state = (a.task t).state := by
  by_cases ht : t = c
  · subst ht
    exact ⟨by simp [nextSender], by simp [nextSender], by simp [nextSender]⟩
  · simp [ht]

theorem getTaskByTid_nextSender (a : AbsKernel) (c : TaskPtr) (tid : ℤ) :
    (a.modify c fun _ => (nextSender (a.task c)).2).getTaskByTid tid = a.getTaskByTid tid := by
  unfold getTaskByTid
  simp only [(task_nextSender a c _).1, modify_jobq]

theorem sysReceive_effect (hc : a.currentTask = some c) (hrun : (a.task c).state = .running)
    (call : trap.syscall = some .receive) (h : a.sysReceive = .ok a') :
    Effect img a c trap a' := by
  simp only [sysReceive, hc, deref, ok_bind] at h
  have htid := task_nextSender a c
  by_cases hq : queueIsEmpty (a.task c).senders = true
  · rw [if_pos hq] at h
    obtain ⟨-, rfl⟩ := (changeTaskState_blocked rfl).mp h
    exact .receiveBlocked call hq
  · have hq' : queueIsEmpty (a.task c).senders = false := by simpa using hq
    rw [if_neg hq] at h
    rw [getTaskByTid_nextSender] at h
    cases hl : a.getTaskByTid (nextSender (a.task c)).1 with
    | none =>
      simp only [hl] at h
      cases h
      exact .receiveVanished call hq' hl
    | some s =>
      simp only [hl] at h
      obtain ⟨⟨len, a₁⟩, h₁, h₂⟩ := bind_eq_ok.mp h
      obtain ⟨-, ⟨hne, -, -⟩ | ⟨-, rfl⟩⟩ := synchronizedSendReceive_eq_ok.mp h₁
      · rw [setMem_task, (htid c).2.2] at hne
        exact absurd hrun hne
      · obtain ⟨hs, rfl⟩ := (changeTaskState_blocked rfl).mp h₂
        have hstate : (a.task s).state ≠ .watireply := by
          rw [← (htid s).2.2]
          by_cases hsc : s = c
          · subst hsc
            simp [nextSender, hrun]
          · simpa [assign, hsc] using hs
        have heff : Effect img a c trap _ := Effect.received call hq' hl hstate
        convert heff using 2
        simp only [delivered, deliveredLen, setMem_mem, getSendArgs, getReceiveArgs, htid s]
        rfl

theorem sysReply_effect (hc : a.currentTask = some c) (call : trap.syscall = some .reply)
    (h : a.sysReply = .ok a') : Effect img a c trap a' := by
  simp only [sysReply, hc, deref, ok_bind] at h
  cases hl : a.getTaskByTid (toInt32 (getReplyArgs (a.task c)).tid) with
  | none =>
    simp only [hl] at h
    cases h
    exact .replyNoTask call hl
  | some s =>
    simp only [hl] at h
    obtain ⟨⟨len, a₁⟩, h₁, h₂⟩ := bind_eq_ok.mp h
    cases h₂
    obtain ⟨rfl, ⟨hs, hp, rfl⟩ | ⟨hs, rfl⟩⟩ := synchronizedSendReceive_eq_ok.mp h₁
    · exact .replied call hl hs hp
    · exact .repliedRunning call hl hs

theorem sysAwaitEvent_effect (hc : a.currentTask = some c)
    (call : trap.syscall = some .awaitEvent) (h : a.sysAwaitEvent = .ok a') :
    Effect img a c trap a' := by
  simp only [sysAwaitEvent, hc, deref, ok_bind] at h
  obtain ⟨a₁, h₁, h₂⟩ := bind_eq_ok.mp h
  obtain ⟨-, rfl⟩ := (changeTaskState_blocked rfl).mp h₁
  unfold addToIrqQueue at h₂
  split at h₂
  · rename_i hid
    obtain ⟨q, hq, h₂⟩ := bind_eq_ok.mp h₂
    cases h₂
    obtain ⟨hp, hroom, rfl⟩ := pushQueues_eq_ok.mp hq
    have hx : ((a.setState c .awatievent).task c).x = (a.task c).x := by simp [setState]
    have hprio : ((a.setState c .awatievent).task c).prio = (a.task c).prio := by
      simp [setState, Task.prio]
    have hid' : 0 ≤ toInt32 ((a.task c).x 0) ∧ toInt32 ((a.task c).x 0) < 1022 := hx ▸ hid
    let i : Fin numInterrupt := ⟨(toInt32 ((a.task c).x 0)).toNat, toNat_lt_numInterrupt hid'⟩
    have hi : (i : ℤ) = toInt32 ((a.task c).x 0) := Int.toNat_of_nonneg hid'.1
    have heff : Effect img a c trap _ := Effect.awaited (i := i) call
      ⟨hi, hi ▸ hid'.2⟩ (by simpa [setState, Task.PrioOk] using hp) hroom
    simp only [hx, hprio]
    exact heff
  · cases h₂

/-- `wake_up_irq_blocked_tasks` passes its assertion on a valid id. -/
theorem wakeUpIrqBlockedTasks_eq (a : AbsKernel) {i : Fin numInterrupt} (hi : i.val < 1022) :
    a.wakeUpIrqBlockedTasks i.val =
      (if ∀ p, a.irqq i p = [] then .ok a
      else popQueues a.irqq i >>= fun r =>
        if (a.task r.1).state = .awatievent then
          changeTaskState { a with irqq := r.2 } r.1 .ready
        else .error .wakeUpState) := by
  unfold wakeUpIrqBlockedTasks
  rw [dif_pos (by omega)]
  rfl

/-- The same for `WAIT_TIMER_1`. -/
theorem wakeUpIrqBlockedTasks_timer1 (a : AbsKernel) :
    a.wakeUpIrqBlockedTasks waitTimer1 =
      (if ∀ p, a.irqq timer1 p = [] then .ok a
      else popQueues a.irqq timer1 >>= fun r =>
        if (a.task r.1).state = .awatievent then
          changeTaskState { a with irqq := r.2 } r.1 .ready
        else .error .wakeUpState) :=
  wakeUpIrqBlockedTasks_eq (i := timer1) a (by decide)

theorem handleIrq_effect {intid : ℕ} {chi clo : U32} (cause : trap.cause = .irq intid chi clo)
    (h : a.handleIrq intid chi clo = .ok a') : Effect img a c trap a' := by
  unfold handleIrq at h
  split at h
  · rename_i hid
    subst hid
    obtain ⟨clocks, htick, h⟩ := bind_eq_ok.mp h
    rw [wakeUpIrqBlockedTasks_timer1] at h
    split at h
    · rename_i hidle
      cases h
      exact .tickIdle cause htick hidle
    · obtain ⟨⟨t, qs⟩, hpop, h⟩ := bind_eq_ok.mp h
      obtain ⟨q, hq, rfl⟩ := popQueues_eq_ok.mp hpop
      simp only at h
      split at h
      · rename_i hstate
        obtain ⟨hp, rfl⟩ := changeTaskState_ready.mp h
        exact .tickWoke cause htick hq hstate ⟨hp.state, hp.prio, hp.room⟩
      · cases h
  · cases h

/-- **The outcomes of the handlers.**  With `c` the current, running task, a handler that
returns leaves a state that `Effect` lists. -/
theorem handle_effect (hc : a.currentTask = some c) (hrun : (a.task c).state = .running)
    (h : a.handleCurrentException img trap = .ok a') : Effect img a c trap a' := by
  unfold handleCurrentException at h
  cases hcause : trap.cause with
  | irq intid chi clo =>
    simp only [hcause] at h
    exact handleIrq_effect hcause h
  | sync esr =>
    simp only [hcause, handleSynchronousException] at h
    split at h
    · rename_i hcls
      obtain ⟨call, hcode, h⟩ := bind_eq_ok.mp h
      have hcall : trap.syscall = some call := by
        simp only [Trap.syscall, hcause]
        rw [if_pos hcls]
        exact deref_eq_ok.mp hcode
      cases call with
      | create => exact sysCreate_effect hc hcall h
      | yield =>
        cases h
        exact .yielded hcall
      | exit => exact removeCurrentTask_effect hc hcall h
      | myTid =>
        simp only [synchronousExceptionHandlers, sysTid, hc, deref, ok_bind] at h
        cases h
        exact .toldTid hcall
      | myParentTid =>
        simp only [synchronousExceptionHandlers, sysParentTid, hc, deref, ok_bind] at h
        cases h
        exact .toldParentTid hcall
      | send => exact sysSend_effect hc hcall h
      | receive => exact sysReceive_effect hc hrun hcall h
      | reply => exact sysReply_effect hc hcall h
      | awaitEvent => exact sysAwaitEvent_effect hc hcall h
    · rename_i hcls
      cases h
      exact .ignored hcause hcls

/-! ### Every listed outcome happens -/

theorem handle_syscall {call : Syscall} (h : trap.syscall = some call) :
    a.handleCurrentException img trap = synchronousExceptionHandlers img call a := by
  unfold Trap.syscall at h
  unfold handleCurrentException
  cases hcause : trap.cause with
  | irq intid chi clo => simp [hcause] at h
  | sync esr =>
    simp only [hcause] at h
    split at h
    · rename_i hcls
      simp only [handleSynchronousException, if_pos hcls, h, deref, ok_bind]
    · cases h

/-- The guards of an outcome are all that the handler checks. -/
theorem effect_handle (hc : a.currentTask = some c) (hrun : (a.task c).state = .running)
    (h : Effect img a c trap a') : a.handleCurrentException img trap = .ok a' := by
  cases h with
  | ignored cause cls =>
    simp [handleCurrentException, cause, handleSynchronousException, cls]
  | yielded call => rw [handle_syscall call]; rfl
  | toldTid call =>
    simp [handle_syscall call, synchronousExceptionHandlers, sysTid, hc, deref, assign, modify,
      Core.modify]
  | toldParentTid call =>
    simp [handle_syscall call, synchronousExceptionHandlers, sysParentTid, hc, deref, assign,
      modify, Core.modify]
  | @created t free block used call hfree alloc room push =>
    rw [handle_syscall call]
    simp only [synchronousExceptionHandlers, sysCreate, hc, deref, ok_bind, bind_eq_ok]
    refine ⟨(some t, _), createTask_eq_ok.mpr (Or.inr ⟨t, free, block, used, hfree, alloc, room,
      push, rfl, rfl⟩), ?_⟩
    simp [setState, addTask, newTask, assign]
  | createFailed call hfree =>
    rw [handle_syscall call]
    simp only [synchronousExceptionHandlers, sysCreate, hc, deref, ok_bind, bind_eq_ok]
    exact ⟨(none, _), createTask_eq_ok.mpr (Or.inl ⟨hfree, rfl, rfl⟩), rfl⟩
  | exited call live hblock =>
    rw [handle_syscall call]
    simp only [synchronousExceptionHandlers, removeCurrentTask, hc, deref, ok_bind, if_pos live,
      hblock]
    rfl
  | sendNoTask call lookup =>
    rw [handle_syscall call]
    simp only [synchronousExceptionHandlers, sysSend, hc, deref, ok_bind, getSendArgs, lookup]
    rfl
  | @sendDirect r call lookup state push =>
    have hcr : c ≠ r := by
      rintro rfl
      rw [hrun] at state
      cases state
    rw [handle_syscall call]
    simp only [synchronousExceptionHandlers, sysSend, hc, deref, ok_bind, getSendArgs, lookup,
      if_pos state, bind_eq_ok]
    refine ⟨(a.deliveredLen c r, _), synchronizedSendReceive_eq_ok.mpr
      ⟨rfl, Or.inl ⟨by simp [state], ⟨push.state, push.prio, push.room⟩, rfl⟩⟩, ?_⟩
    refine (changeTaskState_blocked rfl).mpr ⟨?_, rfl⟩
    simp [setState, assign, hcr, hrun]
  | @sendQueued r call lookup state room =>
    rw [handle_syscall call]
    simp only [synchronousExceptionHandlers, sysSend, hc, deref, ok_bind, getSendArgs, lookup,
      if_neg state, if_pos room]
    refine (changeTaskState_blocked rfl).mpr ⟨?_, rfl⟩
    by_cases hcr : c = r
    · subst hcr
      simp [registerSender, hrun]
    · simp [hcr, hrun]
  | sendFull call lookup state full =>
    rw [handle_syscall call]
    simp only [synchronousExceptionHandlers, sysSend, hc, deref, ok_bind, getSendArgs, lookup,
      if_neg state, full]
    rfl
  | receiveBlocked call empty =>
    rw [handle_syscall call]
    simp only [synchronousExceptionHandlers, sysReceive, hc, deref, ok_bind, if_pos empty]
    exact (changeTaskState_blocked rfl).mpr ⟨by simp [hrun], rfl⟩
  | receiveVanished call nonempty lookup =>
    rw [handle_syscall call]
    simp only [synchronousExceptionHandlers, sysReceive, hc, deref, ok_bind, nonempty,
      getTaskByTid_nextSender, lookup]
    rfl
  | @received s call nonempty lookup state =>
    rw [handle_syscall call]
    simp only [synchronousExceptionHandlers, sysReceive, hc, deref, ok_bind, nonempty,
      getTaskByTid_nextSender, lookup, Bool.false_eq_true, if_false, bind_eq_ok]
    have hx := task_nextSender a c s
    refine ⟨(a.deliveredLen s c, _), synchronizedSendReceive_eq_ok.mpr
      ⟨?_, Or.inr ⟨by simp [nextSender, hrun], rfl⟩⟩, ?_⟩
    · simp only [deliveredLen, getSendArgs, getReceiveArgs, hx]
    · refine (changeTaskState_blocked rfl).mpr ⟨?_, ?_⟩
      · by_cases hsc : s = c
        · subst hsc
          simp [assign, assignResult, nextSender, hrun]
        · simpa [assign, hsc] using state
      · simp only [delivered, deliveredLen, setMem_mem, getSendArgs, getReceiveArgs, hx]
        rfl
  | replyNoTask call lookup =>
    rw [handle_syscall call]
    simp only [synchronousExceptionHandlers, sysReply, hc, deref, ok_bind, getReplyArgs, lookup]
    rfl
  | @replied s call lookup state push =>
    rw [handle_syscall call]
    simp only [synchronousExceptionHandlers, sysReply, hc, deref, ok_bind, getReplyArgs, lookup,
      bind_eq_ok]
    exact ⟨(a.repliedLen c s, _), synchronizedSendReceive_eq_ok.mpr
      ⟨rfl, Or.inl ⟨state, push, rfl⟩⟩, rfl⟩
  | @repliedRunning s call lookup state =>
    rw [handle_syscall call]
    simp only [synchronousExceptionHandlers, sysReply, hc, deref, ok_bind, getReplyArgs, lookup,
      bind_eq_ok]
    exact ⟨(a.repliedLen c s, _), synchronizedSendReceive_eq_ok.mpr
      ⟨rfl, Or.inr ⟨state, rfl⟩⟩, rfl⟩
  | @awaited i call valid prio room =>
    have hx : ((a.setState c .awatievent).task c).x = (a.task c).x := by simp [setState]
    have hprio : ((a.setState c .awatievent).task c).prio = (a.task c).prio := by
      simp [setState, Task.prio]
    have hid : 0 ≤ toInt32 (((a.setState c .awatievent).task c).x 0) ∧
        toInt32 (((a.setState c .awatievent).task c).x 0) < 1022 := by
      rw [hx, ← valid.1]
      exact ⟨Int.natCast_nonneg _, valid.2⟩
    have hi : (⟨(toInt32 (((a.setState c .awatievent).task c).x 0)).toNat,
        toNat_lt_numInterrupt hid⟩ : Fin numInterrupt) = i := by
      ext
      simp only [hx, ← valid.1]
      omega
    rw [handle_syscall call]
    simp only [synchronousExceptionHandlers, sysAwaitEvent, hc, deref, ok_bind, bind_eq_ok]
    refine ⟨_, (changeTaskState_blocked rfl).mpr ⟨by simp [hrun], rfl⟩, ?_⟩
    unfold addToIrqQueue
    rw [dif_pos hid, hi, bind_eq_ok]
    refine ⟨_, pushQueues_eq_ok.mpr ⟨by simpa [setState, Task.PrioOk] using prio, room, rfl⟩, ?_⟩
    rw [hprio]
    rfl
  | tickIdle cause tick idle =>
    simp only [handleCurrentException, cause, handleIrq, if_true, tick, ok_bind,
      wakeUpIrqBlockedTasks_timer1]
    rw [if_pos idle]
  | @tickWoke chi clo clocks t q cause tick pop state push =>
    have hne : ¬ ∀ p, a.irqq timer1 p = [] := fun hnil => by
      rw [popHighest_eq_none.mpr hnil] at pop
      cases pop
    simp only [handleCurrentException, cause, handleIrq, if_true, tick, ok_bind,
      wakeUpIrqBlockedTasks_timer1]
    rw [if_neg hne, bind_eq_ok]
    refine ⟨_, popQueues_eq_ok.mpr ⟨q, pop, rfl⟩, ?_⟩
    rw [if_pos state]
    exact changeTaskState_ready.mpr ⟨⟨push.state, push.prio, push.room⟩, rfl⟩

end Handlers

end AbsKernel

end RealtimeKernel
