import RealtimeKernel.JobQueue

/-!
# The kernel refines the kernel without pointers

`Rep k a` relates a kernel state to the lists it represents.  Every function of the scheduler,
of message passing and of the handlers refines its counterpart: from related states both stop
for the same reason, or both return and the results are related again.  `kernel_refines` lifts
this to the loop of `kmain`, so what is shown about runs of `AbsKernel.loop` holds of the runs of
the kernel.
-/

namespace RealtimeKernel

open Lib

@[simp] theorem Task.erase_state (t : Task) : t.erase.state = t.state := rfl

/-- The static variables with all descriptors erased. -/
def Core.erase (c : Core) : Core := { c with task := fun t => (c.task t).erase }

/-- The lists that the kernel's pointers stand for. -/
structure Rep (k : Kernel) (a : AbsKernel) : Prop where
  core : a.toCore = k.toCore.erase
  free : Seg (fun t => (k.task t).next) k.taskPoolPtr a.free none
  free_nodup : a.free.Nodup
  free_jobq : ∀ t ∈ a.free, t ∉ a.jobq
  jobs : JobsRep k.jobqPool k.jobq (fun t => (k.task t).jobNode) a.jobq
  ready : QueuesRep k.readyqPool (fun _ : Unit => k.readyq) (fun _ => a.readyq)
  irq : QueuesRep k.irqqPool k.irqq a.irqq

/-- Two results of a function with a state are related. -/
def RepWith {α : Type} (r : α × Kernel) (s : α × AbsKernel) : Prop := r.1 = s.1 ∧ Rep r.2 s.2

theorem refines_deref {α : Type} (o : Option α) :
    Refines (fun a b => a = b) (deref o) (deref o) := by
  cases o <;> simp [deref]

namespace Rep

variable {k : Kernel} {a : AbsKernel}

theorem task_eq (h : Rep k a) (t : TaskPtr) : a.task t = (k.task t).erase := by
  rw [h.core]
  rfl

theorem currentTask_eq (h : Rep k a) : a.currentTask = k.currentTask := by
  rw [h.core]
  rfl

theorem mem_eq (h : Rep k a) : a.mem = k.mem := by
  rw [h.core]
  rfl

theorem clocks_eq (h : Rep k a) : a.clocks = k.clocks := by
  rw [h.core]
  rfl

/-- Writing fields of one descriptor other than its two pointers. -/
theorem modify (h : Rep k a) (t : TaskPtr) {f g : Task → Task}
    (hfg : (f (k.task t)).erase = g (k.task t).erase)
    (hnode : (f (k.task t)).jobNode = (k.task t).jobNode)
    (hnext : (f (k.task t)).next = (k.task t).next) : Rep (k.modify t f) (a.modify t g) where
  core := by
    have htask : ∀ u, Function.update a.task t (g (a.task t)) u
        = (Function.update k.task t (f (k.task t)) u).erase := fun u => by
      by_cases hu : u = t
      · subst hu
        simp [h.task_eq, hfg]
      · simp [hu, h.task_eq]
    simp only [AbsKernel.modify, Kernel.modify, Core.modify, Core.erase, h.core] at htask ⊢
    congr 1
    funext u
    exact htask u
  free := h.free.congr fun u _ => by
    by_cases hu : u = t
    · subst hu
      simp [Kernel.modify, Core.modify, hnext]
    · simp [Kernel.modify, Core.modify, hu]
  free_nodup := h.free_nodup
  free_jobq := h.free_jobq
  jobs := h.jobs.congr fun u => by
    by_cases hu : u = t
    · subst hu
      simp [Kernel.modify, Core.modify, hnode]
    · simp [Kernel.modify, Core.modify, hu]
  ready := h.ready
  irq := h.irq

/-- Writing static variables other than the descriptors. -/
theorem setCore (h : Rep k a) {c d : Core} (hc : c.task = k.task) (hd : d = c.erase) :
    Rep { k with toCore := c } { a with toCore := d } where
  core := hd
  free := by
    simp only [hc]
    exact h.free
  free_nodup := h.free_nodup
  free_jobq := h.free_jobq
  jobs := by
    simp only [hc]
    exact h.jobs
  ready := h.ready
  irq := h.irq

theorem setMem (h : Rep k a) (mem : Mem) : Rep { k with mem := mem } (a.setMem mem) :=
  h.setCore (c := { k.toCore with mem := mem }) rfl (by rw [h.core]; rfl)

/-! ### The scheduler -/

theorem pushReady (h : Rep k a) (t : TaskPtr) :
    Refines Rep (do
        let (pool, readyq) ← ptaskQueuePush k.readyqPool k.readyq t (k.task t).priority
        .ok { k with readyqPool := pool, readyq := readyq })
      (a.pushReady t) := by
  have hprio : (a.task t).priority = (k.task t).priority := by
    rw [h.task_eq]
    rfl
  rw [AbsKernel.pushReady, hprio]
  refine (h.ready.push_refines () t (k.task t).priority).bind fun r c hrc => ?_
  have hr : Function.update (fun _ : Unit => k.readyq) () r.2 = fun _ => r.2 := by
    funext u
    simp
  have hc : c = fun _ => c () := by
    funext u
    rfl
  rw [hr, hc] at hrc
  exact .ok ⟨h.core, h.free, h.free_nodup, h.free_jobq, h.jobs, hrc, h.irq⟩

theorem changeTaskState (h : Rep k a) (t : TaskPtr) (s : TaskState) :
    Refines Rep (RealtimeKernel.changeTaskState k t s) (a.changeTaskState t s) := by
  have hstate : (a.task t).state = (k.task t).state := by
    rw [h.task_eq]
    rfl
  unfold RealtimeKernel.changeTaskState AbsKernel.changeTaskState
  rw [hstate]
  by_cases hs : (k.task t).state = s
  · rw [if_pos hs, if_pos hs]
    simp
  · rw [if_neg hs, if_neg hs]
    refine Refines.bind (R := Rep) ?_ fun k' a' h' => .ok (h'.modify t rfl rfl rfl)
    cases s with
    | ready => exact h.pushReady t
    | running =>
      exact .ok (h.setCore (c := { k.toCore with currentTask := some t }) rfl
        (by rw [h.core]; rfl))
    | initialized => exact .ok h
    | watisend => exact .ok h
    | waitreceive => exact .ok h
    | watireply => exact .ok h
    | awatievent => exact .ok h

theorem createTask (img : Image) (h : Rep k a) (priority : ℤ) (func : U64) (parentTid : ℤ) :
    Refines RepWith (RealtimeKernel.createTask img k priority func parentTid)
      (a.createTask img priority func parentTid) := by
  have hstart := h.free.start_eq
  unfold RealtimeKernel.createTask AbsKernel.createTask
  cases hfree : a.free with
  | nil =>
    rw [hfree] at hstart
    rw [hstart]
    exact .ok ⟨rfl, h⟩
  | cons t free =>
    rw [hfree] at hstart
    simp only [hstart, List.head?_cons]
    have hused : a.memoryBlocksUsed = k.memoryBlocksUsed := by
      rw [h.core]
      rfl
    have hcnt : a.taskIdCnt = k.taskIdCnt := by
      rw [h.core]
      rfl
    rw [hused, hcnt]
    refine (refines_deref _).bind fun block block' hblock => ?_
    subst hblock
    have hseg : Seg (fun t => (k.task t).next) (k.task t).next free none := by
      have := h.free
      rw [hfree] at this
      exact this.2
    have hnd : t ∉ free ∧ free.Nodup := by
      have := h.free_nodup
      rwa [hfree, List.nodup_cons] at this
    have hjobq : t ∉ a.jobq := h.free_jobq t (by simp [hfree])
    have hnode : ∀ f : Task → Task, (f (k.task t)).jobNode = none →
        JobsRep k.jobqPool k.jobq
          (fun u => (Function.update k.task t (f (k.task t)) u).jobNode) a.jobq := by
      intro f hf
      refine h.jobs.congr fun u => ?_
      by_cases hu : u = t
      · subst hu
        obtain ⟨-, -, -, -, hnone⟩ := h.jobs
        simp [hf, hnone u hjobq]
      · simp [hu]
    split
    · rename_i hroom
      obtain ⟨pool', l', heq, hjobs⟩ := (hnode (newTask img k.taskIdCnt parentTid
        (i32Clamp priority taskPriorityMin (taskPriorityMax - 1)) block func) rfl).push_back
        hjobq hroom
      simp only [Kernel.modify, Core.modify] at heq ⊢
      rw [heq]
      simp only [ok_bind]
      refine Refines.bind (R := Rep) (changeTaskState ?_ t .ready) fun k' a' h' => .ok ⟨rfl, h'⟩
      refine ⟨?_, ?_, hnd.2, ?_, hjobs.congr fun u => ?_, h.ready, h.irq⟩
      · simp only [Core.erase, h.core]
        congr 1
        funext u
        by_cases hu : u = t
        · subst hu
          simp [newTask, Task.erase, taskInit]
        · simp [hu]
      · refine hseg.congr fun u hu => ?_
        have hut : u ≠ t := fun he => hnd.1 (he ▸ hu)
        simp [hut]
      · intro u hu hin
        rcases List.mem_append.mp hin with hin | hin
        · exact h.free_jobq u (by simp [hfree, hu]) hin
        · rw [List.mem_singleton] at hin
          exact hnd.1 (hin ▸ hu)
      · by_cases hu : u = t
        · subst hu
          simp
        · simp [hu]
    · rename_i hfull
      simp only [Kernel.modify, Core.modify]
      rw [h.jobs.push_back_full t hfull]
      simp

theorem removeCurrentTask (img : Image) (h : Rep k a) :
    Refines Rep (RealtimeKernel.removeCurrentTask img k) (a.removeCurrentTask img) := by
  unfold RealtimeKernel.removeCurrentTask AbsKernel.removeCurrentTask
  rw [h.currentTask_eq]
  refine (refines_deref _).bind fun t t' ht => ?_
  subst ht
  have hblock : (a.task t).memoryBlock = (k.task t).memoryBlock := by
    rw [h.task_eq]
    rfl
  by_cases hlive : t ∈ a.jobq
  · rw [if_pos hlive, hblock]
    obtain ⟨pool', l', heq, hjobs⟩ := h.jobs.remove hlive
    rw [heq]
    simp only [ok_bind]
    refine (refines_deref _).bind fun block block' hb => ?_
    subst hb
    have hfree : ∀ u ∈ a.free, u ≠ t := fun u hu he => h.free_jobq u hu (he ▸ hlive)
    refine .ok ⟨?_, ?_, h.free_nodup, ?_, hjobs.congr fun u => ?_, h.ready, h.irq⟩
    · simp only [AbsKernel.modify, Kernel.modify, Core.modify, Core.erase, h.core,
        memoryFreeBlock]
      congr 1
      funext u
      by_cases hu : u = t
      · subst hu
        simp [taskInit, Task.erase]
      · simp [hu]
    · refine h.free.congr fun u hu => ?_
      simp [Kernel.modify, Core.modify, memoryFreeBlock, hfree u hu]
    · exact fun u hu hin => h.free_jobq u hu (List.mem_of_mem_erase hin)
    · by_cases hu : u = t
      · subst hu
        simp [Kernel.modify, Core.modify, taskInit]
      · simp [Kernel.modify, Core.modify, memoryFreeBlock, hu]
  · rw [if_neg hlive]
    rw [h.jobs.remove_not_mem hlive]
    simp

theorem schedule (h : Rep k a) :
    Refines RepWith (RealtimeKernel.schedule k) a.schedule := by
  unfold RealtimeKernel.schedule AbsKernel.schedule AbsKernel.requeueCurrent
  refine Refines.bind (R := Rep) ?_ fun k' a' h' => ?_
  · rw [h.currentTask_eq]
    cases k.currentTask with
    | none => exact .ok h
    | some t =>
      have hstate : (a.task t).state = (k.task t).state := by
        rw [h.task_eq]
        rfl
      simp only [hstate]
      split
      · exact h.changeTaskState t .ready
      · split
        · exact .ok h
        · simp
  · have hempty : ptaskQueueEmpty k'.readyq = true ↔ ∀ p, a'.readyq p = [] :=
      h'.ready.isEmpty_iff ()
    by_cases hnil : ∀ p, a'.readyq p = []
    · rw [if_pos hnil, if_pos (hempty.mpr hnil)]
      exact .ok ⟨rfl, h'⟩
    · rw [if_neg hnil, if_neg (fun he => hnil (hempty.mp he))]
      unfold AbsKernel.popReady
      rw [bind_assoc]
      refine (h'.ready.pop_refines ()).bind fun r s hrs => ?_
      obtain ⟨hr, hq⟩ := hrs
      have hr2 : Function.update (fun _ : Unit => k'.readyq) () r.2.2 = fun _ => r.2.2 := by
        funext u
        simp
      rw [hr2] at hq
      exact .ok
        ⟨hr, h'.core, h'.free, h'.free_nodup, h'.free_jobq, h'.jobs, hq, h'.irq⟩

theorem wakeUpIrqBlockedTasks (h : Rep k a) (intid : ℤ) :
    Refines Rep (RealtimeKernel.wakeUpIrqBlockedTasks k intid)
      (a.wakeUpIrqBlockedTasks intid) := by
  unfold RealtimeKernel.wakeUpIrqBlockedTasks AbsKernel.wakeUpIrqBlockedTasks
  split
  · rename_i hid
    have hempty := h.irq.isEmpty_iff ⟨intid.toNat, toNat_lt_numInterrupt hid⟩
    by_cases hnil : ∀ p, a.irqq ⟨intid.toNat, toNat_lt_numInterrupt hid⟩ p = []
    · simp only [if_pos hnil, if_pos (hempty.mpr hnil)]
      exact .ok h
    · simp only [if_neg hnil, if_neg (fun he => hnil (hempty.mp he))]
      refine (h.irq.pop_refines _).bind fun r s hrs => ?_
      obtain ⟨hr, hq⟩ := hrs
      let irqq := Function.update k.irqq ⟨intid.toNat, toNat_lt_numInterrupt hid⟩ r.2.2
      have h' : Rep { k with irqqPool := r.2.1, irqq := irqq } { a with irqq := s.2 } :=
        ⟨h.core, h.free, h.free_nodup, h.free_jobq, h.jobs, h.ready, hq⟩
      simp only [hr, deref, ok_bind]
      have hstate : (a.task s.1).state = (k.task s.1).state := by
        rw [h.task_eq]
        rfl
      rw [hstate]
      split
      · exact h'.changeTaskState s.1 .ready
      · simp
  · simp

theorem addToIrqQueue (h : Rep k a) (intid : ℤ) (t : TaskPtr) :
    Refines Rep (RealtimeKernel.addToIrqQueue k intid t) (a.addToIrqQueue intid t) := by
  unfold RealtimeKernel.addToIrqQueue AbsKernel.addToIrqQueue
  have hprio : (a.task t).priority = (k.task t).priority := by
    rw [h.task_eq]
    rfl
  rw [hprio]
  split
  · refine (h.irq.push_refines _ t (k.task t).priority).bind fun r c hrc => ?_
    exact .ok ⟨h.core, h.free, h.free_nodup, h.free_jobq, h.jobs, h.ready, hrc⟩
  · simp

theorem getTaskByTid_eq (h : Rep k a) (tid : ℤ) :
    RealtimeKernel.getTaskByTid k tid = .ok (a.getTaskByTid tid) := by
  unfold RealtimeKernel.getTaskByTid AbsKernel.getTaskByTid
  rw [h.jobs.findTask_eq]
  congr 2
  funext t
  rw [h.task_eq]
  rfl

/-! ### Message passing -/

theorem synchronizedSendReceive (h : Rep k a) (msgFrom : U64) (lenMsgFrom : ℤ)
    (receiver : TaskPtr) (msgTo : U64) (lenMsgTo : ℤ) :
    Refines RepWith
      (RealtimeKernel.synchronizedSendReceive k msgFrom lenMsgFrom receiver msgTo lenMsgTo)
      (a.synchronizedSendReceive msgFrom lenMsgFrom receiver msgTo lenMsgTo) := by
  unfold RealtimeKernel.synchronizedSendReceive AbsKernel.synchronizedSendReceive
  rw [h.mem_eq]
  obtain ⟨len, mem⟩ := copyMessage k.mem msgFrom lenMsgFrom msgTo lenMsgTo
  have h' := (h.setMem mem).modify receiver
    (f := fun t => RealtimeKernel.assignResult t (ofInt len))
    (g := fun t => RealtimeKernel.assignResult t (ofInt len)) rfl rfl rfl
  refine Refines.bind (R := Rep) ?_ fun k₂ a₂ h₂ => .ok ⟨rfl, h₂⟩
  rw [h'.task_eq receiver, Task.erase_state]
  split
  · exact h'.changeTaskState receiver .ready
  · exact .ok h'

/-- A result assigned to the same task on both sides. -/
theorem assignResult (h : Rep k a) (t : TaskPtr) (v : U64) :
    Rep (k.modify t fun u => RealtimeKernel.assignResult u v)
      (a.modify t fun u => RealtimeKernel.assignResult u v) :=
  h.modify t rfl rfl rfl

theorem sysSend (h : Rep k a) : Refines Rep (RealtimeKernel.sysSend k) a.sysSend := by
  unfold RealtimeKernel.sysSend AbsKernel.sysSend
  rw [h.currentTask_eq]
  refine (refines_deref _).bind fun sender sender' hs => ?_
  subst hs
  simp only [h.task_eq, h.getTaskByTid_eq, ok_bind]
  have hargs : ∀ t, getSendArgs (k.task t).erase = getSendArgs (k.task t) := fun _ => rfl
  have hrargs : ∀ t, getReceiveArgs (k.task t).erase = getReceiveArgs (k.task t) := fun _ => rfl
  simp only [hargs, hrargs]
  cases a.getTaskByTid (toInt32 (getSendArgs (k.task sender)).tid) with
  | none => exact .ok (h.assignResult sender _)
  | some receiver =>
    have hstate : (k.task receiver).erase.state = (k.task receiver).state := rfl
    have htid : (k.task sender).erase.tid = (k.task sender).tid := rfl
    simp only [hstate, htid]
    split
    · rw [h.mem_eq]
      exact ((h.setMem _).synchronizedSendReceive _ _ _ _ _).bind fun r s hrs =>
        hrs.2.changeTaskState sender .watireply
    · have hpush : (registerSender (k.task receiver).erase (k.task sender).tid).1
          = (registerSender (k.task receiver) (k.task sender).tid).1 := rfl
      simp only [hpush]
      split
      · exact (h.modify receiver (f := fun _ => (registerSender (k.task receiver) _).2)
          (g := fun _ => (registerSender (k.task receiver).erase _).2)
          rfl rfl rfl).changeTaskState sender .watisend
      · exact .ok (h.assignResult sender _)

theorem sysReceive (h : Rep k a) : Refines Rep (RealtimeKernel.sysReceive k) a.sysReceive := by
  unfold RealtimeKernel.sysReceive AbsKernel.sysReceive
  rw [h.currentTask_eq]
  refine (refines_deref _).bind fun receiver receiver' hr => ?_
  subst hr
  have hsenders : (a.task receiver).senders = (k.task receiver).senders := by
    rw [h.task_eq]
    rfl
  have hargs : ∀ {k : Kernel} {a : AbsKernel}, Rep k a →
      ∀ t, getSendArgs (a.task t) = getSendArgs (k.task t) := fun h t => by
    rw [h.task_eq]
    rfl
  have hrargs : getReceiveArgs (a.task receiver) = getReceiveArgs (k.task receiver) := by
    rw [h.task_eq]
    rfl
  simp only [hsenders, hrargs]
  split
  · exact h.changeTaskState receiver .waitreceive
  · have hid : (nextSender (a.task receiver)).1 = (nextSender (k.task receiver)).1 := by
      rw [h.task_eq]
      rfl
    have h' : Rep (k.modify receiver fun _ => (nextSender (k.task receiver)).2)
        (a.modify receiver fun _ => (nextSender (a.task receiver)).2) := by
      rw [h.task_eq]
      exact h.modify receiver rfl rfl rfl
    simp only [hid, h'.getTaskByTid_eq, ok_bind]
    cases (a.modify receiver fun _ => (nextSender (a.task receiver)).2).getTaskByTid
        (nextSender (k.task receiver)).1 with
    | none => exact .ok (h'.assignResult receiver _)
    | some sender =>
      have htid : ((a.modify receiver fun _ => (nextSender (a.task receiver)).2).task sender).tid
          = ((k.modify receiver fun _ => (nextSender (k.task receiver)).2).task sender).tid := by
        rw [h'.task_eq]
        rfl
      simp only [hargs h', htid, h'.mem_eq]
      exact ((h'.setMem _).synchronizedSendReceive _ _ _ _ _).bind fun r s hrs =>
        hrs.2.changeTaskState sender .watireply

theorem sysReply (h : Rep k a) : Refines Rep (RealtimeKernel.sysReply k) a.sysReply := by
  unfold RealtimeKernel.sysReply AbsKernel.sysReply
  rw [h.currentTask_eq]
  refine (refines_deref _).bind fun receiver receiver' hr => ?_
  subst hr
  have hargs : ∀ t, getSendArgs (k.task t).erase = getSendArgs (k.task t) := fun _ => rfl
  have hrargs : ∀ t, getReplyArgs (k.task t).erase = getReplyArgs (k.task t) := fun _ => rfl
  simp only [h.task_eq, h.getTaskByTid_eq, ok_bind, hargs, hrargs]
  cases a.getTaskByTid (toInt32 (getReplyArgs (k.task receiver)).tid) with
  | none => exact .ok (h.assignResult receiver _)
  | some sender =>
    refine (h.synchronizedSendReceive _ _ _ _ _).bind fun r s hrs => ?_
    obtain ⟨hlen, hrep⟩ := hrs
    rw [hlen]
    exact .ok (hrep.assignResult receiver _)

/-! ### The handlers -/

theorem sysCreate (img : Image) (h : Rep k a) :
    Refines Rep (RealtimeKernel.sysCreate img k) (a.sysCreate img) := by
  unfold RealtimeKernel.sysCreate AbsKernel.sysCreate
  rw [h.currentTask_eq]
  refine (refines_deref _).bind fun t t' ht => ?_
  subst ht
  have hx : (a.task t).x = (k.task t).x := by
    rw [h.task_eq]
    rfl
  have htid : (a.task t).tid = (k.task t).tid := by
    rw [h.task_eq]
    rfl
  rw [hx, htid]
  refine (h.createTask img _ _ _).bind fun r s hrs => ?_
  obtain ⟨o, k'⟩ := r
  obtain ⟨o', a'⟩ := s
  obtain ⟨ho, h'⟩ := hrs
  obtain rfl : o = o' := ho
  cases o with
  | none => exact .ok (h'.assignResult t _)
  | some u =>
    have hu : (a'.task u).tid = (k'.task u).tid := by
      rw [h'.task_eq]
      rfl
    simp only [hu]
    exact .ok (h'.assignResult t _)

theorem sysTid (h : Rep k a) : Refines Rep (RealtimeKernel.sysTid k) a.sysTid := by
  unfold RealtimeKernel.sysTid AbsKernel.sysTid
  rw [h.currentTask_eq]
  refine (refines_deref _).bind fun t t' ht => ?_
  subst ht
  exact .ok (h.modify t rfl rfl rfl)

theorem sysParentTid (h : Rep k a) :
    Refines Rep (RealtimeKernel.sysParentTid k) a.sysParentTid := by
  unfold RealtimeKernel.sysParentTid AbsKernel.sysParentTid
  rw [h.currentTask_eq]
  refine (refines_deref _).bind fun t t' ht => ?_
  subst ht
  exact .ok (h.modify t rfl rfl rfl)

theorem sysAwaitEvent (h : Rep k a) :
    Refines Rep (RealtimeKernel.sysAwaitEvent k) a.sysAwaitEvent := by
  unfold RealtimeKernel.sysAwaitEvent AbsKernel.sysAwaitEvent
  rw [h.currentTask_eq]
  refine (refines_deref _).bind fun t t' ht => ?_
  subst ht
  refine (h.changeTaskState t .awatievent).bind fun k' a' h' => ?_
  have hx : (a'.task t).x = (k'.task t).x := by
    rw [h'.task_eq]
    rfl
  rw [hx]
  exact h'.addToIrqQueue _ t

theorem synchronousExceptionHandlers (img : Image) (h : Rep k a) (call : Syscall) :
    Refines Rep (RealtimeKernel.synchronousExceptionHandlers img call k)
      (AbsKernel.synchronousExceptionHandlers img call a) := by
  cases call with
  | create => exact h.sysCreate img
  | yield => exact .ok h
  | exit => exact h.removeCurrentTask img
  | myTid => exact h.sysTid
  | myParentTid => exact h.sysParentTid
  | send => exact h.sysSend
  | receive => exact h.sysReceive
  | reply => exact h.sysReply
  | awaitEvent => exact h.sysAwaitEvent

theorem handleIrq (h : Rep k a) (intid : ℕ) (chi clo : U32) :
    Refines Rep (RealtimeKernel.handleIrq k intid chi clo) (a.handleIrq intid chi clo) := by
  unfold RealtimeKernel.handleIrq AbsKernel.handleIrq handleTimer1
  rw [h.clocks_eq]
  split
  · cases sysClockNotifyTick k.clocks 1 chi clo with
    | error e => simp
    | ok c =>
      have h' : Rep { k with clocks := c } { a with clocks := c } :=
        h.setCore (c := { k.toCore with clocks := c }) rfl (by rw [h.core]; rfl)
      simp only [ok_bind]
      exact h'.wakeUpIrqBlockedTasks _
  · simp

theorem handleCurrentException (img : Image) (h : Rep k a) (trap : Trap) :
    Refines Rep (RealtimeKernel.handleCurrentException img k trap)
      (a.handleCurrentException img trap) := by
  unfold RealtimeKernel.handleCurrentException AbsKernel.handleCurrentException
  cases trap.cause with
  | irq intid chi clo => exact h.handleIrq intid chi clo
  | sync esr =>
    simp only [RealtimeKernel.handleSynchronousException, AbsKernel.handleSynchronousException]
    split
    · refine (refines_deref _).bind fun c d hcd => ?_
      subst hcd
      exact h.synchronousExceptionHandlers img c
    · exact .ok h

theorem activate (h : Rep k a) (t : TaskPtr) :
    Refines Rep (RealtimeKernel.activate k t) (a.activate t) := by
  unfold RealtimeKernel.activate AbsKernel.activate
  refine (h.changeTaskState t .running).bind fun k' a' h' => ?_
  have hflag : (a'.task t).shouldPassResult = (k'.task t).shouldPassResult := by
    rw [h'.task_eq]
    rfl
  rw [hflag]
  split
  · exact .ok (h'.modify t rfl rfl rfl)
  · exact .ok h'

theorem enterTrap (h : Rep k a) (trap : Trap) :
    Refines Rep (RealtimeKernel.enterTrap k trap) (a.enterTrap trap) := by
  unfold RealtimeKernel.enterTrap AbsKernel.enterTrap
  refine h.schedule.bind fun r s hrs => ?_
  obtain ⟨o, k'⟩ := r
  obtain ⟨o', a'⟩ := s
  obtain ⟨ho, h'⟩ := hrs
  obtain rfl : o = o' := ho
  cases o with
  | none => simp
  | some t =>
    refine (h'.activate t).bind fun k₂ a₂ h₂ => ?_
    rw [h₂.currentTask_eq]
    refine (refines_deref _).bind fun u u' hu => ?_
    subst hu
    exact .ok ((h₂.modify u (f := fun t => saveContext t trap)
      (g := fun t => saveContext t trap) rfl rfl rfl).setMem trap.mem)

theorem initTasks (img : Image) (h : Rep k a) :
    Refines Rep (RealtimeKernel.initTasks img k) (a.initTasks img) := by
  unfold RealtimeKernel.initTasks AbsKernel.initTasks
  exact (h.createTask img _ _ _).bind fun r s hrs =>
    (hrs.2.createTask img _ _ _).bind fun r' s' hrs' => .ok hrs'.2

end Rep

end RealtimeKernel
