import RealtimeKernel.FailedCalls
import RealtimeKernel.Lib.Recency

/-!
# Priority scheduling with round robin

A task becomes ready when it is created, when a message or a reply reaches it, when its event
happens, or when `schedule` puts it back because it is still running.  `becameReady` logs these
moments of a history.  The ready queue of each priority is the list of its ready tasks in the
order of this log, so `schedule` picks, among the ready tasks of the highest priority, the one
that has been ready for the longest time.
-/

namespace RealtimeKernel

open Lib

/-- The task that `schedule` puts back: the current one, if it is still running. -/
def Core.preempted (k : Core) : Option TaskPtr :=
  match k.currentTask with
  | some c => if (k.task c).state = .running then some c else none
  | none => none

/-- The tasks that a handler makes ready. -/
def woken (i : Iter Kernel Trap) : List TaskPtr :=
  (List.finRange taskPoolSize).filter fun t =>
    (i.mid.task t).state ≠ .ready ∧ (i.next.task t).state = .ready

/-- The tasks in the order in which they became ready, from the two that `init_tasks` creates on. -/
def becameReady (h : List (Iter Kernel Trap)) : List TaskPtr :=
  [0, 1] ++ h.flatMap fun i => i.head.preempted.toList ++ woken i

/-- The tasks among which `schedule` chooses. -/
def Kernel.Schedulable (k : Kernel) (t : TaskPtr) : Prop :=
  (k.task t).state = .ready ∨ k.preempted = some t

/-- What makes `c` the task to run in state `k`, given the log `l`. -/
structure Chosen (l : List TaskPtr) (k : Kernel) (c : TaskPtr) : Prop where
  ready : k.Schedulable c
  highest : ∀ t, k.Schedulable t → (k.task t).priority ≤ (k.task c).priority
  /-- Since `c` became ready for the last time, all others of its priority did. -/
  earliest : ∃ l₁ l₂, l = l₁ ++ c :: l₂ ∧ c ∉ l₂ ∧ ∀ t, t ≠ c → k.Schedulable t →
    (k.task t).priority = (k.task c).priority → t ∈ l₂
  /-- A task that was running goes behind all others of its priority. -/
  behind : k.preempted = some c → ∀ t, t ≠ c → k.Schedulable t →
    (k.task t).priority < (k.task c).priority

/-- The descriptor of the second task that `init_tasks` creates. -/
def idleTask : TaskPtr := 1

theorem becameReady_snoc (h : List (Iter Kernel Trap)) (i : Iter Kernel Trap) :
    becameReady (h ++ [i]) = becameReady h ++ i.head.preempted.toList ++ woken i := by
  simp [becameReady]

namespace AbsKernel

variable {a a' m : AbsKernel} {img : Image} {c t : TaskPtr} {trap : Trap} {o : Option TaskPtr}
  {l : List TaskPtr}

/-- The ready tasks other than `o` stay as they are, and `o` enters the ready queue. -/
structure Wakes (a : AbsKernel) (o : Option TaskPtr) (a' : AbsKernel) : Prop where
  fresh : ∀ t, o = some t → (a.task t).state ≠ .ready
  ready : ∀ t, (a'.task t).state = .ready ↔ (a.task t).state = .ready ∨ o = some t
  prio : ∀ t, (a.task t).state = .ready → (a'.task t).prio = (a.task t).prio
  queue : a'.readyq = o.elim a.readyq fun t => pushAt a.readyq (a'.task t).prio t

/-- `t` is ready and has the priority `p`. -/
def readyAt (a : AbsKernel) (p : Fin taskPriorityMax) (t : TaskPtr) : Bool :=
  (a.task t).state = .ready ∧ (a.task t).prio = p

/-- The ready queue lists the ready tasks of each priority in the order of the log. -/
def InOrder (l : List TaskPtr) (a : AbsKernel) : Prop :=
  ∀ p, a.readyq p = recency l (a.readyAt p)

theorem InOrder.wakes (h : InOrder l a) (hw : Wakes a o a') : InOrder (l ++ o.toList) a' := by
  intro p
  have hold : ∀ t, o ≠ some t → a'.readyAt p t = a.readyAt p t := by
    intro t ht
    refine decide_eq_decide.mpr ?_
    rw [hw.ready t, or_iff_left ht]
    exact and_congr_right fun hr => by rw [hw.prio t hr]
  cases o with
  | none =>
    rw [hw.queue, Option.toList_none, List.append_nil]
    show a.readyq p = _
    rw [h p]
    exact recency_congr fun t => (hold t (by simp)).symm
  | some t =>
    have hready : (a'.task t).state = .ready := (hw.ready t).mpr (Or.inr rfl)
    have hfresh : a.readyAt p t = false := by simp [readyAt, hw.fresh t rfl]
    have hpush := recency_concat (l := l) hfresh fun u hu =>
      hold u fun he => hu (Option.some.inj he).symm
    rw [hw.queue, Option.toList_some, hpush, ← h p]
    show pushAt a.readyq (a'.task t).prio t p = _
    by_cases hp : p = (a'.task t).prio
    · subst hp
      simp [pushAt, readyAt, hready]
    · have hne : (a'.task t).prio ≠ p := fun he => hp he.symm
      simp [pushAt, readyAt, hp, hne]

/-- The task that is dispatched leaves the ready queue. -/
theorem InOrder.dispatch {rq : Fin taskPriorityMax → List TaskPtr} (h : InOrder l a)
    (hc : a.Consistent) (pop : popHighest a.readyq = some (c, rq)) :
    InOrder l (a.dispatch c rq trap) := by
  obtain ⟨q, rest, hq, hhigh, rfl⟩ := popHighest_eq_some.mp pop
  have hprio : (a.task c).prio = q := hc.ready_prio q c (by simp [hq])
  intro p
  have heq : recency l ((a.dispatch c (Function.update a.readyq q rest) trap).readyAt p)
      = (recency l (a.readyAt p)).erase c := by
    refine recency_erase ?_ fun t ht => ?_
    · simp [readyAt, AbsKernel.dispatch, saveContext]
    · simp [readyAt, AbsKernel.dispatch, ht]
  rw [heq, ← h p]
  show Function.update a.readyq q rest p = _
  by_cases hp : p = q
  · subst hp
    rw [Function.update_self, hq, List.erase_cons_head]
  · have hnot : c ∉ a.readyq p := fun hin => hp ((hc.ready_prio p c hin).symm.trans hprio)
    rw [Function.update_of_ne hp, List.erase_of_not_mem hnot]

section Prio

variable (a : AbsKernel) (t u : TaskPtr) (s : TaskState) (v : ℤ)

@[simp] theorem assign_prio : ((a.assign t v).task u).prio = (a.task u).prio :=
  modify_field a t _ Task.prio rfl u

@[simp] theorem setState_prio : ((a.setState t s).task u).prio = (a.task u).prio :=
  modify_field a t _ Task.prio rfl u

end Prio

/-- Nothing that matters to the ready queue changes. -/
theorem Wakes.still (queue : a'.readyq = a.readyq)
    (ready : ∀ t, (a'.task t).state = .ready ↔ (a.task t).state = .ready)
    (prio : ∀ t, (a.task t).state = .ready → (a'.task t).prio = (a.task t).prio) :
    Wakes a none a' where
  fresh := by simp
  ready := fun t => by simp [ready t]
  prio := prio
  queue := queue

/-- `change_task_state(t, READY)` on a task that is not ready. -/
theorem Wakes.makeReady (ht : (a.task t).state ≠ .ready) : Wakes a (some t) (a.makeReady t) where
  fresh := fun u hu => Option.some.inj hu ▸ ht
  ready := fun u => by
    rw [makeReady_task, setState_state]
    by_cases hut : u = t
    · simp [hut]
    · have hne : t ≠ u := fun he => hut he.symm
      simp [hut, hne]
  prio := fun u _ => by simp
  queue := by simp

/-- What happens to other fields before and after is of no consequence. -/
theorem Wakes.still_left {b : AbsKernel} (h₁ : Wakes a none b) (h₂ : Wakes b o a') :
    Wakes a o a' where
  fresh := fun t ht hr => h₂.fresh t ht ((h₁.ready t).mpr (Or.inl hr))
  ready := fun t => by rw [h₂.ready t, h₁.ready t]; simp
  prio := fun t ht => (h₂.prio t ((h₁.ready t).mpr (Or.inl ht))).trans (h₁.prio t ht)
  queue := by
    have hq : b.readyq = a.readyq := h₁.queue
    rw [h₂.queue, hq]

theorem Wakes.still_right {b : AbsKernel} (h₁ : Wakes a o b) (h₂ : Wakes b none a') :
    Wakes a o a' where
  fresh := h₁.fresh
  ready := fun t => by rw [h₂.ready t, h₁.ready t]; simp
  prio := fun t ht => (h₂.prio t ((h₁.ready t).mpr (Or.inl ht))).trans (h₁.prio t ht)
  queue := by
    have hq : a'.readyq = b.readyq := h₂.queue
    rw [hq, h₁.queue]
    cases o with
    | none => rfl
    | some t =>
      show pushAt a.readyq (b.task t).prio t = pushAt a.readyq (a'.task t).prio t
      rw [h₂.prio t ((h₁.ready t).mpr (Or.inr rfl))]

theorem Wakes.refl (a : AbsKernel) : Wakes a none a :=
  .still rfl (fun _ => Iff.rfl) fun _ _ => rfl

theorem Wakes.setMem (a : AbsKernel) (mem : Mem) : Wakes a none (a.setMem mem) :=
  .still rfl (fun _ => Iff.rfl) fun _ _ => rfl

theorem Wakes.assign (a : AbsKernel) (t : TaskPtr) (v : ℤ) : Wakes a none (a.assign t v) :=
  .still rfl (fun u => by simp) fun u _ => by simp

theorem Wakes.setState {s : TaskState} (ht : (a.task t).state ≠ .ready) (hs : s ≠ .ready) :
    Wakes a none (a.setState t s) := by
  refine .still rfl (fun u => ?_) fun u _ => by simp
  rw [setState_state]
  by_cases hut : u = t
  · simp [hut, ht, hs]
  · simp [hut]

theorem Wakes.modify {f : Task → Task}
    (hf : (f (a.task t)).state = (a.task t).state ∧ (f (a.task t)).prio = (a.task t).prio) :
    Wakes a none (a.modify t f) :=
  .still rfl (fun u => by rw [modify_field a t f Task.state hf.1])
    fun u _ => modify_field a t f Task.prio hf.2 u

/-- A new task becomes ready. -/
theorem Wakes.created {priority parentTid : ℤ} {func : U64} {free : List TaskPtr}
    {block : BlockPtr} {used : BlockPtr → Bool} (ht : (a.task t).state ≠ .ready)
    (push : (a.addTask img priority func parentTid t free block used).Pushable t) :
    Wakes a (some t) ((a.addTask img priority func parentTid t free block used).makeReady t) := by
  have hadd : Wakes a none (a.addTask img priority func parentTid t free block used) := by
    refine .still rfl (fun u => ?_) fun u hu => ?_
    · by_cases hut : u = t
      · rw [hut]
        exact iff_of_false push.state ht
      · simp [addTask, hut]
    · have hut : u ≠ t := fun he => ht (he ▸ hu)
      simp [addTask, hut]
  exact hadd.still_left (.makeReady push.state)

theorem Requeue.wakes {a₁ : AbsKernel} (hr : Requeue a a₁) : Wakes a a.preempted a₁ := by
  cases hr with
  | @running c current state push =>
    have hp : a.preempted = some c := by simp [Core.preempted, current, state]
    rw [hp]
    exact .makeReady push.state
  | @blocked c current state =>
    have hp : a.preempted = none := by
      have hne : (a.task c).state ≠ .running := by
        intro he
        rw [he] at state
        cases state
      simp [Core.preempted, current, hne]
    rw [hp]
    exact .refl a
  | gone current =>
    have hp : a.preempted = none := by simp [Core.preempted, current]
    rw [hp]
    exact .refl a

/-- **Every handler makes at most one task ready**, and a task that made no system call stays
running. -/
theorem Effect.wakes (he : Effect img a c trap a') (h : a.Orderly) (hc : a.currentTask = some c)
    (hrun : (a.task c).state = .running) (hx : (a.task c).x = trap.x) (hok : a.ReplyOk trap) :
    ∃ o, Wakes a o a' ∧ (trap.syscall = none → (a'.task c).state = .running) := by
  have hno : ∀ {p : Syscall} {P : Prop}, trap.syscall = some p → trap.syscall = none → P :=
    fun hp hn => by simp [hp] at hn
  have hcr : (a.task c).state ≠ .ready := by
    rw [hrun]
    decide
  cases he with
  | ignored => exact ⟨none, .refl a, fun _ => hrun⟩
  | yielded call => exact ⟨none, .refl a, hno call⟩
  | toldTid call => exact ⟨none, .assign a c _, hno call⟩
  | toldParentTid call => exact ⟨none, .assign a c _, hno call⟩
  | @created t free block used call hfree alloc room push =>
    have ht : (a.task t).state ≠ .ready := by
      rw [h.dead t (h.free_jobq t (by simp [hfree]))]
      decide
    exact ⟨some t, (Wakes.created ht push).still_right (.assign _ c _), hno call⟩
  | createFailed call => exact ⟨none, .assign a c _, hno call⟩
  | exited call live hblock =>
    refine ⟨none, .still rfl (fun u => ?_) fun u hu => ?_, hno call⟩
    · by_cases huc : u = c
      · subst huc
        simp [removed, taskInit, hrun]
      · simp [removed, huc]
    · have huc : u ≠ c := fun he => hcr (he ▸ hu)
      simp [removed, huc]
  | sendNoTask call => exact ⟨none, .assign a c _, hno call⟩
  | @sendDirect r call lookup state push =>
    have hrc : c ≠ r := by
      rintro rfl
      rw [hrun] at state
      cases state
    refine ⟨some r, .still_right (.still_left (.still_left (.setMem a _) (.assign _ r _))
      (.makeReady ?_)) (.setState ?_ (by decide)), hno call⟩
    · rw [assign_state, setMem_task, state]
      decide
    · rw [makeReady_task, setState_state, if_neg hrc, assign_state, setMem_task]
      exact hcr
  | @sendQueued r call lookup state room =>
    refine ⟨none, .still_left (.modify ⟨rfl, rfl⟩) (.setState ?_ (by decide)), hno call⟩
    rw [modify_field a r _ Task.state rfl]
    exact hcr
  | sendFull call => exact ⟨none, .assign a c _, hno call⟩
  | receiveBlocked call => exact ⟨none, .setState hcr (by decide), hno call⟩
  | receiveVanished call =>
    exact ⟨none, .still_left (.modify ⟨rfl, rfl⟩) (.assign _ c _), hno call⟩
  | @received s call nonempty lookup state =>
    obtain ⟨s', -, -, hl, hst⟩ := h.toRings.nextSender h.toWellFormed nonempty
    obtain rfl : s = s' := Option.some.inj (lookup.symm.trans hl)
    refine ⟨none, .still_left (.modify ⟨rfl, rfl⟩) (.still_left (.setMem _ _)
      (.still_left (.assign _ c _) (.setState ?_ (by decide)))), hno call⟩
    rw [assign_state, setMem_task, (task_nextSender a c s).2.2, hst]
    decide
  | replyNoTask call => exact ⟨none, .assign a c _, hno call⟩
  | @replied s call lookup state push =>
    refine ⟨some s, .still_right (.still_left (.still_left (.setMem a _) (.assign _ s _))
      (.makeReady ?_)) (.assign _ c _), hno call⟩
    rw [assign_state, setMem_task, hok call s (hx ▸ lookup)]
    decide
  | @repliedRunning s call =>
    exact ⟨none, .still_left (.setMem a _) (.still_left (.assign _ s _) (.assign _ c _)), hno call⟩
  | awaited call =>
    have hs := Wakes.setState (a := a) (t := c) (s := .awatievent) hcr (by decide)
    exact ⟨none, ⟨hs.fresh, hs.ready, hs.prio, hs.queue⟩, hno call⟩
  | tickIdle => exact ⟨none, .still rfl (fun _ => Iff.rfl) fun _ _ => rfl, fun _ => hrun⟩
  | @tickWoke chi clo clocks t q cause tick pop state push =>
    have hct : c ≠ t := by
      rintro rfl
      rw [hrun] at state
      cases state
    have ht : (a.task t).state ≠ .ready := by
      rw [state]
      decide
    have htick : Wakes a none
        { a with clocks := clocks, irqq := Function.update a.irqq timer1 q } :=
      .still rfl (fun _ => Iff.rfl) fun _ _ => rfl
    refine ⟨some t, htick.still_left (.makeReady ht), fun _ => ?_⟩
    rw [makeReady_task, setState_state, if_neg hct]
    exact hrun

theorem dispatch_task_of_ne (a : AbsKernel) (c : TaskPtr)
    (rq : Fin taskPriorityMax → List TaskPtr) (trap : Trap) (ht : t ≠ c) :
    (a.dispatch c rq trap).task t = a.task t := by
  simp [AbsKernel.dispatch, ht]

theorem Requeue.priority {a₁ : AbsKernel} (hr : Requeue a a₁) (t : TaskPtr) :
    (a₁.task t).priority = (a.task t).priority := by
  cases hr with
  | @running c =>
    exact modify_field a c (fun u => { u with state := .ready }) Task.priority rfl t
  | blocked => rfl
  | gone => rfl

/-- The task that is dispatched has the highest priority of all ready tasks, and among these it
comes first in the log. -/
theorem InOrder.first (h : InOrder l a) (ho : a.Orderly) {rq : Fin taskPriorityMax → List TaskPtr}
    (pop : popHighest a.readyq = some (c, rq)) :
    (a.task c).state = .ready ∧
    (∀ t, (a.task t).state = .ready → (a.task t).priority ≤ (a.task c).priority) ∧
    ∃ l₁ l₂, l = l₁ ++ c :: l₂ ∧ c ∉ l₂ ∧ ∀ t, t ≠ c → (a.task t).state = .ready →
      (a.task t).priority = (a.task c).priority → t ∈ l₂ := by
  obtain ⟨p, rest, hp, hhigh, -⟩ := popHighest_eq_some.mp pop
  have hmem : ∀ t, (a.task t).state = .ready → t ∈ a.readyq (a.task t).prio := by
    intro t ht
    have hocc := ho.ready t
    rw [if_pos ht] at hocc
    obtain ⟨q, hq⟩ := (occurs_pos_iff a.readyq t).mp (by omega)
    rwa [ho.ready_prio q t hq]
  have hc : c ∈ a.readyq p := by simp [hp]
  have hcp : (a.task c).prio = p := ho.ready_prio p c hc
  refine ⟨ho.toConsistent.mem_ready hc, fun t ht => ?_, ?_⟩
  · rw [← Task.prio_val (ho.prio t), ← Task.prio_val (ho.prio c), hcp]
    have hle : (a.task t).prio ≤ p := by
      by_contra hlt
      have hin := hmem t ht
      rw [hhigh _ (not_le.mp hlt)] at hin
      cases hin
    exact_mod_cast hle
  · obtain ⟨l₁, l₂, hl, hnot, hrest⟩ := recency_head ((h p).symm.trans hp)
    refine ⟨l₁, l₂, hl, hnot, fun t htc ht hprio => hrest t ?_⟩
    have htp : (a.task t).prio = p := by
      rw [← hcp]
      simp only [Task.prio, hprio]
    have hin := hmem t ht
    rw [htp, hp, List.mem_cons] at hin
    exact hin.resolve_left htc

/-- The idle task is ready, or it is running. -/
def IdleOk (a : AbsKernel) : Prop :=
  (a.task idleTask).state = .ready ∨ (a.task idleTask).state = .running

theorem IdleOk.requeue {a₁ : AbsKernel} (h : a.IdleOk) (hw : a.WellFormed)
    (hr : Requeue a a₁) : (a₁.task idleTask).state = .ready := by
  rw [hr.wakes.ready]
  refine h.imp_right fun hrun => ?_
  simp [Core.preempted, hw.running idleTask hrun, hrun]

/-- `create_task` makes the first free descriptor a ready task. -/
theorem Orderly.createTask_wakes {priority parentTid : ℤ} {func : U64} {free : List TaskPtr}
    (h : a.Orderly) (hfree : a.free = t :: free)
    (hc : a.createTask img priority func parentTid = .ok (o, a')) :
    Wakes a (some t) a' ∧ a'.free = free ∧ (a'.task t).pc = func := by
  rcases createTask_eq_ok.mp hc with ⟨hnil, -, -⟩ |
    ⟨u, free', block, used, hcons, -, -, push, -, rfl⟩
  · rw [hnil] at hfree
    cases hfree
  · obtain ⟨rfl, rfl⟩ := List.cons.inj (hfree.symm.trans hcons)
    have ht : (a.task t).state ≠ .ready := by
      rw [h.dead t (h.free_jobq t (by simp [hfree]))]
      decide
    exact ⟨.created ht push, rfl, by simp [setState, addTask, newTask]⟩

/-- After the boot the two tasks of `init_tasks` are ready. -/
theorem boot_inOrder {b : Boot} (hb : boot b = .ok a) :
    InOrder [0, 1] a ∧ a.IdleOk ∧ (a.task idleTask).pc = b.img.idleTask := by
  have ho := orderly_init b
  obtain ⟨o₁, a₁, o₂, h₁, ho₁, h₂, -⟩ := boot_created hb
  obtain ⟨hw₁, hfree₁, -⟩ := ho.createTask_wakes (t := 0)
    (show (init b).free = 0 :: 1 :: (List.finRange taskPoolSize).drop 2 by
      show List.finRange taskPoolSize = _
      decide) h₁
  obtain ⟨hw₂, -, hpc⟩ := ho₁.createTask_wakes hfree₁ h₂
  have hinit : InOrder [] (init b) := fun p => rfl
  exact ⟨(hinit.wakes hw₁).wakes hw₂, Or.inl ((hw₂.ready _).mpr (Or.inr rfl)), hpc⟩

end AbsKernel

namespace Rep

variable {k : Kernel} {a m a' : AbsKernel} {i : Iter Kernel Trap} {o : Option TaskPtr}

theorem preempted_eq (h : Rep k a) : a.preempted = k.preempted := by
  unfold Core.preempted
  rw [h.currentTask_eq]
  cases k.currentTask with
  | none => rfl
  | some c => simp only [h.state_eq]

theorem priority_eq (h : Rep k a) (t : TaskPtr) : (a.task t).priority = (k.task t).priority := by
  rw [h.task_eq]
  rfl

theorem woken_eq (hm : Rep i.mid m) (hn : Rep i.next a') (hw : AbsKernel.Wakes m o a') :
    woken i = o.toList := by
  have hiff : ∀ t, (i.mid.task t).state ≠ .ready ∧ (i.next.task t).state = .ready ↔
      o = some t := by
    intro t
    rw [← hm.state_eq, ← hn.state_eq, hw.ready]
    constructor
    · rintro ⟨hne, hr⟩
      exact hr.resolve_left hne
    · intro ho
      exact ⟨hw.fresh t ho, Or.inr ho⟩
  unfold woken
  cases o with
  | none =>
    rw [Option.toList_none, List.filter_eq_nil_iff]
    intro t _ ht
    cases (hiff t).mp (of_decide_eq_true ht)
  | some u =>
    have hfil : (List.finRange taskPoolSize).filter (fun t =>
        (i.mid.task t).state ≠ .ready ∧ (i.next.task t).state = .ready)
          = (List.finRange taskPoolSize).filter fun t => t == u := by
      refine List.filter_congr fun t _ => ?_
      rw [Bool.eq_iff_iff, decide_eq_true_iff, hiff t, beq_iff_eq, Option.some.injEq, eq_comm]
    rw [hfil, Option.toList_some, List.filter_beq,
      List.count_eq_one_of_mem (List.nodup_finRange _) (List.mem_finRange u)]
    rfl

end Rep

/-- **Along a run the ready queue is in the order of the log**, and the idle task stays ready or
running while it makes no system call. -/
theorem Boot.Reaches.inOrder {b : Boot} {h : List (Iter Kernel Trap)} {k : Kernel}
    (r : b.Reaches h k) (hok : ∀ i ∈ h, i.mid.ReplyOk i.input) :
    ∃ a, Rep k a ∧ a.Orderly ∧ a.HeadOk ∧ a.InOrder (becameReady h) ∧
      ((∀ i ∈ h, i.mid.currentTask = some idleTask → i.input.syscall = none) → a.IdleOk) := by
  obtain ⟨k₀, hk₀, hrun⟩ := r
  refine hrun.history (I := fun h k => ∃ a, Rep k a ∧ a.Orderly ∧ a.HeadOk ∧
    a.InOrder (becameReady h) ∧
      ((∀ i ∈ h, i.mid.currentTask = some idleTask → i.input.syscall = none) → a.IdleOk))
    (P := fun i => i.mid.ReplyOk i.input) ?_ hok ?_
  · obtain ⟨a₀, ha₀, ho, hfresh⟩ := AbsKernel.boot_ok b
    obtain ⟨a₁, ha₁, hrep⟩ := Refines.ok_left (y := AbsKernel.boot b) b.kernel_refines hk₀
    obtain rfl : a₀ = a₁ := Except.ok.inj (ha₀.symm.trans ha₁)
    obtain ⟨hin, hidle, -⟩ := AbsKernel.boot_inOrder ha₀
    refine ⟨a₀, hrep, ho, fun c hc => ?_, hin, fun _ => hidle⟩
    rw [hfresh.current] at hc
    cases hc
  · rintro h k trap m k' - - ⟨a, hrep, ho, hh, hin, hidle⟩ hreply hm hk'
    obtain ⟨c, m', a', hrepm, hrep', hst⟩ := hrep.iteration b.img hm hk'
    have hreply' := hrepm.replyOk hreply
    obtain ⟨hom, hoa⟩ := hst.orderly ho hreply'
    obtain ⟨hc, hrun', hx, -⟩ := hst.enters.current
    obtain ⟨o, hw, hown⟩ := hst.effect.wakes hom hc hrun' hx hreply'
    have hmid : m'.InOrder (becameReady h ++ k.preempted.toList) := by
      rw [← hrep.preempted_eq]
      cases hst.enters with
      | intro hr pop state => exact (hin.wakes hr.wakes).dispatch (ho.requeue hr).toConsistent pop
    have hwoken : woken ⟨k, trap, m, k'⟩ = o.toList :=
      hrepm.woken_eq (i := ⟨k, trap, m, k'⟩) hrep' hw
    refine ⟨a', hrep', hoa, hst.effect.headOk hom.toWellFormed hc hrun', ?_, fun hq => ?_⟩
    · rw [becameReady_snoc, hwoken]
      exact hmid.wakes hw
    · have hidle₀ := hidle fun i hi => hq i (List.mem_append_left _ hi)
      have hlast := hq ⟨k, trap, m, k'⟩ (by simp)
      rw [← hrepm.currentTask_eq, hc] at hlast
      by_cases hci : c = idleTask
      · exact Or.inr (hci ▸ hown (hlast (by rw [hci])))
      · left
        rw [hw.ready]
        left
        cases hst.enters with
        | intro hr pop state =>
          have hready := hidle₀.requeue ho.toWellFormed hr
          rw [AbsKernel.dispatch_task_of_ne _ _ _ _ fun he => hci he.symm]
          exact hready

/-- **Priority scheduling with round robin.**  In every run whose Replies name tasks in state
`WATIREPLY` only, the task that `kmain` activates has the highest priority of all ready tasks, and
among those of its priority it became ready first, a task that was running going behind all
others.  While the idle task makes no system call, there is always a task to run. -/
theorem round_robin (b : Boot) (h : List (Iter Kernel Trap)) (k : Kernel)
    (r : b.Reaches h k) (hok : ∀ i ∈ h, i.mid.ReplyOk i.input) :
    (∀ trap m, enterTrap k trap = .ok m →
      ∃ c, m.currentTask = some c ∧ Chosen (becameReady h ++ k.preempted.toList) k c) ∧
    (∀ k₀, b.kernel = .ok k₀ → (k₀.task idleTask).pc = b.img.idleTask) ∧
    ((∀ i ∈ h, i.mid.currentTask = some idleTask → i.input.syscall = none) →
      ∃ c k', schedule k = .ok (some c, k')) := by
  obtain ⟨a, hrep, ho, hh, hin, hidle⟩ := r.inOrder hok
  refine ⟨fun trap m hm => ?_, fun k₀ hk₀ => ?_, fun hq => ?_⟩
  · obtain ⟨m', hm', hrepm⟩ := (hrep.enterTrap trap).ok_left hm
    obtain ⟨c, hent⟩ := AbsKernel.enterTrap_enters.mp hm'
    refine ⟨c, by rw [← hrepm.currentTask_eq, hent.current.1], ?_⟩
    cases hent with
    | @intro a₁ rq hr pop state =>
      obtain ⟨hready, hmax, l₁, l₂, hl, hnot, hlater⟩ :=
        (hin.wakes hr.wakes).first (ho.requeue hr) pop
      have hsch : ∀ t, k.Schedulable t ↔ (a₁.task t).state = .ready := fun t => by
        rw [hr.wakes.ready, hrep.state_eq, hrep.preempted_eq]
        exact Iff.rfl
      have hprio : ∀ t, (k.task t).priority = (a₁.task t).priority := fun t => by
        rw [hr.priority, hrep.priority_eq]
      rw [hrep.preempted_eq] at hl
      have hlater' : ∀ t, t ≠ c → k.Schedulable t →
          (k.task t).priority = (k.task c).priority → t ∈ l₂ := fun t htc ht he =>
        hlater t htc ((hsch t).mp ht) (by rw [← hprio, ← hprio, he])
      have hmax' : ∀ t, k.Schedulable t → (k.task t).priority ≤ (k.task c).priority :=
        fun t ht => by
          rw [hprio, hprio]
          exact hmax t ((hsch t).mp ht)
      refine ⟨(hsch c).mpr hready, hmax', ⟨l₁, l₂, hl, hnot, hlater'⟩, fun hpre t htc ht => ?_⟩
      refine lt_of_le_of_ne (hmax' t ht) fun he => ?_
      -- the log ends with `c`, so nothing was logged after it
      have hlast : l₂ = [] := by
        rw [hpre, Option.toList_some] at hl
        rcases List.eq_nil_or_concat l₂ with hnil | ⟨l', x, hx⟩
        · exact hnil
        · have hlx : becameReady h ++ [c] = (l₁ ++ c :: l') ++ [x] := by simpa [hx] using hl
          have hxc : c = x := by simpa using (List.append_inj' hlx rfl).2
          exact absurd (by simp [hx, hxc]) hnot
      have hin := hlater' t htc ht he
      rw [hlast] at hin
      cases hin
  · obtain ⟨a₀, ha₀, hrep₀⟩ := Refines.ok_left (y := AbsKernel.boot b) b.kernel_refines hk₀
    obtain ⟨-, -, hpc⟩ := AbsKernel.boot_inOrder ha₀
    rw [hrep₀.task_eq] at hpc
    exact hpc
  · obtain ⟨a₁, hr⟩ := ho.requeue_total hh
    have hready := (hidle hq).requeue ho.toWellFormed hr
    have hmem : idleTask ∈ a₁.readyq (a₁.task idleTask).prio := by
      have hocc := (ho.requeue hr).ready idleTask
      rw [if_pos hready] at hocc
      obtain ⟨p, hp⟩ := (occurs_pos_iff a₁.readyq idleTask).mp (by omega)
      rwa [(ho.requeue hr).ready_prio p idleTask hp]
    cases hpop : popHighest a₁.readyq with
    | none =>
      rw [popHighest_eq_none.mp hpop] at hmem
      cases hmem
    | some res =>
      obtain ⟨c, rq⟩ := res
      obtain ⟨⟨o, k'⟩, hk', hrel, -⟩ := hrep.schedule.ok_right
        (AbsKernel.schedule_eq_ok.mpr ⟨a₁, hr, Or.inr ⟨c, rq, rfl, hpop, rfl⟩⟩)
      obtain rfl : o = some c := hrel
      exact ⟨c, k', hk'⟩

/-- Two tasks of one priority take turns, and after a tick the preempted one goes behind. -/
theorem round_robin_run : ∃ hist k, zeroBoot.Reaches hist k ∧
    becameReady hist = [0, 1, 2, 0, 2, 0] ∧
    (∀ trap m, enterTrap k trap = .ok m →
      ∃ c, m.currentTask = some c ∧ Chosen (becameReady hist ++ k.preempted.toList) k c) ∧
    ∃ c k', schedule k = .ok (some c, k') := by
  obtain ⟨hist, k, r, -, hk⟩ := Boot.reaches_of_check zeroBoot
    [svc 1 [5], svc 2 [], svc 2 [], tick []]
    (fun h _ => decide (becameReady h = [0, 1, 2, 0, 2, 0] ∧
      (∀ i ∈ h, i.mid.ReplyOk i.input) ∧
      ∀ i ∈ h, i.mid.currentTask = some idleTask → i.input.syscall = none)) (by decide +kernel)
  obtain ⟨hlog, hok, hidle⟩ := of_decide_eq_true hk
  obtain ⟨h₁, -, h₂⟩ := round_robin zeroBoot hist k r hok
  exact ⟨hist, k, r, hlog, h₁, h₂ hidle⟩

end RealtimeKernel
