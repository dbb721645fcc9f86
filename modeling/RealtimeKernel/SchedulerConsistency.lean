import RealtimeKernel.KernelRuns

/-!
# Scheduler consistency

At every loop head of `kmain` the state of a task says which queue it is in: `readyq` holds the
ready tasks, each once and in the list of its priority, the irq queues hold the tasks that await
an event, each once, and only the current task is running.  From there no assertion of the
scheduler can fail and no pool runs out: an iteration returns, unless no task is ready or a tick
was missed.
-/

namespace RealtimeKernel

open Lib

/-- The trap is a registered system call, another synchronous exception, or timer 1. -/
def Trap.Known (trap : Trap) : Prop :=
  (∃ call, trap.syscall = some call) ∨
    (∃ esr, trap.cause = .sync esr ∧ exceptionClass esr ≠ svcClass) ∨
    ∃ chi clo, trap.cause = .irq waitTimer1 chi clo

/-- An AwaitEvent names an event that the kernel has a queue for. -/
def Trap.AwaitOk (trap : Trap) : Prop :=
  trap.syscall = some .awaitEvent → 0 ≤ toInt32 (trap.x 0) ∧ toInt32 (trap.x 0) < 1022

namespace AbsKernel

/-- The assertion at the start of `schedule` holds. -/
def HeadOk (a : AbsKernel) : Prop := ∀ c, a.currentTask = some c → (a.task c).state ≠ .ready

variable {a a' m : AbsKernel} {img : Image} {c : TaskPtr} {trap : Trap}

/-- No handler makes the task ready that it was called for. -/
theorem Effect.headOk (he : Effect img a c trap a') (h : a.WellFormed)
    (hc : a.currentTask = some c) (hrun : (a.task c).state = .running) : a'.HeadOk := by
  have hself : ∀ {b : AbsKernel}, b.currentTask = some c → (b.task c).state ≠ .ready →
      b.HeadOk := by
    intro b hb hs c' hc'
    obtain rfl : c = c' := Option.some.inj (hb.symm.trans hc')
    exact hs
  have hne : ∀ {t : TaskPtr}, (a.task t).state ≠ .running → c ≠ t := by
    rintro t ht rfl
    exact ht hrun
  cases he with
  | ignored => exact hself hc (by simp [hrun])
  | yielded => exact hself hc (by simp [hrun])
  | toldTid => exact hself hc (by simp [hrun])
  | toldParentTid => exact hself hc (by simp [hrun])
  | @created t free block used call hfree alloc room push =>
    have hct : c ≠ t := fun he => h.current_free c hc (he ▸ by simp [hfree])
    refine hself hc ?_
    rw [assign_state, makeReady_task, setState_state, if_neg hct]
    simp [addTask, hct, hrun]
  | createFailed => exact hself hc (by simp [hrun])
  | exited =>
    intro c' hc'
    cases hc'
  | sendNoTask => exact hself hc (by simp [hrun])
  | sendDirect => exact hself hc (by simp [setState_state])
  | sendQueued => exact hself hc (by simp [setState_state])
  | sendFull => exact hself hc (by simp [hrun])
  | receiveBlocked => exact hself hc (by simp [setState_state])
  | receiveVanished =>
    refine hself hc ?_
    rw [assign_state, (task_nextSender a c c).2.2, hrun]
    decide
  | @received s =>
    refine hself hc ?_
    rw [setState_state]
    split
    · decide
    · rw [assign_state, setMem_task, (task_nextSender a c c).2.2, hrun]
      decide
  | replyNoTask => exact hself hc (by simp [hrun])
  | replied call lookup state push =>
    refine hself hc ?_
    rw [assign_state, makeReady_task, setState_state, if_neg (hne state), assign_state,
      setMem_task, hrun]
    decide
  | repliedRunning => exact hself hc (by simp [hrun])
  | awaited => exact hself hc (by simp [setState_state])
  | tickIdle => exact hself hc (by simp [hrun])
  | tickWoke cause tick pop state push =>
    have hct := hne (t := _) (by rw [state]; decide)
    refine hself hc ?_
    rw [makeReady_task, setState_state, if_neg hct, hrun]
    decide

/-- The first half of `schedule` fails no assertion. -/
theorem Orderly.requeue_total (h : a.Orderly) (hh : a.HeadOk) : ∃ a₁, Requeue a a₁ := by
  cases hc : a.currentTask with
  | none => exact ⟨a, .gone hc⟩
  | some c =>
    by_cases hs : (a.task c).state = .running
    · exact ⟨_, .running hc hs (h.pushable (by rw [hs]; decide))⟩
    · refine ⟨a, .blocked hc ?_⟩
      have := hh c hc
      cases hst : (a.task c).state <;> simp_all [TaskState.beforeReady]

/-- From an orderly loop head, `schedule` and `activate` fail no assertion: the kernel reaches
the handler, or finds no ready task. -/
theorem Orderly.enter_total (h : a.Orderly) (hh : a.HeadOk) (trap : Trap) :
    a.enterTrap trap = .error .allTasksFinished ∨ ∃ c m, Enters a trap c m := by
  obtain ⟨a₁, hrq⟩ := h.requeue_total hh
  cases hpop : popHighest a₁.readyq with
  | none =>
    have hs : a.schedule = .ok (none, a₁) :=
      schedule_eq_ok.mpr ⟨a₁, hrq, Or.inl ⟨rfl, popHighest_eq_none.mp hpop, rfl⟩⟩
    left
    simp [enterTrap, hs]
  | some r =>
    obtain ⟨c, rq⟩ := r
    obtain ⟨⟨p, hp⟩, -⟩ := mem_of_popHighest hpop
    have hready := (h.requeue hrq).toConsistent.mem_ready hp
    exact Or.inr ⟨c, _, .intro hrq hpop (by rw [hready]; decide)⟩

/-- A system call of an orderly state returns, unless it replies to a ready task or names an
unknown event. -/
theorem Orderly.syscall_total (h : m.Orderly) (hc : m.currentTask = some c)
    (hrun : (m.task c).state = .running) {call : Syscall} (hcall : trap.syscall = some call)
    (hreply : call = .reply → ∀ s, m.getTaskByTid (toInt32 ((m.task c).x 0)) = some s →
      (m.task s).state ≠ .ready)
    (hawait : call = .awaitEvent →
      0 ≤ toInt32 ((m.task c).x 0) ∧ toInt32 ((m.task c).x 0) < 1022) :
    ∃ a', m.handleCurrentException img trap = .ok a' := by
  have hdone : ∀ {a'}, Effect img m c trap a' →
      ∃ a', m.handleCurrentException img trap = .ok a' :=
    fun he => ⟨_, effect_handle hc hrun he⟩
  have hlive : c ∈ m.jobq := h.live_of_state (by rw [hrun]; decide)
  cases call with
  | create =>
    cases hfree : m.free with
    | nil => exact hdone (.createFailed hcall hfree)
    | cons t free =>
      obtain ⟨⟨block, used, alloc⟩, room⟩ := h.toWellFormed.create_resources
        (by rw [hfree]; exact List.cons_ne_nil t free)
      exact hdone (.created hcall hfree alloc room (h.addTask_pushable hfree alloc))
  | yield => exact hdone (.yielded hcall)
  | exit =>
    obtain ⟨block, hb⟩ := Option.ne_none_iff_exists'.mp (h.block c hlive)
    exact hdone (.exited hcall hlive hb)
  | myTid => exact hdone (.toldTid hcall)
  | myParentTid => exact hdone (.toldParentTid hcall)
  | send =>
    cases hl : m.getTaskByTid (toInt32 ((m.task c).x 0)) with
    | none => exact hdone (.sendNoTask hcall hl)
    | some r =>
      by_cases hr : (m.task r).state = .waitreceive
      · exact hdone (.sendDirect hcall hl hr (h.pushable (by rw [hr]; decide)))
      · cases hroom : (registerSender (m.task r) (m.task c).tid).1 with
        | true => exact hdone (.sendQueued hcall hl hr hroom)
        | false => exact hdone (.sendFull hcall hl hr hroom)
  | receive =>
    cases hq : queueIsEmpty (m.task c).senders with
    | true => exact hdone (.receiveBlocked hcall hq)
    | false =>
      obtain ⟨s, -, -, hl, hst⟩ := h.toRings.nextSender h.toWellFormed hq
      exact hdone (.received hcall hq hl (by rw [hst]; decide))
  | reply =>
    cases hl : m.getTaskByTid (toInt32 ((m.task c).x 0)) with
    | none => exact hdone (.replyNoTask hcall hl)
    | some s =>
      by_cases hs : (m.task s).state = .running
      · exact hdone (.repliedRunning hcall hl hs)
      · exact hdone (.replied hcall hl hs (h.pushable (hreply rfl s hl)))
  | awaitEvent =>
    obtain ⟨hl, hu⟩ := hawait rfl
    let i : Fin numInterrupt :=
      ⟨(toInt32 ((m.task c).x 0)).toNat, toNat_lt_numInterrupt ⟨hl, hu⟩⟩
    have hi : (i : ℤ) = toInt32 ((m.task c).x 0) := Int.toNat_of_nonneg hl
    have hiu : (i : ℤ) < 1022 := by
      rw [hi]
      exact hu
    exact hdone (.awaited (i := i) hcall ⟨hi, hiu⟩ (h.prio c)
      (h.toConsistent.irq_room (t := c) (by rw [hrun]; decide)))

/-- A tick that is not missed is handled. -/
theorem Orderly.tick_total (h : m.Orderly) (hc : m.currentTask = some c)
    (hrun : (m.task c).state = .running) {chi clo : U32} {clocks : Clocks}
    (hcause : trap.cause = .irq waitTimer1 chi clo)
    (htick : sysClockNotifyTick m.clocks 1 chi clo = .ok clocks) :
    ∃ a', m.handleCurrentException img trap = .ok a' := by
  cases hpop : popHighest (m.irqq timer1) with
  | none =>
    exact ⟨_, effect_handle hc hrun (.tickIdle hcause htick (popHighest_eq_none.mp hpop))⟩
  | some r =>
    obtain ⟨t, q⟩ := r
    obtain ⟨⟨p, hp⟩, -⟩ := mem_of_popHighest hpop
    have ht := h.toConsistent.mem_irq hp
    exact ⟨_, effect_handle hc hrun
      (.tickWoke hcause htick hpop ht (h.pushable (by rw [ht]; decide)))⟩

/-- Every handler of an orderly state returns, apart from the assertion about missed ticks. -/
theorem Orderly.handle_total (h : m.Orderly) (hc : m.currentTask = some c)
    (hrun : (m.task c).state = .running) (hx : (m.task c).x = trap.x) (hok : m.ReplyOk trap)
    (hawait : trap.AwaitOk) (hknown : trap.Known) :
    m.handleCurrentException img trap = .error .tickMissed ∨
      ∃ a', m.handleCurrentException img trap = .ok a' := by
  rcases hknown with ⟨call, hcall⟩ | ⟨esr, hcause, hcls⟩ | ⟨chi, clo, hcause⟩
  · refine Or.inr (h.syscall_total hc hrun hcall (fun he s hl => ?_) fun he => ?_)
    · rw [hok (he ▸ hcall) s (hx ▸ hl)]
      decide
    · rw [hx]
      exact hawait (he ▸ hcall)
  · exact Or.inr ⟨_, effect_handle hc hrun (.ignored hcause hcls)⟩
  · cases htick : sysClockNotifyTick m.clocks 1 chi clo with
    | error e =>
      left
      obtain rfl : e = .tickMissed := by
        unfold sysClockNotifyTick at htick
        simp only at htick
        split at htick
        · cases htick
        · exact (Except.error.inj htick).symm
      simp [handleCurrentException, hcause, handleIrq, htick]
    | ok clocks => exact Or.inr (h.tick_total hc hrun hcause htick)

/-- **Every loop head satisfies the assertion of `schedule`.** -/
theorem Reaches.headOk {b : Boot} {h : List (Iter AbsKernel Trap)} (r : Reaches b h a) :
    a.HeadOk := by
  obtain ⟨a₀, ha₀, hrun⟩ := r
  obtain ⟨a₁, ha₁, ho, hfresh⟩ := boot_ok b
  obtain rfl : a₀ = a₁ := Except.ok.inj (ha₀.symm.trans ha₁)
  refine (hrun.invariant (I := fun a => a.WellFormed ∧ a.HeadOk) (P := fun _ => True)
    ⟨ho.toWellFormed, fun c hc => ?_⟩ (fun _ _ => trivial) ?_).2
  · rw [hfresh.current] at hc
    cases hc
  · intro s trap m s' hs _ hm hs'
    obtain ⟨c, hst⟩ := step_of_body b.img hm hs'
    obtain ⟨hwm, hws⟩ := hst.wellFormed hs.1
    exact ⟨hws, hst.effect.headOk hwm hst.enters.current.1 hst.enters.current.2.1⟩

end AbsKernel

/-- The ready queue, the running task and the irq queues agree with the states of the tasks. -/
structure SchedulerConsistent (k : Kernel) : Prop where
  /-- A live ready task occurs once, in the list of its priority; nothing else occurs. -/
  ready : ∀ t (p : Fin taskPriorityMax), (k.ready p).count t =
    if t ∈ k.live ∧ (k.task t).state = .ready ∧ (p : ℤ) = (k.task t).priority then 1 else 0
  running : ∀ t, (k.task t).state = .running → k.currentTask = some t
  /-- A live task that awaits an event occurs once in exactly one irq queue. -/
  awaiting : ∀ t ∈ k.live, (k.task t).state = .awatievent →
    ∃ i p, (k.waiters i p).count t = 1 ∧ ∀ j q, t ∈ k.waiters j q → j = i ∧ q = p
  /-- Nothing else occurs in the irq queues. -/
  waiters : ∀ i p, ∀ t ∈ k.waiters i p, t ∈ k.live ∧ (k.task t).state = .awatievent

theorem Rep.schedulerConsistent {k : Kernel} {a : AbsKernel} (h : Rep k a) (ho : a.Orderly) :
    SchedulerConsistent k := by
  have hlive : ∀ t, t ∈ k.live ↔ t ∈ a.jobq := fun t => by rw [h.live_eq]
  refine ⟨fun t p => ?_, fun t ht => ?_, fun t ht hs => ?_, fun i p t ht => ?_⟩
  · rw [h.ready_eq, h.live_eq, ← h.state_eq]
    have hprio : (a.task t).priority = (k.task t).priority := by
      rw [h.task_eq]
      rfl
    rw [← hprio, ← Task.prio_val (ho.prio t)]
    have hocc := ho.toConsistent.ready t
    by_cases hs : (a.task t).state = .ready
    · rw [if_pos hs] at hocc
      have hj : t ∈ a.jobq := ho.live_of_state (by rw [hs]; decide)
      obtain ⟨q, hq⟩ := (occurs_pos_iff a.readyq t).mp (by omega)
      have hpq := ho.toConsistent.ready_prio q t hq
      by_cases hp : p = (a.task t).prio
      · subst hp
        rw [if_pos ⟨hj, hs, rfl⟩, hpq]
        have h₁ := count_le_occurs a.readyq q t
        have h₂ := List.count_pos_iff.mpr hq
        omega
      · have hnot : ¬ ((p : ℤ) = ((a.task t).prio : ℕ)) := fun he =>
          hp (Fin.ext (by exact_mod_cast he))
        rw [if_neg fun hall => hnot hall.2.2, List.count_eq_zero]
        exact fun hin => hp (ho.toConsistent.ready_prio p t hin).symm
    · rw [if_neg hs] at hocc
      rw [if_neg fun hall => hs hall.2.1]
      have := count_le_occurs a.readyq p t
      omega
  · rw [← h.currentTask_eq]
    exact ho.running t (by rw [h.state_eq]; exact ht)
  · rw [← h.state_eq] at hs
    have hocc := ho.toConsistent.irq t
    rw [if_pos hs] at hocc
    obtain ⟨⟨i, p⟩, hip⟩ := (occurs_pos_iff (cells a.irqq) t).mp (by omega)
    refine ⟨i, p, ?_, fun j q hjq => ?_⟩
    · rw [h.waiters_eq]
      have h₁ := count_le_occurs (cells a.irqq) (i, p) t
      have h₂ := List.count_pos_iff.mpr hip
      simp only [cells] at h₁ h₂
      omega
    · rw [h.waiters_eq] at hjq
      have := eq_of_occurs_le_one (c := cells a.irqq) (by omega) (i := (j, q)) (j := (i, p)) hjq
        hip
      exact ⟨congrArg Prod.fst this, congrArg Prod.snd this⟩
  · rw [h.waiters_eq] at ht
    have hs := ho.toConsistent.mem_irq ht
    rw [hlive, ← h.state_eq]
    exact ⟨ho.live_of_state (by rw [hs]; decide), hs⟩

/-- **Scheduler consistency.**  The kernel boots, and in every run whose Replies name tasks in
state `WATIREPLY` only, the queues agree with the states of the tasks at every loop head.  The
next iteration then stops only for want of a ready task or because a tick was missed. -/
theorem scheduler_consistency (b : Boot) :
    (∃ k₀, b.kernel = .ok k₀) ∧
    ∀ h k, b.Reaches h k → (∀ i ∈ h, i.mid.ReplyOk i.input) →
      SchedulerConsistent k ∧
      (∀ trap e, enterTrap k trap = .error e → e = .allTasksFinished) ∧
      ∀ trap m e, enterTrap k trap = .ok m → m.ReplyOk trap → trap.AwaitOk → trap.Known →
        handleCurrentException b.img m trap = .error e → e = .tickMissed := by
  refine ⟨b.kernel_ok, fun h k r hok => ?_⟩
  obtain ⟨h', a, r', hka, -, -, ho⟩ := r.orderly hok
  refine ⟨hka.schedulerConsistent ho, fun trap e he => ?_, fun trap m e hm hr ha hk he => ?_⟩
  · have he' := (hka.enterTrap trap).error_left he
    rcases ho.enter_total r'.headOk trap with hfin | ⟨c, m, hent⟩
    · exact Except.error.inj (he'.symm.trans hfin)
    · rw [AbsKernel.enterTrap_enters.mpr ⟨c, hent⟩] at he'
      cases he'
  · obtain ⟨m', hm', hrep⟩ := (hka.enterTrap trap).ok_left hm
    obtain ⟨c, hent⟩ := AbsKernel.enterTrap_enters.mp hm'
    obtain ⟨hc, hrun, hx, -⟩ := hent.current
    have he' := (hrep.handleCurrentException b.img trap).error_left he
    rcases (ho.enters hent).handle_total hc hrun hx (hrep.replyOk hr) ha hk with hmiss | ⟨a', hok'⟩
    · exact Except.error.inj (he'.symm.trans hmiss)
    · rw [hok'] at he'
      cases he'

/-- A run with a Create, a blocked Receive, an AwaitEvent and a timer interrupt. -/
theorem scheduler_consistency_run :
    ∃ hist k, zeroBoot.Reaches hist k ∧ hist.length = 4 ∧ k.live.length = 3 ∧
      SchedulerConsistent k := by
  obtain ⟨hist, k, r, -, hk⟩ := Boot.reaches_of_check zeroBoot
    [svc 1 [7, 0], svc 22 [], svc 31 [97], tick []]
    (fun h k => decide (h.length = 4 ∧ k.live.length = 3 ∧
      ∀ i ∈ h, i.mid.ReplyOk i.input)) (by decide +kernel)
  obtain ⟨hlen, hlive, hok⟩ := of_decide_eq_true hk
  exact ⟨hist, k, r, hlen, hlive, ((scheduler_consistency zeroBoot).2 hist k r hok).1⟩

end RealtimeKernel
