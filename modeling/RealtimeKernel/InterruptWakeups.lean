import RealtimeKernel.RoundRobin

/-!
# Waiting for interrupts

The kernel registers one interrupt handler, but `sys_await_event` lets a task wait for any id, and
`wake_up_irq_blocked_tasks` wakes a waiter of any.  `kmainLoopWith table` is the loop of `kmain`
with an arbitrary table of handlers; the kernel's own is one instance.  The irq queues list the
tasks that await an event by its id and their priority, in the order of their last `AwaitEvent`,
so an interrupt wakes, among the waiters of the highest priority, the one that asked first.
-/

namespace RealtimeKernel

open Lib

/-! ### Arbitrary interrupt handlers -/

/-- `irq_handlers`: a handler reads the two timer registers and may set the clocks. -/
abbrev IrqHandlers := ℕ → Option (Clocks → U32 → U32 → Except Halt Clocks)

/-- What `init_exception_handlers` registers. -/
def irqHandlers : IrqHandlers := fun intid =>
  if intid = waitTimer1 then some fun clocks => sysClockNotifyTick clocks 1 else none

def handleIrqWith (table : IrqHandlers) (k : Kernel) (intid : ℕ) (chi clo : U32) :
    Except Halt Kernel :=
  match table intid with
  | some handler => do
    let clocks ← handler k.clocks chi clo
    wakeUpIrqBlockedTasks { k with clocks := clocks } intid
  | none => .error .irqNotImplemented

def handleExceptionWith (table : IrqHandlers) (img : Image) (k : Kernel) (trap : Trap) :
    Except Halt Kernel :=
  match trap.cause with
  | .sync esr => handleSynchronousException img k esr
  | .irq intid chi clo => handleIrqWith table k intid chi clo

/-- The loop of `kmain` with the handlers of the table. -/
def kmainLoopWith (table : IrqHandlers) (img : Image) : Loop Kernel Trap Halt where
  enter := enterTrap
  handle := handleExceptionWith table img

/-- The kernel is the instance of its own table. -/
theorem kmainLoopWith_irqHandlers (img : Image) :
    kmainLoopWith irqHandlers img = kmainLoop img := by
  have hirq : ∀ k intid chi clo, handleIrqWith irqHandlers k intid chi clo
      = handleIrq k intid chi clo := by
    intro k intid chi clo
    unfold handleIrqWith handleIrq irqHandlers handleTimer1
    by_cases hid : intid = waitTimer1
    · rw [if_pos hid, if_pos hid]
      show (sysClockNotifyTick k.clocks 1 chi clo >>= _) = _
      cases sysClockNotifyTick k.clocks 1 chi clo with
      | error e => rfl
      | ok clocks => rfl
    · rw [if_neg hid, if_neg hid]
  unfold kmainLoopWith kmainLoop
  congr 1
  funext k trap
  unfold handleExceptionWith handleCurrentException
  cases trap.cause with
  | sync esr => rfl
  | irq intid chi clo => exact hirq k intid chi clo

/-! ### The calls of `AwaitEvent` -/

/-- The calls of `AwaitEvent` in a history: who called, and for which id. -/
def awaitCalls (h : List (Iter Kernel Trap)) : List (TaskPtr × ℤ) :=
  h.filterMap fun i => if i.input.syscall = some .awaitEvent then
    i.mid.currentTask.map fun c => (c, toInt32 (i.input.x 0)) else none

/-- The id that the task asked for in its last call. -/
def lastEvent (calls : List (TaskPtr × ℤ)) (t : TaskPtr) : Option ℤ :=
  (calls.reverse.find? fun e => e.1 = t).map Prod.snd

theorem lastEvent_concat (calls : List (TaskPtr × ℤ)) (c t : TaskPtr) (id : ℤ) :
    lastEvent (calls ++ [(c, id)]) t = if c = t then some id else lastEvent calls t := by
  unfold lastEvent
  rw [List.reverse_append, List.reverse_singleton, List.singleton_append, List.find?_cons]
  by_cases hc : c = t
  · simp [hc]
  · simp [hc]

theorem mem_of_lastEvent {calls : List (TaskPtr × ℤ)} {t : TaskPtr} {id : ℤ}
    (h : lastEvent calls t = some id) : t ∈ calls.map Prod.fst := by
  obtain ⟨e, he, rfl⟩ := Option.map_eq_some_iff.mp h
  have hmem := List.mem_reverse.mp (List.mem_of_find?_eq_some he)
  have het : e.1 = t := by simpa using List.find?_some he
  exact List.mem_map.mpr ⟨e, hmem, het⟩

theorem awaitCalls_snoc (h : List (Iter Kernel Trap)) (i : Iter Kernel Trap) :
    awaitCalls (h ++ [i]) = awaitCalls h ++ awaitCalls [i] := List.filterMap_append

theorem awaitCalls_of_ne {i : Iter Kernel Trap} (hi : i.input.syscall ≠ some .awaitEvent) :
    awaitCalls [i] = [] := by
  unfold awaitCalls
  rw [List.filterMap_cons, if_neg hi]
  rfl

theorem awaitCalls_of_eq {i : Iter Kernel Trap} {c : TaskPtr}
    (hi : i.input.syscall = some .awaitEvent) (hc : i.mid.currentTask = some c) :
    awaitCalls [i] = [(c, toInt32 (i.input.x 0))] := by
  unfold awaitCalls
  rw [List.filterMap_cons, if_pos hi, hc]
  rfl

namespace AbsKernel

variable {a a' m : AbsKernel} {img : Image} {c t : TaskPtr} {trap : Trap}
  {calls : List (TaskPtr × ℤ)} {i : Fin numInterrupt} {p : Fin taskPriorityMax} {clocks : Clocks}

/-! ### The irq queues in the order of the calls -/

/-- `t` awaits the event `i` and has the priority `p`. -/
def awaitsAt (calls : List (TaskPtr × ℤ)) (a : AbsKernel) (i : Fin numInterrupt)
    (p : Fin taskPriorityMax) (t : TaskPtr) : Bool :=
  (a.task t).state = .awatievent ∧ lastEvent calls t = some (i : ℤ) ∧ (a.task t).prio = p

/-- The irq queues list the waiting tasks in the order of their last calls. -/
def Awaiting (calls : List (TaskPtr × ℤ)) (a : AbsKernel) : Prop :=
  ∀ i p, a.irqq i p = recency (calls.map Prod.fst) (a.awaitsAt calls i p)

theorem Awaiting.mem_iff (h : Awaiting calls a) :
    t ∈ a.irqq i p ↔ (a.task t).state = .awatievent ∧ lastEvent calls t = some (i : ℤ) ∧
      (a.task t).prio = p := by
  rw [h i p, mem_recency]
  constructor
  · rintro ⟨-, ht⟩
    exact of_decide_eq_true ht
  · intro ht
    exact ⟨mem_of_lastEvent ht.2.1, decide_eq_true ht⟩

/-- Nothing that matters to the irq queues changes. -/
structure KeepsWaiting (a a' : AbsKernel) : Prop where
  queue : a'.irqq = a.irqq
  state : ∀ t, (a'.task t).state = .awatievent ↔ (a.task t).state = .awatievent
  prio : ∀ t, (a.task t).state = .awatievent → (a'.task t).prio = (a.task t).prio

theorem Awaiting.still (h : Awaiting calls a) (hk : KeepsWaiting a a') : Awaiting calls a' := by
  intro i p
  rw [hk.queue, h i p]
  apply recency_congr
  intro t
  refine decide_eq_decide.mpr ?_
  rw [hk.state]
  exact and_congr_right fun hs => by rw [hk.prio t hs]

/-- The running task calls `AwaitEvent`. -/
theorem Awaiting.join (h : Awaiting calls a) (hrun : (a.task c).state = .running)
    (i : Fin numInterrupt) : Awaiting (calls ++ [(c, (i : ℤ))]) { a.setState c .awatievent with
      irqq := Function.update a.irqq i (pushAt (a.irqq i) (a.task c).prio c) } := by
  let a' : AbsKernel := { a.setState c .awatievent with
    irqq := Function.update a.irqq i (pushAt (a.irqq i) (a.task c).prio c) }
  have hstate : (a'.task c).state = .awatievent := by
    show ((a.setState c .awatievent).task c).state = _
    rw [setState_state, if_pos rfl]
  have hprio : (a'.task c).prio = (a.task c).prio := setState_prio a c c .awatievent
  intro j p
  have hold : ∀ t ≠ c, awaitsAt (calls ++ [(c, (i : ℤ))]) a' j p t = awaitsAt calls a j p t := by
    intro t ht
    have htask : a'.task t = a.task t := by
      show (a.setState c .awatievent).task t = _
      simp [setState, ht]
    unfold awaitsAt
    rw [lastEvent_concat, if_neg (Ne.symm ht), htask]
  have hnew : awaitsAt (calls ++ [(c, (i : ℤ))]) a' j p c
      = decide (i = j ∧ (a.task c).prio = p) := by
    refine decide_eq_decide.mpr ?_
    rw [lastEvent_concat, if_pos rfl, hprio, Option.some.injEq, Nat.cast_inj, Fin.val_inj]
    exact and_iff_right hstate
  have hfresh : awaitsAt calls a j p c = false := by simp [awaitsAt, hrun]
  rw [List.map_append, List.map_singleton, recency_concat hfresh hold, ← h j p, hnew]
  show Function.update a.irqq i (pushAt (a.irqq i) (a.task c).prio c) j p = _
  by_cases hj : i = j
  · subst hj
    rw [Function.update_self]
    by_cases hp : (a.task c).prio = p
    · subst hp
      simp [pushAt]
    · have hp' : p ≠ (a.task c).prio := fun he => hp he.symm
      simp [pushAt, hp, hp']
  · rw [Function.update_of_ne (Ne.symm hj)]
    simp [hj]

/-- The head of the highest list that is not empty is taken out of the lists. -/
theorem Awaiting.irqq_leave {q : Fin taskPriorityMax → List TaskPtr} (h : Awaiting calls a)
    (pop : popHighest (a.irqq i) = some (t, q)) (j : Fin numInterrupt) (p : Fin taskPriorityMax) :
    Function.update a.irqq i q j p = (a.irqq j p).erase t := by
  obtain ⟨r, rest, hr, -, rfl⟩ := popHighest_eq_some.mp pop
  obtain ⟨-, hlast, hprio⟩ := h.mem_iff.mp (show t ∈ a.irqq i r by simp [hr])
  by_cases hj : j = i
  · subst hj
    rw [Function.update_self]
    by_cases hp : p = r
    · subst hp
      rw [Function.update_self, hr, List.erase_cons_head]
    · have hnot : t ∉ a.irqq j p := fun hin => hp ((h.mem_iff.mp hin).2.2.symm.trans hprio)
      rw [Function.update_of_ne hp, List.erase_of_not_mem hnot]
  · have hnot : t ∉ a.irqq j p := by
      intro hin
      have he := (h.mem_iff.mp hin).2.1.symm.trans hlast
      rw [Option.some.injEq, Nat.cast_inj, Fin.val_inj] at he
      exact hj he
    rw [Function.update_of_ne hj, List.erase_of_not_mem hnot]

theorem Awaiting.leave {q : Fin taskPriorityMax → List TaskPtr} (h : Awaiting calls a)
    (clocks : Clocks) (pop : popHighest (a.irqq i) = some (t, q)) :
    Awaiting calls (({ a with clocks := clocks, irqq := Function.update a.irqq i q } :
      AbsKernel).makeReady t) := by
  intro j p
  have heq : recency (calls.map Prod.fst) (awaitsAt calls (({ a with
        clocks := clocks, irqq := Function.update a.irqq i q } : AbsKernel).makeReady t) j p)
      = (recency (calls.map Prod.fst) (a.awaitsAt calls j p)).erase t := by
    refine recency_erase ?_ fun u hu => ?_
    · simp [awaitsAt, setState]
    · simp [awaitsAt, setState, hu]
  rw [heq, ← h j p]
  exact h.irqq_leave pop j p

/-! ### What leaves the irq queues alone -/

namespace KeepsWaiting

theorem refl (a : AbsKernel) : KeepsWaiting a a := ⟨rfl, fun _ => Iff.rfl, fun _ _ => rfl⟩

theorem trans {b : AbsKernel} (h₁ : KeepsWaiting a b) (h₂ : KeepsWaiting b a') :
    KeepsWaiting a a' where
  queue := h₂.queue.trans h₁.queue
  state := fun t => (h₂.state t).trans (h₁.state t)
  prio := fun t ht => (h₂.prio t ((h₁.state t).mpr ht)).trans (h₁.prio t ht)

theorem setMem (a : AbsKernel) (mem : Mem) : KeepsWaiting a (a.setMem mem) :=
  ⟨rfl, fun _ => Iff.rfl, fun _ _ => rfl⟩

/-- A change of one descriptor that is not waiting, before and after. -/
theorem of_task (queue : a'.irqq = a.irqq) (ht : (a.task t).state ≠ .awatievent)
    (ht' : (a'.task t).state ≠ .awatievent) (others : ∀ u, u ≠ t → a'.task u = a.task u) :
    KeepsWaiting a a' where
  queue := queue
  state := by
    intro u
    by_cases hut : u = t
    · subst hut
      exact iff_of_false ht' ht
    · rw [others u hut]
  prio := by
    intro u hu
    have hut : u ≠ t := by
      rintro rfl
      exact ht hu
    rw [others u hut]

theorem modify {f : Task → Task}
    (hf : (f (a.task t)).state = (a.task t).state ∧ (f (a.task t)).prio = (a.task t).prio) :
    KeepsWaiting a (a.modify t f) :=
  ⟨rfl, fun u => by rw [modify_field a t f Task.state hf.1],
    fun u _ => modify_field a t f Task.prio hf.2 u⟩

theorem assign (a : AbsKernel) (t : TaskPtr) (v : ℤ) : KeepsWaiting a (a.assign t v) :=
  .modify ⟨rfl, rfl⟩

theorem setState {s : TaskState} (ht : (a.task t).state ≠ .awatievent) (hs : s ≠ .awatievent) :
    KeepsWaiting a (a.setState t s) := by
  refine .of_task rfl ht ?_ fun u hu => ?_
  · rwa [setState_state, if_pos rfl]
  · simp [AbsKernel.setState, hu]

theorem makeReady (ht : (a.task t).state ≠ .awatievent) : KeepsWaiting a (a.makeReady t) := by
  have hs : KeepsWaiting a (a.setState t .ready) := .setState ht (by decide)
  exact ⟨hs.queue, hs.state, hs.prio⟩

end KeepsWaiting

theorem Enters.keepsWaiting (he : Enters a trap c m) (h : a.Orderly) : KeepsWaiting a m := by
  cases he with
  | @intro a₁ rq hr pop state =>
    have h₁ := h.requeue hr
    obtain ⟨⟨p, hp⟩, -⟩ := mem_of_popHighest pop
    have hready : (a₁.task c).state = .ready := h₁.toConsistent.mem_ready hp
    have hkeep₁ : KeepsWaiting a a₁ := by
      cases hr with
      | running current hrun push =>
        apply KeepsWaiting.makeReady
        rw [hrun]
        decide
      | blocked => exact .refl a
      | gone => exact .refl a
    refine hkeep₁.trans (.of_task rfl ?_ ?_ fun u hu => dispatch_task_of_ne _ _ _ _ hu)
    · rw [hready]
      decide
    · simp [dispatch, saveContext]

/-- **Only `AwaitEvent` and interrupts touch the irq queues.** -/
theorem Effect.keepsWaiting (he : Effect img a c trap a') (h : a.Orderly)
    (hrun : (a.task c).state = .running) (hx : (a.task c).x = trap.x) (hok : a.ReplyOk trap)
    (hcall : trap.syscall ≠ some .awaitEvent)
    (hirq : ∀ intid chi clo, trap.cause ≠ .irq intid chi clo) : KeepsWaiting a a' := by
  have hca : (a.task c).state ≠ .awatievent := by
    rw [hrun]
    decide
  cases he with
  | ignored => exact .refl a
  | yielded => exact .refl a
  | toldTid => exact .assign a c _
  | toldParentTid => exact .assign a c _
  | @created t free block used call hfree alloc room push =>
    have ht : (a.task t).state ≠ .awatievent := by
      rw [h.dead t (h.free_jobq t (by simp [hfree]))]
      decide
    refine KeepsWaiting.trans (b := (a.addTask img _ _ _ t free block used).makeReady t)
      (.of_task (t := t) rfl ht ?_ fun u hu => ?_) (.assign _ c _)
    · rw [makeReady_task, setState_state, if_pos rfl]
      decide
    · simp [setState, addTask, hu]
  | createFailed => exact .assign a c _
  | exited call live hblock =>
    refine .of_task (t := c) rfl hca ?_ fun u hu => ?_
    · simp [removed, taskInit]
    · simp [removed, hu]
  | sendNoTask => exact .assign a c _
  | @sendDirect r call lookup state push =>
    have hrc : c ≠ r := by
      rintro rfl
      rw [hrun] at state
      cases state
    refine ((KeepsWaiting.setMem a _).trans (.assign _ r _)).trans
      (.trans (.makeReady ?_) (.setState ?_ (by decide)))
    · rw [assign_state, setMem_task, state]
      decide
    · rw [makeReady_task, setState_state, if_neg hrc, assign_state, setMem_task]
      exact hca
  | @sendQueued r call lookup state room =>
    refine KeepsWaiting.trans (.modify ⟨rfl, rfl⟩) (.setState ?_ (by decide))
    rw [modify_field a r _ Task.state rfl]
    exact hca
  | sendFull => exact .assign a c _
  | receiveBlocked => exact .setState hca (by decide)
  | receiveVanished => exact KeepsWaiting.trans (.modify ⟨rfl, rfl⟩) (.assign _ c _)
  | @received s call nonempty lookup state =>
    obtain ⟨s', -, -, hl, hst⟩ := h.toRings.nextSender h.toWellFormed nonempty
    obtain rfl : s = s' := Option.some.inj (lookup.symm.trans hl)
    refine KeepsWaiting.trans (.modify ⟨rfl, rfl⟩) ((KeepsWaiting.setMem _ _).trans
      (.trans (.assign _ c _) (.setState ?_ (by decide))))
    rw [assign_state, setMem_task, (task_nextSender a c s).2.2, hst]
    decide
  | replyNoTask => exact .assign a c _
  | @replied s call lookup state push =>
    refine ((KeepsWaiting.setMem a _).trans (.assign _ s _)).trans
      (.trans (.makeReady ?_) (.assign _ c _))
    rw [assign_state, setMem_task, hok call s (hx ▸ lookup)]
    decide
  | repliedRunning => exact ((KeepsWaiting.setMem a _).trans (.assign _ _ _)).trans (.assign _ c _)
  | awaited call => exact absurd call hcall
  | tickIdle cause => exact absurd cause (hirq _ _ _)
  | tickWoke cause => exact absurd cause (hirq _ _ _)

/-! ### Interrupts -/

/-- What an interrupt on `i` does once the handler has set the clocks. -/
inductive Signal (a : AbsKernel) (i : Fin numInterrupt) (clocks : Clocks) : AbsKernel → Prop
  | idle (empty : ∀ p, a.irqq i p = []) : Signal a i clocks { a with clocks := clocks }
  | woke {t : TaskPtr} {q : Fin taskPriorityMax → List TaskPtr}
      (pop : popHighest (a.irqq i) = some (t, q)) :
      Signal a i clocks (({ a with
        clocks := clocks, irqq := Function.update a.irqq i q } : AbsKernel).makeReady t)

theorem wakeUp_signal (hi : i.val < 1022)
    (h : wakeUpIrqBlockedTasks { a with clocks := clocks } i.val = .ok a') :
    Signal a i clocks a' := by
  rw [wakeUpIrqBlockedTasks_eq _ hi] at h
  split at h
  · rename_i hidle
    cases h
    exact .idle hidle
  · obtain ⟨⟨t, qs⟩, hpop, h⟩ := bind_eq_ok.mp h
    obtain ⟨q, hq, rfl⟩ := popQueues_eq_ok.mp hpop
    simp only at h
    split at h
    · obtain ⟨-, rfl⟩ := changeTaskState_ready.mp h
      exact .woke hq
    · cases h

/-- On a valid id nothing stops the kernel. -/
theorem Orderly.signal_wakeUp (h : a.Orderly) (hi : i.val < 1022) (clocks : Clocks) :
    ∃ a', wakeUpIrqBlockedTasks { a with clocks := clocks } i.val = .ok a' := by
  rw [wakeUpIrqBlockedTasks_eq _ hi]
  by_cases hidle : ∀ p, a.irqq i p = []
  · exact ⟨_, if_pos hidle⟩
  · cases hpop : popHighest (a.irqq i) with
    | none => exact absurd (popHighest_eq_none.mp hpop) hidle
    | some r =>
      obtain ⟨t, q⟩ := r
      obtain ⟨⟨p', hp'⟩, -⟩ := mem_of_popHighest hpop
      have hstate := h.toConsistent.mem_irq hp'
      have hready : (a.task t).state ≠ .ready := by
        rw [hstate]
        decide
      let b : AbsKernel := { a with clocks := clocks, irqq := Function.update a.irqq i q }
      have hpush : b.Pushable t := ⟨hready, h.prio t, h.toConsistent.ready_room hready⟩
      refine ⟨b.makeReady t, (if_neg hidle).trans ?_⟩
      apply bind_eq_ok.mpr
      refine ⟨(t, Function.update a.irqq i q), popQueues_eq_ok.mpr ⟨q, hpop, rfl⟩, ?_⟩
      exact (if_pos hstate).trans (changeTaskState_ready.mpr ⟨hpush, rfl⟩)

theorem Orderly.signal (h : a.Orderly) (hs : Signal a i clocks a') : a'.Orderly := by
  cases hs with
  | idle => exact ⟨h.toWellFormed.setClocks _, h.toConsistent.setClocks _,
      ⟨h.sender, h.once, h.waiting⟩⟩
  | @woke t q pop =>
    obtain ⟨⟨p, hp⟩, hsub⟩ := mem_of_popHighest pop
    have hstate := h.toConsistent.mem_irq hp
    have hr := h.toRings.makeReady (t := t) (by rw [hstate]; decide)
    refine ⟨?_, (h.toConsistent.setClocks clocks).woke pop, ⟨hr.sender, hr.once, hr.waiting⟩⟩
    refine WellFormed.makeReady (WellFormed.setIrqq (h.toWellFormed.setClocks clocks) ?_)
      (h.irq_free i p t hp)
    intro j p' u hu
    by_cases hj : j = i
    · subst hj
      rw [Function.update_self] at hu
      exact h.irq_free j p' u (hsub p' u hu)
    · rw [Function.update_of_ne hj] at hu
      exact h.irq_free j p' u hu

theorem Awaiting.signal (h : Awaiting calls a) (hs : Signal a i clocks a') :
    Awaiting calls a' := by
  cases hs with
  | idle => exact h
  | woke pop => exact h.leave clocks pop

/-- What the handlers of a table can do: what the kernel's own do with a system call, or what an
interrupt does. -/
inductive Outcome (img : Image) (a : AbsKernel) (c : TaskPtr) (trap : Trap) (a' : AbsKernel) : Prop
  | call (sync : ∀ intid chi clo, trap.cause ≠ .irq intid chi clo)
      (effect : Effect img a c trap a') : Outcome img a c trap a'
  | signal {i : Fin numInterrupt} {chi clo : U32} {clocks : Clocks}
      (cause : trap.cause = .irq i.val chi clo) (signal : Signal a i clocks a') :
      Outcome img a c trap a'

/-- `AwaitEvent` has one outcome. -/
theorem Effect.of_awaitEvent (he : Effect img a c trap a')
    (hcall : trap.syscall = some .awaitEvent) :
    ∃ i : Fin numInterrupt, (i : ℤ) = toInt32 ((a.task c).x 0) ∧
      a' = { a.setState c .awatievent with
        irqq := Function.update a.irqq i (pushAt (a.irqq i) (a.task c).prio c) } := by
  cases he with
  | @awaited i call valid => exact ⟨i, valid.1, rfl⟩
  | ignored cause cls => simp [Trap.syscall, cause, cls] at hcall
  | tickIdle cause => simp [Trap.syscall, cause] at hcall
  | tickWoke cause => simp [Trap.syscall, cause] at hcall
  | yielded call => simp [call] at hcall
  | toldTid call => simp [call] at hcall
  | toldParentTid call => simp [call] at hcall
  | created call => simp [call] at hcall
  | createFailed call => simp [call] at hcall
  | exited call => simp [call] at hcall
  | sendNoTask call => simp [call] at hcall
  | sendDirect call => simp [call] at hcall
  | sendQueued call => simp [call] at hcall
  | sendFull call => simp [call] at hcall
  | receiveBlocked call => simp [call] at hcall
  | receiveVanished call => simp [call] at hcall
  | received call => simp [call] at hcall
  | replyNoTask call => simp [call] at hcall
  | replied call => simp [call] at hcall
  | repliedRunning call => simp [call] at hcall

/-- **One iteration** keeps the irq queues in the order of the calls. -/
theorem Outcome.awaiting (he : Outcome img a c trap a') (h : a.Orderly)
    (hc : a.currentTask = some c) (hrun : (a.task c).state = .running)
    (hx : (a.task c).x = trap.x) (hok : a.ReplyOk trap) (hw : Awaiting calls a) :
    a'.Orderly ∧ Awaiting (calls ++ if trap.syscall = some .awaitEvent then
      [(c, toInt32 (trap.x 0))] else []) a' := by
  cases he with
  | call sync effect =>
    refine ⟨h.effect hc hrun hx hok effect, ?_⟩
    by_cases hcall : trap.syscall = some .awaitEvent
    · obtain ⟨i, hi, rfl⟩ := effect.of_awaitEvent hcall
      rw [if_pos hcall, ← hx, ← hi]
      exact hw.join hrun i
    · rw [if_neg hcall, List.append_nil]
      exact hw.still (effect.keepsWaiting h hrun hx hok hcall sync)
  | signal cause hs =>
    have hcall : trap.syscall ≠ some .awaitEvent := by simp [Trap.syscall, cause]
    rw [if_neg hcall, List.append_nil]
    exact ⟨h.signal hs, hw.signal hs⟩

/-- A task that waits goes on waiting, unless an interrupt takes it from the irq queues. -/
theorem Outcome.kept (he : Outcome img a c trap a') (h : a.Orderly)
    (hrun : (a.task c).state = .running) (hx : (a.task c).x = trap.x) (hok : a.ReplyOk trap)
    (ht : (a.task t).state = .awatievent) :
    (a'.task t).state = .awatievent ∨ ∃ (i : Fin numInterrupt) (chi clo : U32)
      (q : Fin taskPriorityMax → List TaskPtr),
        trap.cause = .irq i.val chi clo ∧ popHighest (a.irqq i) = some (t, q) := by
  have htc : t ≠ c := by
    rintro rfl
    rw [hrun] at ht
    cases ht
  cases he with
  | call sync effect =>
    left
    by_cases hcall : trap.syscall = some .awaitEvent
    · obtain ⟨i, -, rfl⟩ := effect.of_awaitEvent hcall
      show ((a.setState c .awatievent).task t).state = _
      rw [setState_state, if_neg htc]
      exact ht
    · exact ((effect.keepsWaiting h hrun hx hok hcall sync).state t).mpr ht
  | @signal i chi clo clocks cause hs =>
    cases hs with
    | idle => exact Or.inl ht
    | @woke u q pop =>
      by_cases htu : t = u
      · subst htu
        exact Or.inr ⟨i, chi, clo, q, cause, pop⟩
      · left
        rw [makeReady_task, setState_state, if_neg htu]
        exact ht

end AbsKernel

/-! ### The kernel's own state -/

theorem changeTaskState_toCore {k k' : Kernel} {t : TaskPtr} {s : TaskState} (hs : s ≠ .running)
    (h : changeTaskState k t s = .ok k') :
    k'.toCore = k.toCore.modify t fun u => { u with state := s } := by
  unfold changeTaskState at h
  split at h
  · cases h
  · obtain ⟨k₁, h₁, h₂⟩ := bind_eq_ok.mp h
    have hcore : k₁.toCore = k.toCore := by
      split at h₁
      · exact absurd rfl hs
      · obtain ⟨r, -, h₁⟩ := bind_eq_ok.mp h₁
        cases h₁
        rfl
      · cases h₁
        rfl
    cases h₂
    rw [← hcore]
    rfl

/-- `wake_up_irq_blocked_tasks` writes the state of one descriptor at most. -/
theorem wakeUpIrqBlockedTasks_toCore {k k' : Kernel} {intid : ℤ}
    (h : wakeUpIrqBlockedTasks k intid = .ok k') :
    k' = k ∨ ∃ t, k'.toCore = k.toCore.modify t fun u => { u with state := .ready } := by
  unfold wakeUpIrqBlockedTasks at h
  split at h
  · simp only at h
    split at h
    · cases h
      exact Or.inl rfl
    · obtain ⟨⟨o, pool, curIntq⟩, -, h⟩ := bind_eq_ok.mp h
      obtain ⟨t, -, h⟩ := bind_eq_ok.mp h
      split at h
      · have hcore := changeTaskState_toCore (by decide) h
        exact Or.inr ⟨t, hcore⟩
      · cases h
  · cases h

theorem addToIrqQueue_toCore {k k' : Kernel} {intid : ℤ} {t : TaskPtr}
    (h : addToIrqQueue k intid t = .ok k') : k'.toCore = k.toCore := by
  unfold addToIrqQueue at h
  split at h
  · obtain ⟨r, -, h⟩ := bind_eq_ok.mp h
    cases h
    rfl
  · cases h

theorem handleExceptionWith_sync {table : IrqHandlers} {img : Image} {k : Kernel} {trap : Trap}
    (h : ∀ intid chi clo, trap.cause ≠ .irq intid chi clo) :
    handleExceptionWith table img k trap = handleCurrentException img k trap := by
  unfold handleExceptionWith handleCurrentException
  cases hcause : trap.cause with
  | sync esr => rfl
  | irq intid chi clo => exact absurd hcause (h intid chi clo)

theorem handleExceptionWith_irq {table : IrqHandlers} {img : Image} {k : Kernel} {trap : Trap}
    {intid : ℕ} {chi clo : U32} (h : trap.cause = .irq intid chi clo) :
    handleExceptionWith table img k trap = handleIrqWith table k intid chi clo := by
  unfold handleExceptionWith
  rw [h]

theorem Trap.not_irq {trap : Trap} {call : Syscall} (h : trap.syscall = some call) :
    ∀ intid chi clo, trap.cause ≠ .irq intid chi clo := by
  intro intid chi clo hcause
  simp [Trap.syscall, hcause] at h

theorem Rep.setClocks {k : Kernel} {a : AbsKernel} (h : Rep k a) (clocks : Clocks) :
    Rep { k with clocks := clocks } { a with clocks := clocks } :=
  h.setCore (c := { k.toCore with clocks := clocks }) rfl (by rw [h.core]; rfl)

/-- A handler of a table has one of the outcomes. -/
theorem Rep.outcome {table : IrqHandlers} {img : Image} {k k' : Kernel} {a : AbsKernel}
    {c : TaskPtr} {trap : Trap} (h : Rep k a) (hc : a.currentTask = some c)
    (hrun : (a.task c).state = .running)
    (hk' : handleExceptionWith table img k trap = .ok k') :
    ∃ a', Rep k' a' ∧ AbsKernel.Outcome img a c trap a' := by
  cases hcause : trap.cause with
  | sync esr =>
    have hsync : ∀ intid chi clo, trap.cause ≠ .irq intid chi clo := by simp [hcause]
    rw [handleExceptionWith_sync hsync] at hk'
    obtain ⟨a', ha', hrep⟩ := (h.handleCurrentException img trap).ok_left hk'
    exact ⟨a', hrep, .call hsync (AbsKernel.handle_effect hc hrun ha')⟩
  | irq intid chi clo =>
    rw [handleExceptionWith_irq hcause] at hk'
    unfold handleIrqWith at hk'
    split at hk'
    · obtain ⟨clocks, -, hk'⟩ := bind_eq_ok.mp hk'
      obtain ⟨a', ha', hrep⟩ := ((h.setClocks clocks).wakeUpIrqBlockedTasks intid).ok_left hk'
      have hid : 0 ≤ (intid : ℤ) ∧ (intid : ℤ) < 1022 := by
        by_contra hno
        unfold AbsKernel.wakeUpIrqBlockedTasks at ha'
        rw [dif_neg hno] at ha'
        cases ha'
      let i : Fin numInterrupt := ⟨intid, toNat_lt_numInterrupt hid⟩
      have hi : i.val < 1022 := by
        show intid < 1022
        omega
      exact ⟨a', hrep, .signal (i := i) hcause (AbsKernel.wakeUp_signal hi ha')⟩
    · cases hk'

/-! ### The waiters of the kernel -/

/-- The task awaits the event `i`: it is blocked, and it asked for `i` last. -/
structure WaitsOn (h : List (Iter Kernel Trap)) (k : Kernel) (i : Fin numInterrupt) (t : TaskPtr) :
    Prop where
  state : (k.task t).state = .awatievent
  last : lastEvent (awaitCalls h) t = some (i : ℤ)

/-- The irq queues hold the waiting tasks, each once, by event and priority. -/
structure Queued (h : List (Iter Kernel Trap)) (k : Kernel) : Prop where
  mem : ∀ i p t, t ∈ k.waiters i p ↔ WaitsOn h k i t ∧ (k.task t).priority = (p : ℤ)
  nodup : ∀ i p, (k.waiters i p).Nodup
  known : ∀ t, (k.task t).state = .awatievent → ∃ i, WaitsOn h k i t

/-- Among the tasks that await `i`, `c` has the highest priority and asked first. -/
structure LongestWaiting (h : List (Iter Kernel Trap)) (k : Kernel) (i : Fin numInterrupt)
    (c : TaskPtr) : Prop where
  waits : WaitsOn h k i c
  highest : ∀ t, WaitsOn h k i t → (k.task t).priority ≤ (k.task c).priority
  /-- Since `c` called `AwaitEvent` for the last time, all others of its priority did. -/
  earliest : ∃ l₁ l₂, (awaitCalls h).map Prod.fst = l₁ ++ c :: l₂ ∧ c ∉ l₂ ∧ ∀ t, t ≠ c →
    WaitsOn h k i t → (k.task t).priority = (k.task c).priority → t ∈ l₂

/-- `c` has left its irq queue for the end of its ready queue, and nothing else has changed but
the clocks. -/
structure Wakeup (k : Kernel) (clocks : Clocks) (c : TaskPtr) (k' : Kernel) : Prop where
  core : k'.toCore = { k.toCore.modify c fun t => { t with state := .ready } with
    clocks := clocks }
  ready : ∀ p : Fin taskPriorityMax, k'.ready p =
    if (k.task c).priority = (p : ℤ) then k.ready p ++ [c] else k.ready p
  waiters : ∀ i p, k'.waiters i p = (k.waiters i p).erase c
  live : k'.live = k.live
  free : k'.freeTasks = k.freeTasks

/-- `c` has joined the end of an irq queue, and nothing else has changed. -/
structure Joined (k : Kernel) (i : Fin numInterrupt) (c : TaskPtr) (k' : Kernel) : Prop where
  core : k'.toCore = k.toCore.modify c fun t => { t with state := .awatievent }
  ready : ∀ p, k'.ready p = k.ready p
  waiters : ∀ j (p : Fin taskPriorityMax), k'.waiters j p =
    if j = i ∧ (k.task c).priority = (p : ℤ) then k.waiters j p ++ [c] else k.waiters j p
  live : k'.live = k.live
  free : k'.freeTasks = k.freeTasks

namespace Rep

variable {k m k' : Kernel} {a : AbsKernel} {h : List (Iter Kernel Trap)} {i : Fin numInterrupt}
  {c t : TaskPtr} {trap : Trap} {clocks : Clocks}

theorem waitsOn_iff (hr : Rep k a) :
    WaitsOn h k i t ↔ (a.task t).state = .awatievent ∧
      lastEvent (awaitCalls h) t = some (i : ℤ) := by
  rw [hr.state_eq]
  exact ⟨fun hw => ⟨hw.state, hw.last⟩, fun hw => ⟨hw.1, hw.2⟩⟩

theorem priority_iff (hr : Rep k a) (ho : a.Orderly) {p : Fin taskPriorityMax} :
    (k.task t).priority = (p : ℤ) ↔ (a.task t).prio = p := by
  rw [← hr.priority_eq, ← Task.prio_val (ho.prio t), Nat.cast_inj, Fin.val_inj]

theorem queued (hr : Rep k a) (ho : a.Orderly) (hw : a.Awaiting (awaitCalls h)) :
    Queued h k where
  mem := by
    intro i p t
    rw [hr.waiters_eq, hw.mem_iff, hr.waitsOn_iff, hr.priority_iff ho, and_assoc]
  nodup := by
    intro i p
    rw [hr.waiters_eq, hw i p]
    exact (List.nodup_dedup _).filter _
  known := by
    intro t ht
    rw [← hr.state_eq] at ht
    have hocc := ho.irq t
    rw [if_pos ht] at hocc
    obtain ⟨⟨i, p⟩, hin⟩ := (occurs_pos_iff (cells a.irqq) t).mp (by omega)
    exact ⟨i, hr.waitsOn_iff.mpr ⟨ht, (hw.mem_iff.mp hin).2.1⟩⟩

/-- The task that an interrupt takes from the irq queues has waited longest. -/
theorem longestWaiting (hr : Rep k a) (ho : a.Orderly) (hw : a.Awaiting (awaitCalls h))
    {q : Fin taskPriorityMax → List TaskPtr} (pop : popHighest (a.irqq i) = some (c, q)) :
    LongestWaiting h k i c := by
  obtain ⟨p, rest, hp, hhigh, -⟩ := popHighest_eq_some.mp pop
  obtain ⟨hstate, hlast, hprio⟩ := hw.mem_iff.mp (show c ∈ a.irqq i p by simp [hp])
  have hmem : ∀ t, WaitsOn h k i t → t ∈ a.irqq i (a.task t).prio := by
    intro t ht
    obtain ⟨hs, hl⟩ := hr.waitsOn_iff.mp ht
    exact hw.mem_iff.mpr ⟨hs, hl, rfl⟩
  refine ⟨hr.waitsOn_iff.mpr ⟨hstate, hlast⟩, fun t ht => ?_, ?_⟩
  · rw [← hr.priority_eq, ← hr.priority_eq, ← Task.prio_val (ho.prio t),
      ← Task.prio_val (ho.prio c), hprio]
    have hle : (a.task t).prio ≤ p := by
      by_contra hlt
      have hin := hmem t ht
      rw [hhigh _ (not_le.mp hlt)] at hin
      cases hin
    exact_mod_cast hle
  · obtain ⟨l₁, l₂, hl, hnot, hrest⟩ := recency_head ((hw i p).symm.trans hp)
    refine ⟨l₁, l₂, hl, hnot, fun t htc ht he => hrest t ?_⟩
    have htp : (a.task t).prio = p := by
      rw [← hprio]
      rw [← hr.priority_eq, ← hr.priority_eq] at he
      simp only [Task.prio, he]
    have hin := hmem t ht
    rw [htp, hp, List.mem_cons] at hin
    exact hin.resolve_left htc

theorem wakeup (hr : Rep k a) (ho : a.Orderly) (hw : a.Awaiting (awaitCalls h))
    {q : Fin taskPriorityMax → List TaskPtr} (pop : popHighest (a.irqq i) = some (c, q))
    (hk' : RealtimeKernel.wakeUpIrqBlockedTasks { k with clocks := clocks } i.val = .ok k')
    (hr' : Rep k' (({ a with clocks := clocks, irqq := Function.update a.irqq i q } :
      AbsKernel).makeReady c)) : Wakeup k clocks c k' := by
  have hstate : (k.task c).state = .awatievent := (hr.longestWaiting ho hw pop).waits.state
  have hready : (k'.task c).state = .ready := by
    rw [← hr'.state_eq, AbsKernel.makeReady_task, AbsKernel.setState_state, if_pos rfl]
  refine ⟨?_, fun p => ?_, fun j p => ?_, ?_, ?_⟩
  · rcases wakeUpIrqBlockedTasks_toCore hk' with rfl | ⟨t, ht⟩
    · rw [hstate] at hready
      cases hready
    · have htc : t = c := by
        by_contra hne
        have hsame : k'.task c = k.task c := by
          rw [ht]
          exact Function.update_of_ne (Ne.symm hne) _ _
        rw [hsame, hstate] at hready
        cases hready
      rw [ht, htc]
      rfl
  · rw [hr'.ready_eq, AbsKernel.makeReady_readyq, hr.ready_eq]
    simp only [hr.priority_iff ho]
    show pushAt a.readyq (a.task c).prio c p = _
    unfold pushAt
    rw [Function.update_apply]
    by_cases hp : p = (a.task c).prio
    · rw [if_pos hp, if_pos hp.symm, hp]
    · rw [if_neg hp, if_neg (Ne.symm hp)]
  · rw [hr'.waiters_eq, hr.waiters_eq]
    exact hw.irqq_leave pop j p
  · rw [hr'.live_eq, hr.live_eq]
    rfl
  · rw [hr'.freeTasks_eq, hr.freeTasks_eq]
    rfl

/-- **`AwaitEvent`** on a valid id succeeds, whatever the irq queues hold. -/
theorem joined (img : Image) (hr : Rep k a) (ho : a.Orderly) (hc : a.currentTask = some c)
    (hrun : (a.task c).state = .running) (call : trap.syscall = some .awaitEvent)
    (hi : toInt32 ((k.task c).x 0) = (i : ℤ)) (hvalid : i.val < 1022) :
    ∃ k', RealtimeKernel.handleCurrentException img k trap = .ok k' ∧ Joined k i c k' := by
  have hvalid' : (i : ℤ) = toInt32 ((a.task c).x 0) ∧ (i : ℤ) < 1022 := by
    rw [hr.x_eq, hi]
    exact ⟨rfl, by omega⟩
  have hroom := ho.toConsistent.irq_room (t := c) (by rw [hrun]; decide)
  have heff : AbsKernel.Effect img a c trap _ := .awaited call hvalid' (ho.prio c) hroom
  obtain ⟨k', hk', hr'⟩ := (hr.handleCurrentException img trap).ok_right
    (AbsKernel.effect_handle hc hrun heff)
  refine ⟨k', hk', ?_, fun p => ?_, fun j p => ?_, ?_, ?_⟩
  · rw [Kernel.handle_syscall call] at hk'
    change RealtimeKernel.sysAwaitEvent k = .ok k' at hk'
    obtain ⟨c', hc', hk'⟩ := bind_eq_ok.mp hk'
    obtain rfl : c = c' := by
      rw [hr.currentTask_eq, deref_eq_ok.mp hc'] at hc
      exact (Option.some.inj hc).symm
    obtain ⟨k₁, hk₁, hk'⟩ := bind_eq_ok.mp hk'
    rw [← changeTaskState_toCore (by decide) hk₁]
    exact addToIrqQueue_toCore hk'
  · rw [hr'.ready_eq, hr.ready_eq]
    rfl
  · rw [hr'.waiters_eq, hr.waiters_eq]
    simp only [hr.priority_iff ho]
    show Function.update a.irqq i (pushAt (a.irqq i) (a.task c).prio c) j p = _
    unfold pushAt
    rw [Function.update_apply]
    by_cases hj : j = i
    · subst hj
      rw [if_pos rfl, Function.update_apply]
      by_cases hp : p = (a.task c).prio
      · simp [hp]
      · simp [hp, Ne.symm hp]
    · simp [hj]
  · rw [hr'.live_eq, hr.live_eq]
    rfl
  · rw [hr'.freeTasks_eq, hr.freeTasks_eq]
    rfl

/-- **An interrupt** on a valid id wakes the task that has waited longest, if there is one. -/
theorem interrupted (hr : Rep k a) (ho : a.Orderly) (hw : a.Awaiting (awaitCalls h))
    (hvalid : i.val < 1022) (clocks : Clocks) :
    ∃ k', RealtimeKernel.wakeUpIrqBlockedTasks { k with clocks := clocks } i.val = .ok k' ∧
      ((∀ t, ¬ WaitsOn h k i t) → k' = { k with clocks := clocks }) ∧
      ((∃ t, WaitsOn h k i t) → ∃ c, LongestWaiting h k i c ∧ Wakeup k clocks c k') := by
  obtain ⟨a', ha'⟩ := ho.signal_wakeUp hvalid clocks
  obtain ⟨k', hk', hr'⟩ := ((hr.setClocks clocks).wakeUpIrqBlockedTasks i.val).ok_right ha'
  refine ⟨k', hk', fun hnone => ?_, fun hsome => ?_⟩
  · rcases wakeUpIrqBlockedTasks_toCore hk' with rfl | ⟨t, ht⟩
    · rfl
    · cases AbsKernel.wakeUp_signal hvalid ha' with
      | woke pop => exact absurd (hr.longestWaiting ho hw pop).waits (hnone _)
      | idle empty =>
        have hidle : ptaskQueueEmpty (k.irqq i) = true := (hr.irq.isEmpty_iff i).mpr empty
        have hid : 0 ≤ (i.val : ℤ) ∧ (i.val : ℤ) < 1022 := by omega
        unfold RealtimeKernel.wakeUpIrqBlockedTasks at hk'
        rw [dif_pos hid] at hk'
        have hsame := (if_pos hidle).symm.trans hk'
        exact (Except.ok.inj hsame).symm
  · cases AbsKernel.wakeUp_signal hvalid ha' with
    | woke pop => exact ⟨_, hr.longestWaiting ho hw pop, hr.wakeup ho hw pop hk' hr'⟩
    | idle empty =>
      obtain ⟨t, ht⟩ := hsome
      obtain ⟨hstate, hlast⟩ := hr.waitsOn_iff.mp ht
      have hin := hw.mem_iff.mpr ⟨hstate, hlast, rfl⟩
      rw [empty] at hin
      cases hin

/-- From the loop head to the handler the irq queues are left alone. -/
theorem awaiting_enters (hr : Rep k a) (ho : a.Orderly) (hw : a.Awaiting (awaitCalls h))
    (hm : RealtimeKernel.enterTrap k trap = .ok m) :
    ∃ c m', Rep m m' ∧ AbsKernel.Enters a trap c m' ∧ m'.Orderly ∧ m'.Awaiting (awaitCalls h) := by
  obtain ⟨m', hm', hrm⟩ := (hr.enterTrap trap).ok_left hm
  obtain ⟨c, hent⟩ := AbsKernel.enterTrap_enters.mp hm'
  exact ⟨c, m', hrm, hent, ho.enters hent, hw.still (hent.keepsWaiting ho)⟩

end Rep

/-- The calls that an iteration adds. -/
theorem awaitCalls_iter {h : List (Iter Kernel Trap)} {k m k' : Kernel} {trap : Trap} {c : TaskPtr}
    (hc : m.currentTask = some c) :
    awaitCalls (h ++ [⟨k, trap, m, k'⟩]) = awaitCalls h ++
      if trap.syscall = some .awaitEvent then [(c, toInt32 (trap.x 0))] else [] := by
  rw [awaitCalls_snoc]
  by_cases hcall : trap.syscall = some .awaitEvent
  · rw [if_pos hcall, awaitCalls_of_eq (i := ⟨k, trap, m, k'⟩) hcall hc]
  · rw [if_neg hcall, awaitCalls_of_ne (i := ⟨k, trap, m, k'⟩) hcall]

/-- **Along a run the irq queues are in the order of the calls.** -/
theorem awaiting_run {table : IrqHandlers} {b : Boot} {h : List (Iter Kernel Trap)}
    {k₀ k : Kernel} (hk₀ : b.kernel = .ok k₀) (r : (kmainLoopWith table b.img).Run k₀ h k)
    (hok : ∀ i ∈ h, i.mid.ReplyOk i.input) :
    ∃ a, Rep k a ∧ a.Orderly ∧ a.Awaiting (awaitCalls h) := by
  refine r.history (I := fun h k => ∃ a, Rep k a ∧ a.Orderly ∧ a.Awaiting (awaitCalls h))
    (P := fun i => i.mid.ReplyOk i.input) ?_ hok ?_
  · obtain ⟨a₀, ha₀, ho, hfresh⟩ := AbsKernel.boot_ok b
    obtain ⟨a₁, ha₁, hrep⟩ := Refines.ok_left (y := AbsKernel.boot b) b.kernel_refines hk₀
    obtain rfl : a₀ = a₁ := Except.ok.inj (ha₀.symm.trans ha₁)
    exact ⟨a₀, hrep, ho, fun i p => hfresh.awaiting i p⟩
  · rintro h k trap m k' - - ⟨a, hrep, ho, hw⟩ hreply hm hk'
    obtain ⟨c, m', hrm, hent, hom, hwm⟩ := hrep.awaiting_enters ho hw hm
    obtain ⟨hc, hrun, hx, -⟩ := hent.current
    obtain ⟨a', hrep', hout⟩ := hrm.outcome hc hrun hk'
    obtain ⟨ho', hw'⟩ := hout.awaiting hom hc hrun hx (hrm.replyOk hreply) hwm
    have hcur : m.currentTask = some c := by rw [← hrm.currentTask_eq, hc]
    refine ⟨a', hrep', ho', ?_⟩
    rw [awaitCalls_iter hcur]
    exact hw'

/-- **An interrupt wakes exactly the right waiter.**  For every table of interrupt handlers and
every run whose Replies name tasks in state `WATIREPLY` only, the irq queues hold the tasks that
await an event.  `AwaitEvent` on a valid id appends the caller to one of them; an interrupt on a
valid id moves the task that has waited longest for it to the end of its ready queue, and changes
no task if there is none.  A waiting task goes on waiting until an interrupt on its own id finds
it to be that task. -/
theorem interrupt_wakeups (table : IrqHandlers) (b : Boot) (k₀ : Kernel) (hk₀ : b.kernel = .ok k₀)
    (h : List (Iter Kernel Trap)) (k : Kernel) (r : (kmainLoopWith table b.img).Run k₀ h k)
    (hok : ∀ i ∈ h, i.mid.ReplyOk i.input) :
    Queued h k ∧ ∀ trap m, enterTrap k trap = .ok m → Queued h m ∧
      (∀ c (i : Fin numInterrupt), m.currentTask = some c → trap.syscall = some .awaitEvent →
        toInt32 (trap.x 0) = (i : ℤ) → i.val < 1022 →
        ∃ k', handleExceptionWith table b.img m trap = .ok k' ∧ Joined m i c k') ∧
      (∀ (i : Fin numInterrupt) chi clo handler clocks, trap.cause = .irq i.val chi clo →
        i.val < 1022 → table i.val = some handler → handler m.clocks chi clo = .ok clocks →
        ∃ k', handleExceptionWith table b.img m trap = .ok k' ∧
          ((∀ t, ¬ WaitsOn h m i t) → k' = { m with clocks := clocks }) ∧
          ((∃ t, WaitsOn h m i t) → ∃ c, LongestWaiting h m i c ∧ Wakeup m clocks c k')) ∧
      (∀ k', handleExceptionWith table b.img m trap = .ok k' → m.ReplyOk trap →
        ∀ i t, WaitsOn h k i t → WaitsOn (h ++ [⟨k, trap, m, k'⟩]) k' i t ∨
          ((∃ chi clo, trap.cause = .irq i.val chi clo) ∧ LongestWaiting h m i t)) := by
  obtain ⟨a, hrep, ho, hw⟩ := awaiting_run hk₀ r hok
  refine ⟨hrep.queued ho hw, fun trap m hm => ?_⟩
  obtain ⟨c, m', hrm, hent, hom, hwm⟩ := hrep.awaiting_enters ho hw hm
  obtain ⟨hc, hrun, hx, -⟩ := hent.current
  have hcur : m.currentTask = some c := by rw [← hrm.currentTask_eq, hc]
  refine ⟨hrm.queued hom hwm, fun c' i hc' call hi hvalid => ?_,
    fun i chi clo handler clocks cause hvalid hhandler hclocks => ?_,
    fun k' hk' hreply i t ht => ?_⟩
  · obtain rfl : c = c' := Option.some.inj (hcur.symm.trans hc')
    rw [handleExceptionWith_sync (Trap.not_irq call)]
    refine hrm.joined b.img hom hc hrun call ?_ hvalid
    rw [← hrm.x_eq, hx]
    exact hi
  · obtain ⟨k', hk', hidle, hwoke⟩ := hrm.interrupted hom hwm hvalid clocks
    refine ⟨k', ?_, hidle, hwoke⟩
    rw [handleExceptionWith_irq cause]
    unfold handleIrqWith
    rw [hhandler]
    exact bind_eq_ok.mpr ⟨clocks, hclocks, hk'⟩
  · obtain ⟨a', hrep', hout⟩ := hrm.outcome hc hrun hk'
    obtain ⟨hs, hl⟩ := hrep.waitsOn_iff.mp ht
    have hsm : (m'.task t).state = .awatievent := ((hent.keepsWaiting ho).state t).mpr hs
    have htc : c ≠ t := by
      rintro rfl
      rw [hrun] at hsm
      cases hsm
    rcases hout.kept hom hrun hx (hrm.replyOk hreply) hsm with
      hstay | ⟨j, chi, clo, q, hcause, hpop⟩
    · left
      refine hrep'.waitsOn_iff.mpr ⟨hstay, ?_⟩
      rw [awaitCalls_iter hcur]
      by_cases hcall : trap.syscall = some .awaitEvent
      · rw [if_pos hcall, lastEvent_concat, if_neg htc]
        exact hl
      · rw [if_neg hcall, List.append_nil]
        exact hl
    · right
      have hlong := hrm.longestWaiting hom hwm hpop
      obtain rfl : j = i := by
        have he := hlong.waits.last.symm.trans hl
        rw [Option.some.injEq, Nat.cast_inj, Fin.val_inj] at he
        exact he
      exact ⟨⟨chi, clo, hcause⟩, hlong⟩

/-- Two tasks of one priority wait for timer 1, and one of them is woken. -/
theorem interrupt_wakeups_run : ∃ hist k m c clocks k', zeroBoot.Reaches hist k ∧
    awaitCalls hist = [(2, 97), (0, 97)] ∧ enterTrap k (tick []) = .ok m ∧
    handleExceptionWith irqHandlers zeroBoot.img m (tick []) = .ok k' ∧
    LongestWaiting hist m timer1 c ∧ Wakeup m clocks c k' := by
  obtain ⟨hist, k, r, -, hk⟩ := Boot.reaches_of_check zeroBoot
    [svc 1 [5], svc 31 [97], svc 31 [97]]
    (fun h k => decide ((∀ i ∈ h, i.mid.ReplyOk i.input) ∧ awaitCalls h = [(2, 97), (0, 97)]) &&
      returns (enterTrap k (tick [])) fun m => decide ((m.task 0).state = .awatievent) &&
        returns (sysClockNotifyTick m.clocks 1 0 0) fun _ => true) (by decide +kernel)
  obtain ⟨hpre, hk⟩ := Bool.and_eq_true_iff.mp hk
  obtain ⟨hok, hcalls⟩ := of_decide_eq_true hpre
  obtain ⟨m, hm, hk⟩ := returns_iff.mp hk
  obtain ⟨hstate, hk⟩ := Bool.and_eq_true_iff.mp hk
  obtain ⟨clocks, hclocks, -⟩ := returns_iff.mp hk
  obtain ⟨k₀, hk₀, hrun⟩ := r
  have hrun' : (kmainLoopWith irqHandlers zeroBoot.img).Run k₀ hist k := by
    rw [kmainLoopWith_irqHandlers]
    exact hrun
  have hwaits : WaitsOn hist m timer1 0 :=
    ⟨of_decide_eq_true hstate, by rw [hcalls]; decide⟩
  obtain ⟨-, -, hirq, -⟩ :=
    (interrupt_wakeups irqHandlers zeroBoot k₀ hk₀ hist k hrun' hok).2 (tick []) m hm
  obtain ⟨k', hk', -, hwoke⟩ := hirq timer1 0 0 _ clocks rfl (by decide) rfl hclocks
  obtain ⟨c, hlong, hwake⟩ := hwoke ⟨0, hwaits⟩
  exact ⟨hist, k, m, c, clocks, k', ⟨k₀, hk₀, hrun⟩, hcalls, hm, hk', hlong, hwake⟩

end RealtimeKernel
