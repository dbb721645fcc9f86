import RealtimeKernel.TaskIdentity

/-!
# System calls that fail

A Send to no live task, a Send to a full ring and a Create without a free descriptor tell their
caller a negative number and change nothing else.  An AwaitEvent with an unsupported id is not
refused: `sys_await_event` has already blocked its caller when the assertion of
`add_to_irq_queue` fails and stops the machine.
-/

namespace RealtimeKernel

open Lib

/-- The call that the trap makes in state `m` cannot be carried out. -/
inductive Fails (m : Kernel) (trap : Trap) : Prop
  | sendNoTask (call : trap.syscall = some .send)
      (lookup : getTaskByTid m (toInt32 (trap.x 0)) = .ok none)
  | sendFull {c r : TaskPtr} (call : trap.syscall = some .send) (current : m.currentTask = some c)
      (lookup : getTaskByTid m (toInt32 (trap.x 0)) = .ok (some r))
      (state : (m.task r).state ≠ .waitreceive)
      (full : (registerSender (m.task r) (m.task c).tid).1 = false)
  | createFull (call : trap.syscall = some .create) (full : m.taskPoolPtr = none)
  | awaitRange (call : trap.syscall = some .awaitEvent)
      (range : ¬ (0 ≤ toInt32 (trap.x 0) ∧ toInt32 (trap.x 0) < 1022))

/-- The caller stays running and is given a negative result, and nothing else changes. -/
def Refused (img : Image) (m : Kernel) (trap : Trap) : Prop :=
  ∃ (c : TaskPtr) (v : ℤ), m.currentTask = some c ∧ (m.task c).state = .running ∧ v < 0 ∧
    handleCurrentException img m trap = .ok (m.modify c fun t => assignResult t (ofInt v))

section Handlers

variable {m : Kernel} {trap : Trap} {c : TaskPtr} {img : Image}

theorem Kernel.handle_syscall {call : Syscall} (h : trap.syscall = some call) :
    handleCurrentException img m trap = synchronousExceptionHandlers img call m := by
  unfold Trap.syscall at h
  unfold handleCurrentException
  cases hcause : trap.cause with
  | irq intid chi clo => simp [hcause] at h
  | sync esr =>
    simp only [hcause] at h
    split at h
    · rename_i hcls
      simp only [handleSynchronousException, if_pos hcls, h, deref, ok_bind]
    · cases h

/-- A failing call of the running task `c`, other than AwaitEvent, is refused. -/
theorem Fails.refused (hf : Fails m trap) (hc : m.currentTask = some c)
    (hrun : (m.task c).state = .running) (hx : (m.task c).x = trap.x)
    (hcall : trap.syscall ≠ some .awaitEvent) : Refused img m trap := by
  cases hf with
  | sendNoTask call lookup =>
    refine ⟨c, -1, hc, hrun, by decide, ?_⟩
    rw [Kernel.handle_syscall call]
    simp [synchronousExceptionHandlers, sysSend, getCurrentTask, hc, deref, getSendArgs, hx,
      lookup]
  | @sendFull c' r call current lookup state full =>
    obtain rfl : c' = c := Option.some.inj (current.symm.trans hc)
    refine ⟨c', -2, hc, hrun, by decide, ?_⟩
    rw [Kernel.handle_syscall call]
    simp [synchronousExceptionHandlers, sysSend, getCurrentTask, hc, deref, getSendArgs, hx,
      lookup, state, full]
  | createFull call full =>
    refine ⟨c, -1, hc, hrun, by decide, ?_⟩
    rw [Kernel.handle_syscall call]
    simp [synchronousExceptionHandlers, sysCreate, getCurrentTask, hc, deref, createTask, full]
  | awaitRange call => exact absurd call hcall

/-- An AwaitEvent with an id out of range stops the machine. -/
theorem awaitEvent_halts (hc : m.currentTask = some c) (hrun : (m.task c).state = .running)
    (hx : (m.task c).x = trap.x) (call : trap.syscall = some .awaitEvent)
    (range : ¬ (0 ≤ toInt32 (trap.x 0) ∧ toInt32 (trap.x 0) < 1022)) :
    handleCurrentException img m trap = .error .addToIrqQueue := by
  rw [Kernel.handle_syscall call]
  have hstate : changeTaskState m c .awatievent
      = .ok (m.modify c fun t => { t with state := .awatievent }) := by
    simp [changeTaskState, hrun]
  have hargs : ((m.modify c fun t => { t with state := .awatievent }).task c).x = trap.x := by
    simp [Kernel.modify, Core.modify, hx]
  simp only [synchronousExceptionHandlers, sysAwaitEvent, hc, deref, ok_bind, hstate, hargs,
    addToIrqQueue]
  rw [dif_neg range]

end Handlers

/-- **Failing calls.**  In a reachable state a call that cannot be carried out is refused, and
leaves everything else as it was, unless it is an AwaitEvent with an id out of range. -/
theorem failed_call_refused_iff (b : Boot) (h : List (Iter Kernel Trap)) (k m : Kernel)
    (trap : Trap) (r : b.Reaches h k) (hm : enterTrap k trap = .ok m) :
    (Fails m trap → Refused b.img m trap) ↔
      ¬ (trap.syscall = some .awaitEvent ∧
        ¬ (0 ≤ toInt32 (trap.x 0) ∧ toInt32 (trap.x 0) < 1022)) := by
  obtain ⟨h', a, -, hka, -⟩ := r.abs
  obtain ⟨m', hm', hrep⟩ := (hka.enterTrap trap).ok_left hm
  obtain ⟨c, hent⟩ := AbsKernel.enterTrap_enters.mp hm'
  obtain ⟨hc, hrun, hx, -⟩ := hent.current
  rw [hrep.currentTask_eq] at hc
  rw [hrep.state_eq] at hrun
  rw [hrep.x_eq] at hx
  constructor
  · intro himp hawait
    obtain ⟨call, range⟩ := hawait
    obtain ⟨c', v, -, -, -, hok⟩ := himp (.awaitRange call range)
    rw [awaitEvent_halts hc hrun hx call range] at hok
    cases hok
  · intro hno hf
    refine hf.refused hc hrun hx fun call => ?_
    cases hf with
    | sendNoTask call' => exact absurd (call.symm.trans call') (by decide)
    | sendFull call' => exact absurd (call.symm.trans call') (by decide)
    | createFull call' => exact absurd (call.symm.trans call') (by decide)
    | awaitRange _ range => exact hno ⟨call, range⟩

/-- The first task sends to a tid that was never handed out. -/
theorem failed_send_refused : ∃ k m, zeroBoot.Reaches [] k ∧ enterTrap k (svc 21 [7]) = .ok m ∧
    Fails m (svc 21 [7]) ∧ Refused zeroBoot.img m (svc 21 [7]) := by
  obtain ⟨hist, k, r, hmap, hk⟩ := Boot.reaches_of_check zeroBoot []
    (fun _ k => returns (enterTrap k (svc 21 [7])) fun m =>
      decide (getTaskByTid m 7 = .ok none)) (by decide +kernel)
  obtain rfl : hist = [] := List.map_eq_nil_iff.mp hmap
  obtain ⟨m, hm, hk⟩ := returns_iff.mp hk
  have hf : Fails m (svc 21 [7]) := .sendNoTask (by decide +kernel) (of_decide_eq_true hk)
  exact ⟨k, m, r, hm, hf,
    (failed_call_refused_iff zeroBoot [] k m _ r hm).mpr (by decide +kernel) hf⟩

/-- An AwaitEvent for interrupt 5000 fails the assertion of `add_to_irq_queue`. -/
theorem await_event_out_of_range : ∃ k m, zeroBoot.Reaches [] k ∧
    enterTrap k (svc 31 [5000]) = .ok m ∧ Fails m (svc 31 [5000]) ∧
    handleCurrentException zeroBoot.img m (svc 31 [5000]) = .error .addToIrqQueue ∧
    ¬ Refused zeroBoot.img m (svc 31 [5000]) := by
  obtain ⟨hist, k, r, hmap, hk⟩ := Boot.reaches_of_check zeroBoot []
    (fun _ k => returns (enterTrap k (svc 31 [5000])) fun m =>
      decide (failure (handleCurrentException zeroBoot.img m (svc 31 [5000])) =
        some .addToIrqQueue)) (by decide +kernel)
  obtain rfl : hist = [] := List.map_eq_nil_iff.mp hmap
  obtain ⟨m, hm, hk⟩ := returns_iff.mp hk
  have he := failure_eq_some.mp (of_decide_eq_true hk)
  refine ⟨k, m, r, hm, .awaitRange (by decide +kernel) (by decide +kernel), he, ?_⟩
  rintro ⟨c, v, -, -, -, hok⟩
  rw [he] at hok
  cases hok

end RealtimeKernel
