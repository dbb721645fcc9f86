import RealtimeKernel.BoundedWaiting
import RealtimeKernel.MessageCopies

/-!
# What stops the kernel

A kernel whose tasks reply only to tasks that wait for a reply stops when nobody is left to run, or
on the next exception, for one of five reasons.  `Stops` lists what the handler finds wrong before
it has done anything.  Whatever else a task does, the kernel comes back to its loop head, unless it
is to copy a message of a negative length: then it does not get to the end of the copy.
-/

namespace RealtimeKernel

open Lib

/-- The next tick was due before the interrupt was handled. -/
def TickMissed (clocks : Clocks) (chi clo : U32) : Prop :=
  (clocks.sysClocks 1).nextTickTime + ofInt (clocks.sysClocks 1).interval ≤
    sysTimerFullCount chi clo

/-- Why the handler of `trap` stops in state `m`. -/
inductive Kernel.Stops (m : Kernel) (trap : Trap) : Halt → Prop
  /-- An `svc` that `init_exception_handlers` does not know. -/
  | unknownCall {esr : U64} (cause : trap.cause = .sync esr) (cls : exceptionClass esr = svcClass)
      (code : Syscall.ofCode (svcImm esr).toNat = none) : Stops m trap .nullPointer
  | unknownIrq {intid : ℕ} {chi clo : U32} (cause : trap.cause = .irq intid chi clo)
      (ne : intid ≠ waitTimer1) : Stops m trap .irqNotImplemented
  | missedTick {chi clo : U32} (cause : trap.cause = .irq waitTimer1 chi clo)
      (late : TickMissed m.clocks chi clo) : Stops m trap .tickMissed
  | unknownEvent (call : trap.syscall = some .awaitEvent)
      (range : ¬ (0 ≤ toInt32 (trap.x 0) ∧ toInt32 (trap.x 0) < 1022)) :
      Stops m trap .addToIrqQueue
  /-- A Reply to a task that is ready to run. -/
  | replyReady {s : TaskPtr} (call : trap.syscall = some .reply)
      (found : getTaskByTid m (toInt32 (trap.x 0)) = .ok (some s))
      (ready : (m.task s).state = .ready) : Stops m trap .changeTaskState

theorem sysClockNotifyTick_eq_error {clocks : Clocks} {chi clo : U32} {e : Halt} :
    sysClockNotifyTick clocks 1 chi clo = .error e ↔
      e = .tickMissed ∧ TickMissed clocks chi clo := by
  unfold sysClockNotifyTick TickMissed
  dsimp only
  split
  · rename_i hgt
    simp only [reduceCtorEq, false_iff, not_and]
    exact fun _ => BitVec.not_le.mpr hgt
  · rename_i hgt
    simp only [Except.error.injEq]
    constructor
    · rintro rfl
      exact ⟨rfl, BitVec.not_lt.mp hgt⟩
    · rintro ⟨rfl, -⟩
      rfl

/-- What a trap is, unless the kernel does not know it. -/
theorem Trap.known_or (trap : Trap) : trap.Known ∨
    (∃ esr, trap.cause = .sync esr ∧ exceptionClass esr = svcClass ∧
      Syscall.ofCode (svcImm esr).toNat = none) ∨
    ∃ intid chi clo, trap.cause = .irq intid chi clo ∧ intid ≠ waitTimer1 := by
  cases hcause : trap.cause with
  | irq intid chi clo =>
    by_cases hid : intid = waitTimer1
    · exact Or.inl (Or.inr (Or.inr ⟨chi, clo, hid ▸ hcause⟩))
    · exact Or.inr (Or.inr ⟨intid, chi, clo, rfl, hid⟩)
  | sync esr =>
    by_cases hcls : exceptionClass esr = svcClass
    · cases hcode : Syscall.ofCode (svcImm esr).toNat with
      | none => exact Or.inr (Or.inl ⟨esr, rfl, hcls, hcode⟩)
      | some call =>
        refine Or.inl (Or.inl ⟨call, ?_⟩)
        simp only [Trap.syscall, hcause, if_pos hcls, hcode]
    · exact Or.inl (Or.inr (Or.inl ⟨esr, hcause, hcls⟩))

namespace AbsKernel

variable {a m : AbsKernel} {img : Image} {c : TaskPtr} {trap : Trap}

/-- A task that is ready cannot be made ready again. -/
theorem synchronizedSendReceive_ready (msgFrom msgTo : U64) (lenFrom lenTo : ℤ) {s : TaskPtr}
    (hs : (a.task s).state = .ready) :
    a.synchronizedSendReceive msgFrom lenFrom s msgTo lenTo = .error .changeTaskState := by
  simp [synchronizedSendReceive, changeTaskState, assignResult, hs]

/-- The kernel finds no task to run exactly if no task is ready, the preempted one included. -/
theorem Orderly.enter_error_iff (h : a.Orderly) (hh : a.HeadOk) {e : Halt} :
    a.enterTrap trap = .error e ↔
      e = .allTasksFinished ∧ ∀ t, (a.task t).state ≠ .ready ∧ a.preempted ≠ some t := by
  obtain ⟨a₁, hr⟩ := h.requeue_total hh
  have ho₁ := h.requeue hr
  have hready : ∀ t, (a₁.task t).state = .ready ↔ (a.task t).state = .ready ∨
      a.preempted = some t := fun t => hr.wakes.ready t
  cases hpop : popHighest a₁.readyq with
  | none =>
    have hs : a.schedule = .ok (none, a₁) :=
      schedule_eq_ok.mpr ⟨a₁, hr, Or.inl ⟨rfl, popHighest_eq_none.mp hpop, rfl⟩⟩
    have herr : a.enterTrap trap = .error .allTasksFinished := by simp [enterTrap, hs]
    have hnone : ∀ t, (a.task t).state ≠ .ready ∧ a.preempted ≠ some t := by
      intro t
      rw [← not_or, ← hready]
      intro ht
      have hmem := ho₁.toConsistent.mem_readyq ht
      rw [popHighest_eq_none.mp hpop] at hmem
      cases hmem
    rw [herr, Except.error.injEq]
    constructor
    · rintro rfl
      exact ⟨rfl, hnone⟩
    · rintro ⟨rfl, -⟩
      rfl
  | some r =>
    obtain ⟨c, rq⟩ := r
    obtain ⟨⟨p, hp⟩, -⟩ := mem_of_popHighest hpop
    have hc := ho₁.toConsistent.mem_ready hp
    have hok : a.enterTrap trap = .ok (a₁.dispatch c rq trap) :=
      enterTrap_enters.mpr ⟨c, .intro hr hpop (by rw [hc]; decide)⟩
    rw [hok]
    constructor
    · intro he
      cases he
    · rintro ⟨-, hnone⟩
      obtain ⟨h₁, h₂⟩ := hnone c
      exact ((hready c).mp hc).elim (absurd · h₁) (absurd · h₂)

end AbsKernel

namespace Kernel

variable {m : Kernel} {m' : AbsKernel} {img : Image} {c : TaskPtr} {trap : Trap} {e : Halt}

/-- What is wrong stops the handler. -/
theorem Stops.error (hs : m.Stops trap e) (hc : m.currentTask = some c)
    (hrun : (m.task c).state = .running) (hx : (m.task c).x = trap.x) (hrep : Rep m m') :
    handleCurrentException img m trap = .error e := by
  cases hs with
  | unknownCall cause cls code =>
    simp [handleCurrentException, cause, handleSynchronousException, cls, code, deref]
  | unknownIrq cause ne => simp [handleCurrentException, cause, handleIrq, ne]
  | missedTick cause late =>
    simp [handleCurrentException, cause, handleIrq, handleTimer1,
      sysClockNotifyTick_eq_error.mpr ⟨rfl, late⟩]
  | unknownEvent call range => exact awaitEvent_halts hc hrun hx call range
  | @replyReady s call found ready =>
    refine (hrep.handleCurrentException img trap).error_right ?_
    have hlookup : m'.getTaskByTid (toInt32 (trap.x 0)) = some s := by
      rw [hrep.getTaskByTid_eq] at found
      exact Except.ok.inj found
    have hcur : m'.currentTask = some c := by rw [hrep.currentTask_eq, hc]
    have hx' : (m'.task c).x = trap.x := by rw [hrep.x_eq, hx]
    have hs : (m'.task s).state = .ready := by rw [hrep.state_eq, ready]
    rw [AbsKernel.handle_syscall call]
    simp [AbsKernel.synchronousExceptionHandlers, AbsKernel.sysReply, hcur, deref, getReplyArgs,
      hx', hlookup, AbsKernel.synchronizedSendReceive_ready _ _ _ _ hs]

/-- Where nothing is wrong the handler returns. -/
theorem handle_total (hno : ∀ e, ¬ m.Stops trap e) (hc : m.currentTask = some c)
    (hrun : (m.task c).state = .running) (hx : (m.task c).x = trap.x) (hrep : Rep m m')
    (ho : m'.Orderly) : ∃ k', handleCurrentException img m trap = .ok k' := by
  have hcur : m'.currentTask = some c := by rw [hrep.currentTask_eq, hc]
  have hrun' : (m'.task c).state = .running := by rw [hrep.state_eq, hrun]
  have hx' : (m'.task c).x = trap.x := by rw [hrep.x_eq, hx]
  have hok : ∃ a', m'.handleCurrentException img trap = .ok a' := by
    rcases trap.known_or with hknown | ⟨esr, cause, cls, code⟩ | ⟨intid, chi, clo, cause, ne⟩
    · rcases hknown with ⟨call, hcall⟩ | ⟨esr, cause, cls⟩ | ⟨chi, clo, cause⟩
      · refine ho.syscall_total hcur hrun' hcall (fun he s hs hready => ?_) fun he => ?_
        · rw [hx'] at hs
          exact hno _ (.replyReady (he ▸ hcall) (by rw [hrep.getTaskByTid_eq, hs])
            (by rw [← hrep.state_eq, hready]))
        · rw [hx']
          by_contra range
          exact hno _ (.unknownEvent (he ▸ hcall) range)
      · exact ⟨m', AbsKernel.effect_handle hcur hrun' (.ignored cause cls)⟩
      · cases htick : sysClockNotifyTick m'.clocks 1 chi clo with
        | ok clocks => exact ho.tick_total hcur hrun' cause htick
        | error e =>
          rw [hrep.clocks_eq, sysClockNotifyTick_eq_error] at htick
          exact absurd (.missedTick cause htick.2) (hno _)
    · exact absurd (.unknownCall cause cls code) (hno _)
    · exact absurd (.unknownIrq cause ne) (hno _)
  obtain ⟨a', ha'⟩ := hok
  obtain ⟨k', hk', -⟩ := (hrep.handleCurrentException img trap).ok_right ha'
  exact ⟨k', hk'⟩

end Kernel

/-- **What stops the kernel.**  After any run whose Replies name tasks in state `WATIREPLY` only,
the next iteration fails before a task runs exactly if no task is ready, and after it ran, with
copies that come to their ends, exactly for one of the reasons of `Stops`.  It is completed exactly
if there is no such reason and the copies do come to their ends. -/
theorem kernel_stops_iff (b : Boot) {h : List (Iter Kernel Trap)} {k : Kernel}
    (r : b.Reaches h k) (hok : ∀ i ∈ h, i.mid.ReplyOk i.input) (trap : Trap) :
    (∀ e, enterTrap k trap = .error e ↔
      e = .allTasksFinished ∧ ∀ t, ¬ k.Schedulable t) ∧
    ∀ m, enterTrap k trap = .ok m →
      (m.CopiesEnd trap →
        ∀ e, handleCurrentException b.img m trap = .error e ↔ m.Stops trap e) ∧
      ((∃ k', Completes b.img m trap k') ↔ m.CopiesEnd trap ∧ ∀ e, ¬ m.Stops trap e) := by
  obtain ⟨a, hrep, ho, hh, -⟩ := r.inOrder hok
  refine ⟨fun e => ?_, fun m hm => ?_⟩
  · have hiff : enterTrap k trap = .error e ↔ a.enterTrap trap = .error e :=
      ⟨(hrep.enterTrap trap).error_left, (hrep.enterTrap trap).error_right⟩
    rw [hiff, ho.enter_error_iff hh]
    refine and_congr_right fun _ => forall_congr' fun t => ?_
    rw [Kernel.Schedulable, not_or, hrep.state_eq, hrep.preempted_eq]
  · obtain ⟨m', hm', hrepm⟩ := (hrep.enterTrap trap).ok_left hm
    obtain ⟨c, hent⟩ := AbsKernel.enterTrap_enters.mp hm'
    obtain ⟨hc, hrun, hx, -⟩ := hent.current
    rw [hrepm.currentTask_eq] at hc
    rw [hrepm.state_eq] at hrun
    rw [hrepm.x_eq] at hx
    have hreturns : (∀ e, ¬ m.Stops trap e) → ∃ k', handleCurrentException b.img m trap = .ok k' :=
      fun hno => Kernel.handle_total hno hc hrun hx hrepm (ho.enters hent)
    refine ⟨fun _ e => ⟨fun he => ?_, fun hs => hs.error hc hrun hx hrepm⟩, ?_⟩
    · by_cases hstops : ∃ e', m.Stops trap e'
      · obtain ⟨e', hs⟩ := hstops
        rw [hs.error hc hrun hx hrepm] at he
        obtain rfl := Except.error.inj he
        exact hs
      · obtain ⟨k', hk'⟩ := hreturns fun e' hs => hstops ⟨e', hs⟩
        rw [hk'] at he
        cases he
    · constructor
      · rintro ⟨k', hk', hcopies⟩
        refine ⟨hcopies, fun e hs => ?_⟩
        rw [hs.error hc hrun hx hrepm] at hk'
        cases hk'
      · rintro ⟨hcopies, hno⟩
        obtain ⟨k', hk'⟩ := hreturns hno
        exact ⟨k', hk', hcopies⟩

/-- The first task replies to a task that it has just created. -/
theorem kernel_stops_run : ∃ h k m, zeroBoot.Reaches h k ∧ enterTrap k (svc 23 [2]) = .ok m ∧
    handleCurrentException zeroBoot.img m (svc 23 [2]) = .error .changeTaskState ∧
    ¬ enterTrap k (svc 23 [2]) = .error .allTasksFinished := by
  obtain ⟨h, k, r, -, hk⟩ := Boot.reaches_of_check zeroBoot [svc 1 [4]]
    (fun h k => decide (∀ i ∈ h, i.mid.ReplyOk i.input) && decide (k.preempted = some 0) &&
      returns (enterTrap k (svc 23 [2])) fun m =>
        decide (m.currentTask = some 0 ∧ (m.task 0).x 0 = 2 ∧ getTaskByTid m 2 = .ok (some 2) ∧
          (m.task 2).state = .ready ∧
          0 ≤ actualLen (toInt32 ((m.task 0).x 2)) (toInt32 ((m.task 2).x 4))))
    (by decide +kernel)
  obtain ⟨hk, hm⟩ := Bool.and_eq_true_iff.mp hk
  obtain ⟨hok, hpre⟩ := Bool.and_eq_true_iff.mp hk
  obtain ⟨m, hm, hfound⟩ := returns_iff.mp hm
  obtain ⟨hcur, hx, hfound, hready, hlen⟩ := of_decide_eq_true hfound
  obtain ⟨henter, hhandle⟩ := kernel_stops_iff zeroBoot r (of_decide_eq_true hok) (svc 23 [2])
  refine ⟨h, k, m, r, hm, ?_, fun he => ?_⟩
  · have hcopies : m.CopiesEnd (svc 23 [2]) := by
      intro call t hcall ht
      have hreply : (svc 23 [2]).syscall = some .reply := by decide +kernel
      obtain rfl : Syscall.reply = call := Option.some.inj (hreply.symm.trans hcall)
      cases ht with
      | @reply c s current found =>
        obtain rfl : c = 0 := Option.some.inj (current.symm.trans hcur)
        have hs : getTaskByTid m (toInt32 ((m.task 0).x 0)) = .ok (some 2) := by
          rw [hx]
          exact hfound
        obtain rfl : s = 2 := Option.some.inj (Except.ok.inj (found.symm.trans hs))
        exact hlen
    exact ((hhandle m hm).1 hcopies _).mpr (.replyReady (by decide +kernel) hfound hready)
  · exact ((henter _).mp he).2 0 (Or.inr (of_decide_eq_true hpre))

end RealtimeKernel
