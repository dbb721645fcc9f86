import RealtimeKernel.DescriptorPool
import RealtimeKernel.MessageCopies

/-!
# Replies to tasks that wait for none

`sys_reply` looks up the task it is to reply to and completes whatever Send the saved registers of
that task seem to describe; the state of the task is not looked at.  Any other task that does not
wait for a reply is made ready, or the kernel stops because it is ready already.  The caller itself
stays as it is and is given the length that was copied, which is negative only for a copy that does
not come to its end.
-/

namespace RealtimeKernel

open Lib

/-- The Reply of the task `c` was turned down: `k'` is `m` but for the result that `c` is given. -/
structure Rejected (m k' : Kernel) (c : TaskPtr) : Prop where
  passed : (k'.task c).shouldPassResult = true
  negative : toInt32 (k'.task c).result < 0
  others : ∀ t, t ≠ c → k'.task t = m.task t
  ring : k'.ring c = m.ring c
  live : k'.live = m.live
  ready : ∀ p, k'.ready p = m.ready p
  waiters : ∀ i p, k'.waiters i p = m.waiters i p
  mem : k'.mem = m.mem

/-- A Reply to a task that is not running makes that task ready. -/
theorem AbsKernel.reply_ready {a a' : AbsKernel} {img : Image} {c s : TaskPtr} {trap : Trap}
    (hc : a.currentTask = some c) (call : trap.syscall = some .reply)
    (hs : a.getTaskByTid (toInt32 ((a.task c).x 0)) = some s)
    (hrun : (a.task s).state ≠ .running) (h : a.handleCurrentException img trap = .ok a') :
    (a'.task s).state = .ready ∧ (a.task s).state ≠ .ready := by
  rw [handle_syscall call] at h
  simp only [synchronousExceptionHandlers, sysReply, hc, deref, ok_bind, getReplyArgs, hs] at h
  obtain ⟨⟨len, a₁⟩, h₁, h₂⟩ := bind_eq_ok.mp h
  obtain ⟨-, ⟨-, hpush, rfl⟩ | ⟨hr, -⟩⟩ := synchronizedSendReceive_eq_ok.mp h₁
  · cases h₂
    refine ⟨?_, hpush.state⟩
    rw [modify_field _ c _ Task.state rfl, makeReady_task, setState_state, if_pos rfl]
  · exact absurd hr hrun

/-- The length of a Reply to the task that makes it, whose registers the kernel also reads as the
arguments of a Send. -/
def selfReplyLen (trap : Trap) : ℤ := actualLen (toInt32 (trap.x 2)) (toInt32 (trap.x 4))

theorem selfReplyLen_range (trap : Trap) :
    -2 ^ 31 ≤ selfReplyLen trap ∧ selfReplyLen trap < 2 ^ 31 := by
  have h₂ := toInt32_range (trap.x 2)
  have h₄ := toInt32_range (trap.x 4)
  simp only [selfReplyLen, actualLen]
  split_ifs <;> omega

/-- A Reply to the running task itself only copies and assigns the length. -/
theorem handle_selfReply (img : Image) {m : Kernel} {trap : Trap} {c : TaskPtr}
    (hc : m.currentTask = some c) (hx : (m.task c).x = trap.x)
    (hrun : (m.task c).state = .running) (call : trap.syscall = some .reply)
    (hs : getTaskByTid m (toInt32 (trap.x 0)) = .ok (some c)) :
    handleCurrentException img m trap = .ok
      ({ m with mem := memcpy m.mem (trap.x 3) (trap.x 1) (toUsize (selfReplyLen trap)) }.modify c
        fun t => assignResult t (ofInt (selfReplyLen trap))) := by
  have hhandle : handleCurrentException img m trap = sysReply m := by
    unfold Trap.syscall at call
    unfold handleCurrentException
    cases hcause : trap.cause with
    | irq intid chi clo => simp [hcause] at call
    | sync esr =>
      simp only [hcause] at call
      split at call
      · rename_i hcls
        simp only [handleSynchronousException, if_pos hcls, call, deref, ok_bind,
          synchronousExceptionHandlers]
      · cases call
  rw [hhandle]
  simp [sysReply, getCurrentTask, hc, deref, getReplyArgs, getSendArgs, hx, hs,
    synchronizedSendReceive, copyMessage, Kernel.modify, Core.modify, assignResult, hrun,
    selfReplyLen]

/-- Only a Reply of a task to itself, and one of a negative length, could be turned down. -/
theorem self_of_rejected (b : Boot) (h : List (Iter Kernel Trap)) (k : Kernel)
    (r : b.Reaches h k) (trap : Trap) (m : Kernel) (hm : enterTrap k trap = .ok m) (c s : TaskPtr)
    (hc : m.currentTask = some c) (call : trap.syscall = some .reply)
    (hs : getTaskByTid m (toInt32 (trap.x 0)) = .ok (some s)) (k' : Kernel)
    (hk' : handleCurrentException b.img m trap = .ok k') (hrej : Rejected m k' c) :
    s = c ∧ (m.task c).x = trap.x ∧ selfReplyLen trap < 0 := by
  obtain ⟨h', a, r', hka, -⟩ := r.abs
  obtain ⟨m', hm', hrep⟩ := (hka.enterTrap trap).ok_left hm
  obtain ⟨c', hent⟩ := AbsKernel.enterTrap_enters.mp hm'
  obtain ⟨hcur, hrun, hx, -⟩ := hent.current
  obtain rfl : c = c' := by
    rw [hrep.currentTask_eq, hc] at hcur
    exact Option.some.inj hcur
  have hwf := r'.wellFormed.enters hent
  have hxm : (m.task c).x = trap.x := by rw [← hrep.x_eq, hx]
  have hl : m'.getTaskByTid (toInt32 ((m'.task c).x 0)) = some s := by
    have := hrep.getTaskByTid_eq (toInt32 (trap.x 0))
    rw [hs] at this
    rw [hx]
    exact (Except.ok.inj this).symm
  by_cases hsc : s = c
  · subst hsc
    have hself := handle_selfReply b.img hc hxm (by rw [← hrep.state_eq]; exact hrun) call hs
    have hrange := selfReplyLen_range trap
    rw [hself] at hk'
    cases hk'
    have hneg := hrej.negative
    simp only [Kernel.modify, Core.modify, Function.update_self, assignResult] at hneg
    rw [toInt32_ofInt hrange.1 hrange.2] at hneg
    exact ⟨rfl, hxm, hneg⟩
  · -- another task that is running would be the current one
    have hrun' : (m'.task s).state ≠ .running := fun hr =>
      hsc (Option.some.inj ((hwf.running s hr).symm.trans hcur))
    obtain ⟨a', ha', hrep'⟩ := (hrep.handleCurrentException b.img trap).ok_left hk'
    obtain ⟨h₁, h₂⟩ := AbsKernel.reply_ready hcur call hl hrun' ha'
    rw [hrep'.state_eq, hrej.others s hsc, ← hrep.state_eq] at h₁
    exact absurd h₁ h₂

/-- No Reply that finds a live task is turned down, whatever the state of that task. -/
theorem not_rejected (b : Boot) (h : List (Iter Kernel Trap)) (k : Kernel)
    (r : b.Reaches h k) (trap : Trap) (m : Kernel) (hm : enterTrap k trap = .ok m) (c s : TaskPtr)
    (hc : m.currentTask = some c) (call : trap.syscall = some .reply)
    (hs : getTaskByTid m (toInt32 (trap.x 0)) = .ok (some s)) :
    ¬ ∃ k', Completes b.img m trap k' ∧ Rejected m k' c := by
  rintro ⟨k', ⟨hk', hcopies⟩, hrej⟩
  obtain ⟨rfl, hx, hneg⟩ := self_of_rejected b h k r trap m hm c s hc call hs k' hk' hrej
  have hfound : getTaskByTid m (toInt32 (getReplyArgs (m.task s)).tid) = .ok (some s) := by
    rw [getReplyArgs, hx]
    exact hs
  have hlen := hcopies _ _ call (.reply hc hfound)
  simp only [Transfer.len, getReplyArgs, getSendArgs, hx] at hlen
  exact absurd hneg (not_lt.mpr hlen)

/-- **Replies to tasks that wait for none.**  A Reply that finds a live task is turned down unless
the task is in state `WATIREPLY`, just when the task is in that state: in every other state the
Reply is not turned down. -/
theorem reply_rejected_unless_waiting (b : Boot) (h : List (Iter Kernel Trap)) (k : Kernel)
    (r : b.Reaches h k) (trap : Trap) (m : Kernel) (hm : enterTrap k trap = .ok m) (c s : TaskPtr)
    (hc : m.currentTask = some c) (call : trap.syscall = some .reply)
    (hs : getTaskByTid m (toInt32 (trap.x 0)) = .ok (some s)) :
    ((m.task s).state ≠ .watireply →
      ∃ k', Completes b.img m trap k' ∧ Rejected m k' c) ↔ (m.task s).state = .watireply := by
  constructor
  · intro himp
    by_contra hw
    exact not_rejected b h k r trap m hm c s hc call hs (himp hw)
  · exact fun hw hno => absurd hw hno

/-- The first task receives the message of a task it has created, and replies to it. -/
theorem reply_rejected_unless_waiting_run : ∃ hist k m, zeroBoot.Reaches hist k ∧
    enterTrap k (svc 23 [2, 0x200, 8]) = .ok m ∧ (m.task 2).state = .watireply ∧
    ((m.task 2).state ≠ .watireply →
      ∃ k', Completes zeroBoot.img m (svc 23 [2, 0x200, 8]) k' ∧ Rejected m k' 0) := by
  obtain ⟨hist, k, r, -, hk⟩ := Boot.reaches_of_check zeroBoot
    [svc 1 [4], svc 22 [0x100, 0x200, 8], svc 21 [0, 0x300, 8, 0x300, 8]]
    (fun _ k => returns (enterTrap k (svc 23 [2, 0x200, 8])) fun m =>
      decide (m.currentTask = some 0 ∧ getTaskByTid m 2 = .ok (some 2) ∧
        (m.task 2).state = .watireply)) (by decide +kernel)
  obtain ⟨m, hm, hk⟩ := returns_iff.mp hk
  obtain ⟨hc, hs, hw⟩ := of_decide_eq_true hk
  refine ⟨hist, k, m, r, hm, hw, ?_⟩
  exact (reply_rejected_unless_waiting zeroBoot hist k r _ m hm 0 2 hc (by decide +kernel)
    (by rw [← hs]; rfl)).mpr hw

/-- The first task replies to the idle task, which is ready: an assertion fails. -/
theorem reply_to_ready_task : ∃ k m, zeroBoot.Reaches [] k ∧
    enterTrap k (svc 23 [1]) = .ok m ∧ m.currentTask = some 0 ∧
    getTaskByTid m 1 = .ok (some 1) ∧ (m.task 1).state = .ready ∧
    handleCurrentException zeroBoot.img m (svc 23 [1]) = .error .changeTaskState ∧
    ¬ ∃ k', Completes zeroBoot.img m (svc 23 [1]) k' ∧ Rejected m k' 0 := by
  obtain ⟨hist, k, r, hmap, hk⟩ := Boot.reaches_of_check zeroBoot
    []
    (fun _ k => returns (enterTrap k (svc 23 [1])) fun m =>
      decide (m.currentTask = some 0 ∧ getTaskByTid m 1 = .ok (some 1) ∧
        (m.task 1).state = .ready ∧
        failure (handleCurrentException zeroBoot.img m (svc 23 [1])) =
          some .changeTaskState)) (by decide +kernel)
  obtain rfl : hist = [] := List.map_eq_nil_iff.mp hmap
  obtain ⟨m, hm, hk⟩ := returns_iff.mp hk
  obtain ⟨hc, hs, hst, hstop⟩ := of_decide_eq_true hk
  have he := failure_eq_some.mp hstop
  refine ⟨k, m, r, hm, hc, hs, hst, he, ?_⟩
  rintro ⟨k', ⟨hk', -⟩, -⟩
  rw [he] at hk'
  cases hk'

end RealtimeKernel
