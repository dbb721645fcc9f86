import RealtimeKernel.InterruptWakeups
import RealtimeKernel.SenderRings
import RealtimeKernel.Rendezvous

/-!
# What becomes of one task

`Effect` says what a handler does to the whole kernel.  A program that runs on the kernel is about a
few given tasks, and asks of each handler what becomes of them: of a live task that did not trap
(`Fate`), and of the task that made the call (`Deed`).
-/

namespace RealtimeKernel

open Lib

namespace AbsKernel

variable {a a' m : AbsKernel} {img : Image} {c t : TaskPtr} {trap : Trap}

/-- What becomes of the live task `t` when another task `c` traps. -/
inductive Fate (a : AbsKernel) (c : TaskPtr) (trap : Trap) (a' : AbsKernel) (t : TaskPtr) : Prop
  | stays (state : (a'.task t).state = (a.task t).state) (passing : a'.passing t = a.passing t)
  /-- An interrupt of timer 1 wakes it. -/
  | woken {chi clo : U32} (cause : trap.cause = .irq waitTimer1 chi clo)
      (was : (a.task t).state = .awatievent) (ready : (a'.task t).state = .ready)
      (passing : a'.passing t = a.passing t)
  /-- It waited for the message that `c` sends. -/
  | handed (call : trap.syscall = some .send)
      (lookup : a.getTaskByTid (toInt32 ((a.task c).x 0)) = some t)
      (was : (a.task t).state = .waitreceive) (ready : (a'.task t).state = .ready)
      (passed : a'.passing t = some (ofInt (a.deliveredLen c t)))
      (mem : a'.mem = a.delivered c t) (sender : (a'.task c).state = .watireply)
  /-- Its message was the first in the ring of `c`. -/
  | picked (call : trap.syscall = some .receive)
      (ring : a.rings c = ofInt (a.task t).tid :: a'.rings c)
      (was : (a.task t).state = .watisend) (now : (a'.task t).state = .watireply)
      (passing : a'.passing t = a.passing t)
  | answered (call : trap.syscall = some .reply)
      (lookup : a.getTaskByTid (toInt32 ((a.task c).x 0)) = some t)
      (was : (a.task t).state = .watireply) (ready : (a'.task t).state = .ready)
      (passed : a'.passing t = some (ofInt (a.repliedLen c t)))

/-- **A live task that does not trap** has one of five fates. -/
theorem Effect.fate (he : Effect img a c trap a') (h : a.Orderly) (hc : a.currentTask = some c)
    (hx : (a.task c).x = trap.x) (hok : a.ReplyOk trap) (ht : t ∈ a.jobq) (htc : t ≠ c) :
    Fate a c trap a' t := by
  cases he with
  | ignored => exact .stays rfl rfl
  | yielded => exact .stays rfl rfl
  | toldTid => exact .stays (by simp) (by rw [passing_assign, if_neg htc])
  | toldParentTid => exact .stays (by simp) (by rw [passing_assign, if_neg htc])
  | @created u free block used call hfree alloc room push =>
    have htu : t ≠ u := by
      rintro rfl
      exact h.free_jobq t (by simp [hfree]) ht
    apply Fate.stays
    · rw [assign_state, makeReady_task, setState_state, if_neg htu]
      simp [addTask, htu]
    · rw [passing_assign, if_neg htc, passing_makeReady]
      simp [passing, addTask, htu]
  | createFailed => exact .stays (by simp) (by rw [passing_assign, if_neg htc])
  | exited => exact .stays (by simp [removed, htc]) (by simp [passing, removed, htc])
  | sendNoTask => exact .stays (by simp) (by rw [passing_assign, if_neg htc])
  | @sendDirect r call lookup state push =>
    by_cases htr : t = r
    · subst htr
      refine .handed call lookup state ?_ ?_ rfl ?_
      · rw [setState_state, if_neg htc, makeReady_task, setState_state, if_pos rfl]
      · rw [passing_setState, passing_makeReady, passing_assign, if_pos rfl]
      · rw [setState_state, if_pos rfl]
    · apply Fate.stays
      · rw [setState_state, if_neg htc, makeReady_task, setState_state, if_neg htr, assign_state,
          setMem_task]
      · rw [passing_setState, passing_makeReady, passing_assign, if_neg htr, passing_setMem]
  | @sendQueued r =>
    apply Fate.stays
    · rw [setState_state, if_neg htc, modify_field a r _ Task.state rfl]
    · rw [passing_setState, passing_modify a r t ⟨rfl, rfl⟩]
  | sendFull => exact .stays (by simp) (by rw [passing_assign, if_neg htc])
  | receiveBlocked =>
    apply Fate.stays
    · rw [setState_state, if_neg htc]
    · rw [passing_setState]
  | receiveVanished call nonempty lookup =>
    obtain ⟨s, -, -, hl, -⟩ := h.toRings.nextSender h.toWellFormed nonempty
    rw [lookup] at hl
    cases hl
  | @received s call nonempty lookup state =>
    obtain ⟨s', hsj, hring, hl, hst⟩ := h.toRings.nextSender h.toWellFormed nonempty
    obtain rfl : s = s' := Option.some.inj (lookup.symm.trans hl)
    by_cases hts : t = s
    · subst hts
      refine .picked call ?_ hst ?_ ?_
      · rw [rings_setState, rings_assign]
        simpa [rings] using hring
      · rw [setState_state, if_pos rfl]
      · rw [passing_setState, passing_assign, if_neg htc, passing_setMem,
          passing_modify a c t ⟨rfl, rfl⟩]
    · apply Fate.stays
      · rw [setState_state, if_neg hts, assign_state, setMem_task, (task_nextSender a c t).2.2]
      · rw [passing_setState, passing_assign, if_neg htc, passing_setMem,
          passing_modify a c t ⟨rfl, rfl⟩]
  | replyNoTask => exact .stays (by simp) (by rw [passing_assign, if_neg htc])
  | @replied s call lookup state =>
    by_cases hts : t = s
    · subst hts
      refine .answered call lookup (hok call t (hx ▸ lookup)) ?_ ?_
      · rw [assign_state, makeReady_task, setState_state, if_pos rfl]
      · rw [passing_assign, if_neg htc, passing_makeReady, passing_assign, if_pos rfl]
    · apply Fate.stays
      · rw [assign_state, makeReady_task, setState_state, if_neg hts, assign_state, setMem_task]
      · rw [passing_assign, if_neg htc, passing_makeReady, passing_assign, if_neg hts,
          passing_setMem]
  | @repliedRunning s call lookup state =>
    have hts : t ≠ s := by
      rintro rfl
      exact htc (Option.some.inj ((h.running t state).symm.trans hc))
    apply Fate.stays
    · simp
    · rw [passing_assign, if_neg htc, passing_assign, if_neg hts, passing_setMem]
  | awaited =>
    apply Fate.stays
    · exact (setState_state a c .awatievent t).trans (if_neg htc)
    · exact passing_setState a c t .awatievent
  | tickIdle => exact .stays rfl rfl
  | @tickWoke chi clo clocks u q cause tick pop state =>
    by_cases htu : t = u
    · subst htu
      refine .woken cause state ?_ (passing_makeReady _ t t)
      rw [makeReady_task, setState_state, if_pos rfl]
    · refine .stays ?_ (passing_makeReady _ u t)
      rw [makeReady_task, setState_state, if_neg htu]

/-- What a Send of `c` does. -/
inductive SendDeed (a : AbsKernel) (c : TaskPtr) : AbsKernel → Prop
  | noTask (lookup : a.getTaskByTid (toInt32 ((a.task c).x 0)) = none) :
      SendDeed a c (a.assign c (-1))
  | direct {r : TaskPtr} (lookup : a.getTaskByTid (toInt32 ((a.task c).x 0)) = some r)
      (state : (a.task r).state = .waitreceive) :
      SendDeed a c ((((a.setMem (a.delivered c r)).assign r (a.deliveredLen c r)).makeReady
        r).setState c .watireply)
  | queued {r : TaskPtr} (lookup : a.getTaskByTid (toInt32 ((a.task c).x 0)) = some r)
      (state : (a.task r).state ≠ .waitreceive)
      (room : (registerSender (a.task r) (a.task c).tid).1 = true) :
      SendDeed a c
        ((a.modify r fun _ => (registerSender (a.task r) (a.task c).tid).2).setState c .watisend)
  | full {r : TaskPtr} (lookup : a.getTaskByTid (toInt32 ((a.task c).x 0)) = some r)
      (full : (registerSender (a.task r) (a.task c).tid).1 = false) :
      SendDeed a c (a.assign c (-2))

/-- What a Receive of `c` does. -/
inductive ReceiveDeed (a : AbsKernel) (c : TaskPtr) : AbsKernel → Prop
  | blocked (ring : a.rings c = []) : ReceiveDeed a c (a.setState c .waitreceive)
  | received {s : TaskPtr} (live : s ∈ a.jobq) (state : (a.task s).state = .watisend)
      (ring : a.rings c = ofInt (a.task s).tid :: (nextSender (a.task c)).2.senders.contents) :
      ReceiveDeed a c ((((a.modify c fun _ => (nextSender (a.task c)).2).setMem
        (a.delivered s c)).assign c (a.deliveredLen s c)).setState s .watireply)

/-- What the task that trapped has done, by its call. -/
def Deed (img : Image) (a : AbsKernel) (c : TaskPtr) (a' : AbsKernel) : Option Syscall → Prop
  | none => a'.task c = a.task c
  | some .create => ∃ v : ℤ, a'.task c = assignResult (a.task c) (ofInt v)
  | some .yield => a' = a
  | some .exit => ∃ block, a' = a.removed img c block
  | some .myTid => a' = a.assign c (a.task c).tid
  | some .myParentTid => a' = a.assign c (a.task c).parentTid
  | some .send => SendDeed a c a'
  | some .receive => ReceiveDeed a c a'
  | some .reply => (∃ v : ℤ, a'.task c = assignResult (a.task c) (ofInt v)) ∧
      ∀ s ≠ c, a.getTaskByTid (toInt32 ((a.task c).x 0)) = some s →
        (a'.task s).state = .ready ∧ a'.passing s = some (ofInt (a.repliedLen c s))
  | some .awaitEvent => a'.task c = { a.task c with state := .awatievent }

/-- **The task that trapped** has done what its call says. -/
theorem Effect.deed (he : Effect img a c trap a') (h : a.Orderly) (hc : a.currentTask = some c)
    (hrun : (a.task c).state = .running) : Deed img a c a' trap.syscall := by
  cases he with
  | ignored cause cls =>
    rw [show trap.syscall = none by simp [Trap.syscall, cause, cls]]
    rfl
  | yielded call =>
    rw [call]
    rfl
  | toldTid call =>
    rw [call]
    rfl
  | toldParentTid call =>
    rw [call]
    rfl
  | @created u free block used call hfree =>
    have hcu : c ≠ u := by
      rintro rfl
      exact h.current_free c hc (by simp [hfree])
    rw [call]
    exact ⟨a.taskIdCnt, by simp [assign, makeReady, setState, addTask, hcu]⟩
  | createFailed call =>
    rw [call]
    exact ⟨_, assign_task_self a c _⟩
  | exited call =>
    rw [call]
    exact ⟨_, rfl⟩
  | sendNoTask call lookup =>
    rw [call]
    exact .noTask lookup
  | sendDirect call lookup state =>
    rw [call]
    exact .direct lookup state
  | sendQueued call lookup state room =>
    rw [call]
    exact .queued lookup state room
  | sendFull call lookup _ full =>
    rw [call]
    exact .full lookup full
  | receiveBlocked call empty =>
    rw [call]
    exact .blocked ((Queue.isEmpty_iff (h.ring c).ok).mp empty)
  | receiveVanished call nonempty lookup =>
    obtain ⟨s, -, -, hl, -⟩ := h.toRings.nextSender h.toWellFormed nonempty
    rw [lookup] at hl
    cases hl
  | @received s call nonempty lookup =>
    obtain ⟨s', hsj, hring, hl, hst⟩ := h.toRings.nextSender h.toWellFormed nonempty
    obtain rfl : s = s' := Option.some.inj (lookup.symm.trans hl)
    rw [call]
    exact .received hsj hst hring
  | replyNoTask call lookup =>
    rw [call]
    refine ⟨⟨_, assign_task_self a c _⟩, fun s _ hs => ?_⟩
    rw [lookup] at hs
    cases hs
  | @replied s call lookup state =>
    have hcs : c ≠ s := by
      rintro rfl
      exact state hrun
    rw [call]
    refine ⟨⟨a.repliedLen c s, by simp [assign, makeReady, setState, hcs]⟩, fun s' hsc hs => ?_⟩
    obtain rfl : s = s' := Option.some.inj (lookup.symm.trans hs)
    constructor
    · rw [assign_state, makeReady_task, setState_state, if_pos rfl]
    · rw [passing_assign, if_neg hsc, passing_makeReady, passing_assign, if_pos rfl]
  | @repliedRunning s call lookup state =>
    obtain rfl : s = c := Option.some.inj ((h.running s state).symm.trans hc)
    rw [call]
    refine ⟨⟨a.repliedLen s s, by simp [assign, assignResult]⟩, fun s' hsc hs => ?_⟩
    exact absurd (Option.some.inj (hs.symm.trans lookup)) hsc
  | awaited call =>
    rw [call]
    exact Function.update_self _ _ _
  | tickIdle cause =>
    rw [show trap.syscall = none by simp [Trap.syscall, cause]]
    rfl
  | @tickWoke chi clo clocks u q cause tick pop state =>
    have hcu : c ≠ u := by
      rintro rfl
      rw [hrun] at state
      cases state
    rw [show trap.syscall = none by simp [Trap.syscall, cause]]
    exact Function.update_of_ne hcu _ _

/-! ### What stays -/

/-- A live task stays live unless it exits. -/
theorem Effect.live (he : Effect img a c trap a') (h : a.WellFormed) (ht : t ∈ a.jobq)
    (hexit : t = c → trap.syscall ≠ some .exit) : t ∈ a'.jobq := by
  cases he.turnover with
  | exited call live jobq =>
    rw [jobq]
    exact h.jobq_nodup.mem_erase_iff.mpr ⟨fun htc => hexit htc call, ht⟩
  | created call jobq =>
    rw [jobq]
    exact List.mem_append_left _ ht
  | kept call jobq =>
    rw [jobq]
    exact ht

@[simp] theorem assign_parentTid (a : AbsKernel) (t : TaskPtr) (v : ℤ) (u : TaskPtr) :
    ((a.assign t v).task u).parentTid = (a.task u).parentTid :=
  modify_field a t _ Task.parentTid rfl u

@[simp] theorem setState_parentTid (a : AbsKernel) (t : TaskPtr) (s : TaskState) (u : TaskPtr) :
    ((a.setState t s).task u).parentTid = (a.task u).parentTid :=
  modify_field a t _ Task.parentTid rfl u

/-- A live task keeps its parent. -/
theorem Effect.parentTid (he : Effect img a c trap a') (h : a.WellFormed) (ht : t ∈ a.jobq)
    (ht' : t ∈ a'.jobq) : (a'.task t).parentTid = (a.task t).parentTid := by
  cases he with
  | ignored => rfl
  | yielded => rfl
  | toldTid => simp
  | toldParentTid => simp
  | @created u free block used call hfree =>
    have htu : t ≠ u := by
      rintro rfl
      exact h.free_jobq t (by simp [hfree]) ht
    simp [addTask, htu]
  | createFailed => simp
  | exited =>
    have htc : t ≠ c := (h.jobq_nodup.mem_erase_iff.mp ht').1
    simp [removed, htc]
  | sendNoTask => simp
  | sendDirect => simp
  | @sendQueued r =>
    rw [setState_parentTid]
    exact modify_field a r _ Task.parentTid rfl t
  | sendFull => simp
  | receiveBlocked => simp
  | receiveVanished =>
    rw [assign_parentTid]
    exact modify_field a c _ Task.parentTid rfl t
  | received =>
    rw [setState_parentTid, assign_parentTid, setMem_task]
    exact modify_field a c _ Task.parentTid rfl t
  | replyNoTask => simp
  | replied => simp
  | repliedRunning => simp
  | awaited => exact setState_parentTid a c .awatievent t
  | tickIdle => rfl
  | tickWoke => simp

/-- A sender stays in a ring until its message is delivered. -/
theorem Effect.ring_stays (he : Effect img a c trap a') (h : a.Orderly)
    (hc : a.currentTask = some c) (hrun : (a.task c).state = .running) (ht : t ∈ a.jobq)
    (hexit : t = c → trap.syscall ≠ some .exit) {s : TaskPtr} (hs : s ∈ a.jobq)
    (hin : ofInt (a.task s).tid ∈ a.rings t) (hstay : (a'.task s).state ≠ .watireply) :
    ofInt (a.task s).tid ∈ a'.rings t := by
  have hfree : t ∉ a.free := h.not_free ht
  have htail : ∀ {e : U64}, a.rings c = e :: a'.rings c → e ≠ ofInt (a.task s).tid →
      (∀ u ≠ c, a'.rings u = a.rings u) → ofInt (a.task s).tid ∈ a'.rings t := by
    intro e hring hne hrings
    by_cases htc : t = c
    · rw [htc, hring, List.mem_cons] at hin
      rw [htc]
      exact hin.resolve_left hne.symm
    · rw [hrings t htc]
      exact hin
  cases he.traffic h.toWellFormed hc hrun with
  | quiet still =>
    rw [still.rings t fun hf => absurd hf hfree]
    exact hin
  | exited call live jobq ring rings =>
    rw [rings t fun htc => hexit htc call]
    exact hin
  | direct call lookup wait jobq rings =>
    rw [rings]
    exact hin
  | @queued r call lookup jobq ring rings =>
    by_cases htr : t = r
    · rw [htr, ring]
      exact List.mem_append_left _ (htr ▸ hin)
    · rw [rings t htr]
      exact hin
  | vanished call jobq ring gone rings =>
    apply htail ring _ rings
    rintro rfl
    rw [h.lookup_ofInt hs] at gone
    cases gone
  | received call jobq ring lookup rings before sender =>
    apply htail ring _ rings
    rintro rfl
    rw [h.lookup_ofInt hs] at lookup
    obtain rfl := Option.some.inj lookup
    exact hstay sender
  | replied call lookup jobq rings =>
    rw [rings]
    exact hin

/-- On the way to the handler a task keeps its parent and its result, and it stays blocked as it
was, or as able to run. -/
theorem Enters.keeps (he : Enters a trap c m) (h : a.Orderly) (t : TaskPtr) :
    (m.task t).parentTid = (a.task t).parentTid ∧ m.passing t = a.passing t ∧
      (m.task t).state.beforeReady = (a.task t).state.beforeReady ∧
      ((a.task t).state.beforeReady = true → (m.task t).state = (a.task t).state) := by
  have hpass : m.passing t = a.passing t := by
    obtain ⟨hflag, hresult, -⟩ := he.results t
    unfold passing
    rw [hflag, hresult]
  cases he with
  | @intro a₁ rq hr pop state =>
    have h₁ : (a₁.task t).parentTid = (a.task t).parentTid ∧
        (a₁.task t).state.beforeReady = (a.task t).state.beforeReady ∧
        ((a.task t).state.beforeReady = true → (a₁.task t).state = (a.task t).state) := by
      cases hr with
      | @running c' current hrun =>
        rw [makeReady_task, setState_parentTid, setState_state]
        by_cases htc : t = c'
        · rw [if_pos htc, htc, hrun]
          exact ⟨rfl, rfl, fun hb => by cases hb⟩
        · rw [if_neg htc]
          exact ⟨rfl, rfl, fun _ => rfl⟩
      | blocked => exact ⟨rfl, rfl, fun _ => rfl⟩
      | gone => exact ⟨rfl, rfl, fun _ => rfl⟩
    obtain ⟨hparent, hbefore, hstate⟩ := h₁
    refine ⟨?_, hpass, ?_⟩
    · rw [← hparent]
      by_cases htc : t = c
      · subst htc
        simp [dispatch, saveContext]
      · simp [dispatch, htc]
    · by_cases htc : t = c
      · subst htc
        obtain ⟨⟨p, hp⟩, -⟩ := mem_of_popHighest pop
        have hready := (h.requeue hr).toConsistent.mem_ready hp
        rw [hready] at hbefore
        rw [← hbefore]
        simp [dispatch, saveContext, TaskState.beforeReady]
      · rw [← hbefore] at hstate ⊢
        simpa [dispatch, htc] using hstate

/-- A blocked task is not the one that traps, and nothing happens to it on the way to the
handler. -/
theorem Enters.blocked (he : Enters a trap c m) (h : a.Orderly)
    (hb : (a.task t).state.beforeReady = true) :
    t ≠ c ∧ (m.task t).state = (a.task t).state ∧ (m.task t).x = (a.task t).x := by
  obtain ⟨-, -, -, hstate⟩ := he.keeps h t
  have htc : t ≠ c := by
    rintro rfl
    rw [← hstate hb, he.current.2.1] at hb
    cases hb
  exact ⟨htc, hstate hb, ((he.results t).2.2).trans (if_neg htc)⟩

end AbsKernel

end RealtimeKernel
