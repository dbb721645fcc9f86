import RealtimeKernel.ResumedRegisters

/-!
# Messages on their way

What an iteration of the kernel means for the messages: a Send is handed over or queued, a queued
one is picked up, a sender is replied to, or a task exits.  `Traffic` sorts the outcomes of the
handlers by this, and `delivery` reads off a history who received a message from whom: a sender
enters the state `WATIREPLY` just when its message is delivered.
-/

namespace RealtimeKernel

open Lib

/-- The state of a task whose Send has been accepted and not yet replied to. -/
def TaskState.inTransit (s : TaskState) : Prop := s = .watisend ∨ s = .watireply

namespace AbsKernel

variable {a a' m : AbsKernel} {img : Image} {c t : TaskPtr} {trap : Trap}

/-- The result that `t` resumes with. -/
def passing (a : AbsKernel) (t : TaskPtr) : Option U64 :=
  if (a.task t).shouldPassResult then some (a.task t).result else none

section Passing

variable (a : AbsKernel) (t u : TaskPtr)

@[simp] theorem passing_setMem (mem : Mem) : (a.setMem mem).passing u = a.passing u := rfl

@[simp] theorem passing_setState (s : TaskState) : (a.setState t s).passing u = a.passing u := by
  simp [passing]

@[simp] theorem passing_makeReady : (a.makeReady t).passing u = a.passing u := by
  simp [passing]

theorem passing_assign (v : ℤ) :
    (a.assign t v).passing u = if u = t then some (ofInt v) else a.passing u := by
  by_cases hu : u = t
  · subst hu
    simp [passing, assign, assignResult]
  · simp [passing, assign, hu]

theorem passing_modify {f : Task → Task}
    (hf : (f (a.task t)).shouldPassResult = (a.task t).shouldPassResult ∧
      (f (a.task t)).result = (a.task t).result) : (a.modify t f).passing u = a.passing u := by
  simp only [passing, modify_field a t f Task.shouldPassResult hf.1 u,
    modify_field a t f Task.result hf.2 u]

theorem rings_assign (v : ℤ) : (a.assign t v).rings = a.rings :=
  funext fun r => by simp [rings]

theorem rings_setState (s : TaskState) : (a.setState t s).rings = a.rings :=
  funext fun r => by simp [rings]

end Passing

/-- No message moves in a step of `c`; at most a task is created. -/
structure Still (a : AbsKernel) (c : TaskPtr) (trap : Trap) (a' : AbsKernel) : Prop where
  call : trap.syscall ≠ some .exit
  live : ∀ t ∈ a.jobq, t ∈ a'.jobq
  new : ∀ t ∈ a'.jobq, t ∈ a.jobq ∨ t ∈ a.free ∧ a'.rings t = [] ∧ (a'.task t).state = .ready
  rings : ∀ t, (t ∈ a.free → t ∉ a'.jobq) → a'.rings t = a.rings t
  own : (a'.task c).state = .running ∨ (a'.task c).state = .waitreceive ∨
    (a'.task c).state = .awatievent
  other : ∀ t ≠ c, (a'.task t).state = (a.task t).state ∨
    (a'.task t).state = .ready ∧ (t ∈ a.free ∨ (a.task t).state = .awatievent)
  passing : ∀ t ≠ c, t ∉ a.free → a'.passing t = a.passing t
  send : trap.syscall = some .send → ∃ v : ℤ, (v = -1 ∨ v = -2) ∧ a'.passing c = some (ofInt v)
  receive : trap.syscall = some .receive ↔ (a'.task c).state = .waitreceive
  reply : trap.syscall = some .reply →
    ∀ s, a.getTaskByTid (toInt32 ((a.task c).x 0)) = some s → s = c

/-- What the handler of `trap`, made by `c`, means for the messages. -/
inductive Traffic (a : AbsKernel) (c : TaskPtr) (trap : Trap) (a' : AbsKernel) : Prop
  | quiet (still : Still a c trap a')
  | exited (call : trap.syscall = some .exit) (live : c ∈ a.jobq) (jobq : a'.jobq = a.jobq.erase c)
      (ring : a'.rings c = []) (rings : ∀ t ≠ c, a'.rings t = a.rings t)
      (dead : (a'.task c).state = .initialized)
      (state : ∀ t ≠ c, (a'.task t).state = (a.task t).state)
      (passing : ∀ t ≠ c, a'.passing t = a.passing t)
  /-- A message is handed over. -/
  | direct {r : TaskPtr} (call : trap.syscall = some .send)
      (lookup : a.getTaskByTid (toInt32 ((a.task c).x 0)) = some r)
      (wait : (a.task r).state = .waitreceive) (jobq : a'.jobq = a.jobq)
      (rings : a'.rings = a.rings) (sender : (a'.task c).state = .watireply)
      (receiver : (a'.task r).state = .ready)
      (state : ∀ t, t ≠ c → t ≠ r → (a'.task t).state = (a.task t).state)
      (mem : a'.mem = a.delivered c r) (passed : a'.passing r = some (ofInt (a.deliveredLen c r)))
      (passing : ∀ t ≠ r, a'.passing t = a.passing t)
  /-- A message waits in a ring. -/
  | queued {r : TaskPtr} (call : trap.syscall = some .send)
      (lookup : a.getTaskByTid (toInt32 ((a.task c).x 0)) = some r) (jobq : a'.jobq = a.jobq)
      (ring : a'.rings r = a.rings r ++ [ofInt (a.task c).tid])
      (rings : ∀ t ≠ r, a'.rings t = a.rings t) (sender : (a'.task c).state = .watisend)
      (state : ∀ t ≠ c, (a'.task t).state = (a.task t).state)
      (passing : ∀ t, a'.passing t = a.passing t)
  /-- The sender at the front of the ring is no longer there. -/
  | vanished {e : U64} (call : trap.syscall = some .receive) (jobq : a'.jobq = a.jobq)
      (ring : a.rings c = e :: a'.rings c) (gone : a.getTaskByTid (toInt32 e) = none)
      (rings : ∀ t ≠ c, a'.rings t = a.rings t)
      (state : ∀ t, (a'.task t).state = (a.task t).state)
  /-- A message is taken from the ring. -/
  | received {s : TaskPtr} {e : U64} (call : trap.syscall = some .receive)
      (jobq : a'.jobq = a.jobq) (ring : a.rings c = e :: a'.rings c)
      (lookup : a.getTaskByTid (toInt32 e) = some s) (rings : ∀ t ≠ c, a'.rings t = a.rings t)
      (before : (a.task s).state ≠ .watireply) (sender : (a'.task s).state = .watireply)
      (state : ∀ t ≠ s, (a'.task t).state = (a.task t).state)
      (mem : a'.mem = a.delivered s c) (passed : a'.passing c = some (ofInt (a.deliveredLen s c)))
      (passing : ∀ t ≠ c, a'.passing t = a.passing t)
  | replied {s : TaskPtr} (call : trap.syscall = some .reply)
      (lookup : a.getTaskByTid (toInt32 ((a.task c).x 0)) = some s) (jobq : a'.jobq = a.jobq)
      (rings : a'.rings = a.rings) (ready : (a'.task s).state = .ready)
      (state : ∀ t ≠ s, (a'.task t).state = (a.task t).state)
      (passed : s ≠ c → a'.passing s = some (ofInt (a.repliedLen c s)))
      (passing : ∀ t, t ≠ s → t ≠ c → a'.passing t = a.passing t)

theorem not_inTransit_of_eq {s u : TaskState} (h : s = u)
    (hu : u ≠ .watisend ∧ u ≠ .watireply) : ¬ s.inTransit := by
  rintro (he | he)
  · exact hu.1 (h.symm.trans he)
  · exact hu.2 (h.symm.trans he)

/-- In a still step a task in transit was so before, in the same state. -/
theorem Still.state (h : Still a c trap a') {t : TaskPtr} (ht : (a'.task t).state.inTransit) :
    t ≠ c ∧ (a'.task t).state = (a.task t).state := by
  have htc : t ≠ c := by
    rintro rfl
    rcases h.own with hs | hs | hs
    · exact not_inTransit_of_eq hs (by decide) ht
    · exact not_inTransit_of_eq hs (by decide) ht
    · exact not_inTransit_of_eq hs (by decide) ht
  exact ⟨htc, (h.other t htc).resolve_right fun hr => not_inTransit_of_eq hr.1 (by decide) ht⟩

/-- A step of `c` that only assigns it a result. -/
theorem Still.assign (hrun : (a.task c).state = .running) {p : Syscall} {v : ℤ}
    (call : trap.syscall = some p) (hexit : p ≠ .exit) (hreceive : p ≠ .receive)
    (hsend : p = .send → v = -1 ∨ v = -2)
    (hreply : p = .reply → a.getTaskByTid (toInt32 ((a.task c).x 0)) = none) :
    Still a c trap (a.assign c v) where
  call := by rw [call]; simpa using hexit
  live := fun t ht => ht
  new := fun t ht => Or.inl ht
  rings := fun t _ => by rw [rings_assign]
  own := Or.inl (by simpa using hrun)
  other := fun t _ => Or.inl (by simp)
  passing := fun t ht _ => by rw [passing_assign, if_neg ht]
  send := fun hs => ⟨v, hsend (Option.some.inj (call.symm.trans hs)),
    by rw [passing_assign, if_pos rfl]⟩
  receive := by
    rw [call, assign_state, hrun]
    simpa using hreceive
  reply := fun hr s hs => by
    rw [hreply (Option.some.inj (call.symm.trans hr))] at hs
    cases hs

/-- A step of `c` that only blocks it. -/
theorem Still.block {b : AbsKernel} {s : TaskState} {p : Syscall} (call : trap.syscall = some p)
    (hp : p = .receive ∧ s = .waitreceive ∨ p = .awaitEvent ∧ s = .awatievent)
    (htask : b.task = (a.setState c s).task) (hjobq : b.jobq = a.jobq) : Still a c trap b where
  call := by
    rw [call]
    rcases hp with ⟨rfl, -⟩ | ⟨rfl, -⟩ <;> decide
  live := fun t ht => hjobq ▸ ht
  new := fun t ht => Or.inl (hjobq ▸ ht)
  rings := fun t _ => by simp [AbsKernel.rings, htask]
  own := by
    rw [htask, setState_state, if_pos rfl]
    exact Or.inr (hp.imp And.right And.right)
  other := fun t ht => by
    rw [htask, setState_state, if_neg ht]
    exact Or.inl rfl
  passing := fun t _ _ => by simp [AbsKernel.passing, htask]
  send := fun hs => by
    rw [call] at hs
    rcases hp with ⟨rfl, -⟩ | ⟨rfl, -⟩ <;> cases hs
  receive := by
    rw [call, htask, setState_state, if_pos rfl]
    rcases hp with ⟨rfl, rfl⟩ | ⟨rfl, rfl⟩ <;> decide
  reply := fun hr => by
    rw [call] at hr
    rcases hp with ⟨rfl, -⟩ | ⟨rfl, -⟩ <;> cases hr

/-- A step that is no system call, or a Yield. -/
theorem Still.idle (hrun : (a.task c).state = .running)
    (call : trap.syscall = none ∨ trap.syscall = some .yield) {b : AbsKernel}
    (hjobq : b.jobq = a.jobq) (hrings : b.rings = a.rings) (hpass : b.passing = a.passing)
    (hown : (b.task c).state = (a.task c).state)
    (hother : ∀ t, (b.task t).state = (a.task t).state ∨
      (b.task t).state = .ready ∧ (a.task t).state = .awatievent) : Still a c trap b where
  call := by rcases call with hc | hc <;> simp [hc]
  live := fun t ht => hjobq ▸ ht
  new := fun t ht => Or.inl (hjobq ▸ ht)
  rings := fun t _ => by rw [hrings]
  own := Or.inl (hown.trans hrun)
  other := fun t _ => (hother t).imp_right fun hr => ⟨hr.1, Or.inr hr.2⟩
  passing := fun t _ _ => by rw [hpass]
  send := fun hs => by rcases call with hc | hc <;> simp [hc] at hs
  receive := by
    rw [hown, hrun]
    rcases call with hc | hc <;> simp [hc]
  reply := fun hs => by rcases call with hc | hc <;> simp [hc] at hs

/-- A step of `c` that makes the free descriptor `u` a ready task. -/
theorem Still.created (hrun : (a.task c).state = .running) (call : trap.syscall = some .create)
    {b : AbsKernel} {u : TaskPtr} (hcu : c ≠ u) (hu : u ∈ a.free)
    (live : ∀ {t}, t ∈ a.jobq → t ∈ b.jobq) (mem : u ∈ b.jobq)
    (new : ∀ t ∈ b.jobq, t ∈ a.jobq ∨ t = u) (ring : b.rings u = [])
    (ready : (b.task u).state = .ready) (rings : ∀ t ≠ u, b.rings t = a.rings t)
    (state : ∀ t ≠ u, (b.task t).state = (a.task t).state)
    (passing : ∀ t, t ≠ c → t ≠ u → b.passing t = a.passing t) : Still a c trap b where
  call := by rw [call]; decide
  live := fun t ht => live ht
  new := fun t ht => by
    rcases new t ht with hj | rfl
    · exact Or.inl hj
    · exact Or.inr ⟨hu, ring, ready⟩
  rings := fun t ht => rings t fun he => by
    subst he
    exact ht hu mem
  own := Or.inl ((state c hcu).trans hrun)
  other := fun t _ => by
    by_cases htu : t = u
    · subst htu
      exact Or.inr ⟨ready, Or.inl hu⟩
    · exact Or.inl (state t htu)
  passing := fun t htc hfree => passing t htc fun he => hfree (he ▸ hu)
  send := fun hs => by
    rw [call] at hs
    cases hs
  receive := by
    rw [call, state c hcu, hrun]
    decide
  reply := fun hs => by
    rw [call] at hs
    cases hs

/-- A Reply of `c` to itself. -/
theorem Still.answered (hrun : (a.task c).state = .running) (call : trap.syscall = some .reply)
    {b : AbsKernel} (lookup : a.getTaskByTid (toInt32 ((a.task c).x 0)) = some c)
    (jobq : b.jobq = a.jobq) (rings : b.rings = a.rings)
    (state : ∀ t, (b.task t).state = (a.task t).state)
    (passing : ∀ t ≠ c, b.passing t = a.passing t) : Still a c trap b where
  call := by rw [call]; decide
  live := fun t ht => jobq ▸ ht
  new := fun t ht => Or.inl (jobq ▸ ht)
  rings := fun t _ => by rw [rings]
  own := Or.inl ((state c).trans hrun)
  other := fun t _ => Or.inl (state t)
  passing := fun t ht _ => passing t ht
  send := fun hs => by
    rw [call] at hs
    cases hs
  receive := by
    rw [call, state, hrun]
    decide
  reply := fun _ s hs => Option.some.inj (hs.symm.trans lookup)

/-- **Every outcome of a handler** is one of these kinds of traffic. -/
theorem Effect.traffic (he : Effect img a c trap a') (h : a.WellFormed)
    (hc : a.currentTask = some c) (hrun : (a.task c).state = .running) :
    Traffic a c trap a' := by
  have hirq : ∀ {chi clo}, trap.cause = .irq waitTimer1 chi clo → trap.syscall = none :=
    fun hcause => by simp [Trap.syscall, hcause]
  cases he with
  | ignored cause cls =>
    exact .quiet (.idle hrun (Or.inl (by simp [Trap.syscall, cause, cls])) rfl rfl rfl rfl
      fun t => Or.inl rfl)
  | yielded call => exact .quiet (.idle hrun (Or.inr call) rfl rfl rfl rfl fun t => Or.inl rfl)
  | toldTid call =>
    exact .quiet (.assign hrun call (by decide) (by decide) (by simp) (by simp))
  | toldParentTid call =>
    exact .quiet (.assign hrun call (by decide) (by decide) (by simp) (by simp))
  | @created u free block used call hfree alloc room push =>
    have hu : u ∈ a.free := by simp [hfree]
    have hcu : c ≠ u := by
      rintro rfl
      exact h.current_free c hc hu
    refine .quiet (.created hrun call hcu hu (List.mem_append_left _)
      (List.mem_append_right _ (List.mem_singleton_self u)) (fun t ht => ?_) ?_ ?_
      (fun t ht => ?_) (fun t htu => ?_) fun t htc htu => ?_)
    · exact List.mem_append.mp ht |>.imp_right List.mem_singleton.mp
    · simp [rings, addTask, newTask, taskInit, hcu.symm, assign, setState]
    · rw [assign_state, makeReady_task, setState_state, if_pos rfl]
    · simp [rings, addTask, ht]
    · rw [assign_state, makeReady_task, setState_state, if_neg htu]
      simp [addTask, htu]
    · rw [passing_assign, if_neg htc, passing_makeReady]
      simp [passing, addTask, htu]
  | createFailed call =>
    exact .quiet (.assign hrun call (by decide) (by decide) (by simp) (by simp))
  | exited call live =>
    refine .exited call live rfl ?_ (fun t ht => ?_) ?_ (fun t ht => ?_) fun t ht => ?_
    · simp [rings, removed, taskInit]
    · simp [rings, removed, ht]
    · simp [removed, taskInit]
    · simp [removed, ht]
    · simp [passing, removed, ht]
  | sendNoTask call =>
    exact .quiet (.assign hrun call (by decide) (by decide) (fun _ => Or.inl rfl) (by simp))
  | @sendDirect r call lookup wait =>
    have hcr : r ≠ c := by
      rintro rfl
      rw [hrun] at wait
      cases wait
    refine .direct call lookup wait rfl (funext fun t => by simp [rings]) ?_ ?_
      (fun t htc htr => ?_) rfl ?_ fun t ht => ?_
    · rw [setState_state, if_pos rfl]
    · rw [setState_state, if_neg hcr, makeReady_task, setState_state, if_pos rfl]
    · rw [setState_state, if_neg htc, makeReady_task, setState_state, if_neg htr, assign_state,
        setMem_task]
    · rw [passing_setState, passing_makeReady, passing_assign, if_pos rfl]
    · rw [passing_setState, passing_makeReady, passing_assign, if_neg ht, passing_setMem]
  | @sendQueued r call lookup state room =>
    refine .queued call lookup rfl ?_ (fun t ht => ?_) ?_ (fun t ht => ?_) fun t => ?_
    · rw [rings_setState]
      simp [rings, registerSender_contents (h.ring r) room]
    · rw [rings_setState]
      simp [rings, ht]
    · rw [setState_state, if_pos rfl]
    · rw [setState_state, if_neg ht, modify_field a r _ Task.state rfl]
    · rw [passing_setState, passing_modify a r t ⟨rfl, rfl⟩]
  | sendFull call =>
    exact .quiet (.assign hrun call (by decide) (by decide) (fun _ => Or.inr rfl) (by simp))
  | receiveBlocked call => exact .quiet (.block call (Or.inl ⟨rfl, rfl⟩) rfl rfl)
  | receiveVanished call nonempty lookup =>
    obtain ⟨e, hring, hid⟩ := nextSender_contents (h.ring c) nonempty
    refine .vanished (e := e) call rfl ?_ (hid ▸ lookup) (fun t ht => ?_) fun t => ?_
    · rw [rings_assign]
      simpa [rings] using hring
    · rw [rings_assign]
      simp [rings, ht]
    · rw [assign_state, (task_nextSender a c t).2.2]
  | @received s call nonempty lookup before =>
    obtain ⟨e, hring, hid⟩ := nextSender_contents (h.ring c) nonempty
    refine .received (e := e) call rfl ?_ (hid ▸ lookup) (fun t ht => ?_) before ?_
      (fun t ht => ?_) rfl ?_ fun t ht => ?_
    · rw [rings_setState, rings_assign]
      simpa [rings] using hring
    · rw [rings_setState, rings_assign]
      simp [rings, ht]
    · rw [setState_state, if_pos rfl]
    · rw [setState_state, if_neg ht, assign_state, setMem_task, (task_nextSender a c t).2.2]
    · rw [passing_setState, passing_assign, if_pos rfl]
    · rw [passing_setState, passing_assign, if_neg ht, passing_setMem,
        passing_modify a c t ⟨rfl, rfl⟩]
  | replyNoTask call lookup =>
    exact .quiet (.assign hrun call (by decide) (by decide) (by simp) fun _ => lookup)
  | @replied s call lookup =>
    refine .replied call lookup rfl (funext fun t => by simp [rings]) ?_ (fun t ht => ?_)
      (fun hsc => ?_) fun t hts htc => ?_
    · rw [assign_state, makeReady_task, setState_state, if_pos rfl]
    · rw [assign_state, makeReady_task, setState_state, if_neg ht, assign_state, setMem_task]
    · rw [passing_assign, if_neg hsc, passing_makeReady, passing_assign, if_pos rfl]
    · rw [passing_assign, if_neg htc, passing_makeReady, passing_assign, if_neg hts,
        passing_setMem]
  | @repliedRunning s call lookup state =>
    obtain rfl : s = c := Option.some.inj ((h.running s state).symm.trans hc)
    refine .quiet (.answered hrun call lookup rfl (funext fun t => by simp [rings])
      (fun t => by simp) fun t ht => ?_)
    rw [passing_assign, if_neg ht, passing_assign, if_neg ht, passing_setMem]
  | awaited call => exact .quiet (.block call (Or.inr ⟨rfl, rfl⟩) rfl rfl)
  | tickIdle cause =>
    exact .quiet (.idle hrun (Or.inl (hirq cause)) rfl rfl rfl rfl fun t => Or.inl rfl)
  | @tickWoke chi clo clocks u q cause tick pop state =>
    have hcu : c ≠ u := by
      rintro rfl
      rw [hrun] at state
      cases state
    refine .quiet (.idle hrun (Or.inl (hirq cause)) rfl (rings_setState _ _ _)
      (funext fun t => by rw [passing_makeReady]; rfl) ?_ fun t => ?_)
    · rw [makeReady_task, setState_state, if_neg hcu]
    · rw [makeReady_task, setState_state]
      by_cases htu : t = u
      · subst htu
        exact Or.inr ⟨if_pos rfl, state⟩
      · exact Or.inl (if_neg htu)

/-- On the way to the handler no message moves. -/
theorem Enters.traffic (he : Enters a trap c m) :
    m.jobq = a.jobq ∧ m.rings = a.rings ∧ (∀ t, (m.task t).tid = (a.task t).tid) ∧
      ∀ t, (m.task t).state = (a.task t).state ∨ ¬ (m.task t).state.inTransit := by
  cases he with
  | @intro a₁ rq hr pop state =>
    have h₁ : a₁.jobq = a.jobq ∧ a₁.rings = a.rings ∧
        (∀ t, (a₁.task t).tid = (a.task t).tid) ∧
        ∀ t, (a₁.task t).state = (a.task t).state ∨ ¬ (a₁.task t).state.inTransit := by
      cases hr with
      | @running c' =>
        refine ⟨rfl, rings_setState a c' .ready, fun t => by simp, fun t => ?_⟩
        rw [makeReady_task, setState_state]
        by_cases htc : t = c'
        · rw [if_pos htc]
          exact Or.inr (not_inTransit_of_eq rfl (by decide))
        · exact Or.inl (if_neg htc)
      | blocked => exact ⟨rfl, rfl, fun _ => rfl, fun _ => Or.inl rfl⟩
      | gone => exact ⟨rfl, rfl, fun _ => rfl, fun _ => Or.inl rfl⟩
    obtain ⟨hj, hrings, htid, hstate⟩ := h₁
    refine ⟨hj, hrings ▸ funext fun t => ?_, fun t => ?_, fun t => ?_⟩
    · by_cases htc : t = c
      · subst htc
        simp [rings, dispatch, saveContext]
      · simp [rings, dispatch, htc]
    · rw [← htid t]
      by_cases htc : t = c
      · subst htc
        simp [dispatch, saveContext]
      · simp [dispatch, htc]
    · by_cases htc : t = c
      · subst htc
        exact Or.inr (not_inTransit_of_eq (u := .running)
          (by simp [dispatch, saveContext]) (by decide))
      · have := hstate t
        simpa [dispatch, htc] using this

end AbsKernel

/-! ### Deliveries -/

/-- The live task that the first argument of a Send or a Reply names. -/
def target (m : Kernel) (trap : Trap) : Option TaskPtr :=
  match getTaskByTid m (toInt32 (trap.x 0)) with
  | .ok o => o
  | .error _ => none

/-- The sender and the receiver of the message that an iteration delivers: a Send delivers to the
task it names, a Receive to the task that makes it. -/
def delivery (i : Iter Kernel Trap) : Option (TaskPtr × TaskPtr) :=
  match (List.finRange taskPoolSize).find? fun s =>
    (i.mid.task s).state ≠ .watireply ∧ (i.next.task s).state = .watireply with
  | none => none
  | some s =>
    (if i.input.syscall = some .send then target i.mid i.input else i.mid.currentTask).map
      fun r => (s, r)

/-- The task that received the message of the last Send of `s`. -/
def receivedBy (h : List (Iter Kernel Trap)) (s : TaskPtr) : Option TaskPtr :=
  h.foldl (fun r i => match delivery i with
    | some (s', r') => if s' = s then some r' else r
    | none => r) none

theorem receivedBy_snoc {h : List (Iter Kernel Trap)} {i : Iter Kernel Trap} {s : TaskPtr} :
    receivedBy (h ++ [i]) s = match delivery i with
      | some (s', r') => if s' = s then some r' else receivedBy h s
      | none => receivedBy h s := by
  simp [receivedBy]

theorem delivery_eq_none {i : Iter Kernel Trap}
    (h : ∀ t, (i.next.task t).state = .watireply → (i.mid.task t).state = .watireply) :
    delivery i = none := by
  unfold delivery
  have hnone : (List.finRange taskPoolSize).find? (fun s =>
      (i.mid.task s).state ≠ .watireply ∧ (i.next.task s).state = .watireply) = none := by
    rw [List.find?_eq_none]
    intro t _ ht
    obtain ⟨h₁, h₂⟩ := of_decide_eq_true ht
    exact h₁ (h t h₂)
  rw [hnone]

theorem delivery_eq_some {i : Iter Kernel Trap} {s r : TaskPtr}
    (before : (i.mid.task s).state ≠ .watireply) (after : (i.next.task s).state = .watireply)
    (only : ∀ t ≠ s, (i.next.task t).state = .watireply → (i.mid.task t).state = .watireply)
    (hr : (if i.input.syscall = some .send then target i.mid i.input else i.mid.currentTask)
      = some r) : delivery i = some (s, r) := by
  unfold delivery
  have hsome : (List.finRange taskPoolSize).find? (fun s =>
      (i.mid.task s).state ≠ .watireply ∧ (i.next.task s).state = .watireply) = some s := by
    cases hf : (List.finRange taskPoolSize).find? (fun s =>
        (i.mid.task s).state ≠ .watireply ∧ (i.next.task s).state = .watireply) with
    | none =>
      have := List.find?_eq_none.mp hf s (List.mem_finRange s)
      exact absurd (decide_eq_true ⟨before, after⟩) this
    | some t =>
      have hp := List.find?_some hf
      obtain ⟨h₁, h₂⟩ := of_decide_eq_true hp
      by_cases hts : t = s
      · rw [hts]
      · exact absurd (only t hts h₂) h₁
  rw [hsome, hr]
  rfl

/-- A delivery is made to a sender that did not wait for its reply. -/
theorem delivery_before {i : Iter Kernel Trap} {s r : TaskPtr} (h : delivery i = some (s, r)) :
    (i.mid.task s).state ≠ .watireply ∧ (i.next.task s).state = .watireply := by
  unfold delivery at h
  split at h
  · cases h
  · rename_i s' hfind
    obtain ⟨r', -, heq⟩ := Option.map_eq_some_iff.mp h
    obtain ⟨rfl, rfl⟩ := Prod.mk.inj heq
    have hp := List.find?_some hfind
    exact of_decide_eq_true hp

/-- Who received the message of a task stays so while the task waits. -/
theorem receivedBy_snoc_of_waiting {h : List (Iter Kernel Trap)} {i : Iter Kernel Trap}
    {s : TaskPtr} (hwait : (i.mid.task s).state = .watireply) :
    receivedBy (h ++ [i]) s = receivedBy h s := by
  rw [receivedBy_snoc]
  cases hd : delivery i with
  | none => rfl
  | some sr =>
    obtain ⟨s', r'⟩ := sr
    apply if_neg
    rintro rfl
    exact (delivery_before hd).1 hwait

theorem Rep.target_eq {m : Kernel} {a : AbsKernel} (h : Rep m a) (trap : Trap) :
    target m trap = a.getTaskByTid (toInt32 (trap.x 0)) := by
  unfold target
  rw [h.getTaskByTid_eq]

section Rep

variable {i : Iter Kernel Trap} {m a' : AbsKernel} {c s r : TaskPtr}

theorem Rep.delivery_none (hm : Rep i.mid m) (hn : Rep i.next a')
    (h : ∀ t, (a'.task t).state = .watireply → (m.task t).state = .watireply) :
    delivery i = none :=
  delivery_eq_none fun t ht => by
    rw [← hm.state_eq]
    exact h t (by rw [hn.state_eq]; exact ht)

theorem Rep.delivery_some (hm : Rep i.mid m) (hn : Rep i.next a')
    (before : (m.task s).state ≠ .watireply) (after : (a'.task s).state = .watireply)
    (only : ∀ t ≠ s, (a'.task t).state = .watireply → (m.task t).state = .watireply)
    (hr : (if i.input.syscall = some .send then m.getTaskByTid (toInt32 (i.input.x 0))
      else m.currentTask) = some r) : delivery i = some (s, r) := by
  refine delivery_eq_some (by rwa [← hm.state_eq]) (by rwa [← hn.state_eq])
    (fun t ht hw => ?_) (by rwa [hm.target_eq, ← hm.currentTask_eq])
  rw [← hm.state_eq]
  exact only t ht (by rw [hn.state_eq]; exact hw)

/-- **A sender that enters the state `WATIREPLY`** has its message delivered, by its own Send or by
a Receive. -/
theorem AbsKernel.Traffic.delivery_eq (ht : AbsKernel.Traffic m c i.input a') (hm : Rep i.mid m)
    (hn : Rep i.next a') (hc : m.currentTask = some c) (hx : (m.task c).x = i.input.x)
    (before : (m.task s).state ≠ .watireply) (after : (a'.task s).state = .watireply) :
    ∃ r, delivery i = some (s, r) ∧
      (i.input.syscall = some .send ∧ s = c ∧ m.getTaskByTid (toInt32 ((m.task c).x 0)) = some r ∨
        i.input.syscall = some .receive ∧ r = c) := by
  cases ht with
  | quiet still =>
    rw [(still.state (Or.inr after)).2] at after
    exact absurd after before
  | exited call live jobq ring rings dead state =>
    by_cases hsc : s = c
    · rw [hsc, dead] at after
      cases after
    · rw [state s hsc] at after
      exact absurd after before
  | @direct r call lookup wait jobq rings sender receiver state =>
    have honly : ∀ t ≠ c, (a'.task t).state = .watireply → (m.task t).state = .watireply := by
      intro t htc hw
      by_cases htr : t = r
      · rw [htr, receiver] at hw
        cases hw
      · rwa [← state t htc htr]
    have hsc : s = c := by
      by_contra hne
      exact before (honly s hne after)
    subst hsc
    refine ⟨r, hm.delivery_some hn before after honly ?_, Or.inl ⟨call, rfl, lookup⟩⟩
    rw [if_pos call, ← hx]
    exact lookup
  | queued call lookup jobq ring rings sender state =>
    by_cases hsc : s = c
    · rw [hsc, sender] at after
      cases after
    · rw [state s hsc] at after
      exact absurd after before
  | vanished call jobq ring gone rings state =>
    rw [state s] at after
    exact absurd after before
  | @received s₀ e call jobq ring lookup rings _ sender state =>
    have honly : ∀ t ≠ s₀, (a'.task t).state = .watireply → (m.task t).state = .watireply :=
      fun t hts hw => by rwa [← state t hts]
    have hss : s = s₀ := by
      by_contra hne
      exact before (honly s hne after)
    subst hss
    refine ⟨c, hm.delivery_some hn before after honly ?_, Or.inr ⟨call, rfl⟩⟩
    rw [if_neg (by rw [call]; decide)]
    exact hc
  | @replied s₀ call lookup jobq rings ready state =>
    by_cases hss : s = s₀
    · rw [hss, ready] at after
      cases after
    · rw [state s hss] at after
      exact absurd after before

end Rep

end RealtimeKernel
