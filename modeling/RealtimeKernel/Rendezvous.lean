import RealtimeKernel.RoundRobin

/-!
# Send first or Receive first

A message is handed over by `sys_send` when the receiver already waits, and by `sys_receive` when
the sender is already queued.  The two paths end in the same state, apart from which of the two
tasks is current and whether the receiver is running or back in the ready queue.
-/

namespace RealtimeKernel

open Lib

/-- The first call is handled, the next task is scheduled and makes the second call at once, and
that is handled. -/
def twoCalls (img : Image) (m : Kernel) (first second : Trap) : Except Halt Kernel := do
  let k ← handleCurrentException img m first
  let m' ← enterTrap k { second with mem := k.mem }
  handleCurrentException img m' { second with mem := k.mem }

/-- The memory once the message of a Send was handed to a Receive. -/
def met (mem : Mem) (tid : ℤ) (send receive : Trap) : Mem :=
  (copyMessage (storeInt mem (receive.x 0) tid) (send.x 1) (toInt32 (send.x 2)) (receive.x 1)
    (toInt32 (receive.x 2))).2

/-- The length that the Receive reports. -/
def metLen (send receive : Trap) : ℤ :=
  actualLen (toInt32 (send.x 2)) (toInt32 (receive.x 2))

/-- What can be seen of a descriptor: all but the pointers of the kernel's own lists and the place
of the ring in its array. -/
structure TaskView where
  x : Fin 31 → U64
  sp : U64
  spsr : U64
  pc : U64
  x30Copy : U64
  result : U64
  shouldPassResult : Bool
  tid : ℤ
  parentTid : ℤ
  priority : ℤ
  state : TaskState
  ring : List U64
  memoryBlock : Option BlockPtr
  deriving DecidableEq

def Task.view (t : Task) : TaskView :=
  { x := t.x, sp := t.sp, spsr := t.spsr, pc := t.pc, x30Copy := t.x30Copy, result := t.result,
    shouldPassResult := t.shouldPassResult, tid := t.tid, parentTid := t.parentTid,
    priority := t.priority, state := t.state, ring := t.senders.contents,
    memoryBlock := t.memoryBlock }

/-- The view without the saved context and the state. -/
def TaskView.settled (v : TaskView) : TaskView :=
  { v with x := fun _ => 0, sp := 0, spsr := 0, pc := 0, x30Copy := 0, state := .initialized }

/-- The kernel's lists are sound and agree with the states of the tasks. -/
def Kernel.Sound (m : Kernel) : Prop := ∃ a, Rep m a ∧ a.Orderly

/-- `t` is the running task and has just made the trap, whose context is saved. -/
structure Kernel.Trapped (m : Kernel) (t : TaskPtr) (trap : Trap) : Prop where
  current : m.currentTask = some t
  running : (m.task t).state = .running
  x : (m.task t).x = trap.x
  sp : (m.task t).sp = trap.sp
  spsr : (m.task t).spsr = trap.spsr
  pc : (m.task t).pc = trap.pc
  x30Copy : (m.task t).x30Copy = trap.x 30

/-- What two states agree on when they differ in the tasks `s` and `r` and the ready queue only. -/
structure Elsewhere (m₁ m₂ : Kernel) (s r : TaskPtr) : Prop where
  mem : m₁.mem = m₂.mem
  others : ∀ t, t ≠ s → t ≠ r → (m₁.task t).view = (m₂.task t).view
  live : m₁.live = m₂.live
  free : m₁.freeTasks = m₂.freeTasks
  waiters : ∀ i p, m₁.waiters i p = m₂.waiters i p
  count : m₁.taskIdCnt = m₂.taskIdCnt
  blocks : m₁.memoryBlocksUsed = m₂.memoryBlocksUsed
  clocks : m₁.clocks = m₂.clocks

/-- One state with the two tasks in either role: in `m₁` the task `s` is next to run, in `m₂` the
task `r`. -/
structure Twin (m₁ m₂ : Kernel) (s r : TaskPtr) : Prop extends Elsewhere m₁ m₂ s r where
  sender : (m₁.task s).view.settled = (m₂.task s).view.settled
  receiver : (m₁.task r).view.settled = (m₂.task r).view.settled
  ready : ∃ rq, popHighest m₁.ready = some (s, rq) ∧ popHighest m₂.ready = some (r, rq)

/-- The states after both calls: Receive first in `e₁`, Send first in `e₂`. -/
structure Agree (e₁ e₂ : Kernel) (s r : TaskPtr) (send receive : Trap) : Prop
    extends Elsewhere e₁ e₂ s r where
  sender : (e₁.task s).view = (e₂.task s).view
  waits : (e₁.task s).state = .watireply ∧ (e₁.task s).x = send.x
  receiver : (e₁.task r).view = { (e₂.task r).view with state := .ready }
  running : (e₂.task r).state = .running
  result : (e₁.task r).shouldPassResult = true ∧ (e₁.task r).result = ofInt (metLen send receive)
  ring : e₁.ring r = [] ∧ e₂.ring r = []
  /-- `r` is queued once in the first state, at the end of the list of its priority. -/
  ready : ∀ p, e₁.ready p = e₂.ready p ++ (if p = (e₁.task r).prio then [r] else [])
  once : ∀ p, r ∉ e₂.ready p
  current : e₁.currentTask = some s ∧ e₂.currentTask = some r

namespace AbsKernel

variable {a : AbsKernel} {img : Image} {s r : TaskPtr} {send receive : Trap}
  {rq : Fin taskPriorityMax → List TaskPtr}

/-- `twoCalls` without pointers. -/
def twoCalls (img : Image) (a : AbsKernel) (first second : Trap) : Except Halt AbsKernel := do
  let b ← a.handleCurrentException img first
  let m ← b.enterTrap { second with mem := b.mem }
  m.handleCurrentException img { second with mem := b.mem }

theorem twoCalls_eq_ok {b m e : AbsKernel} {first second : Trap}
    (h₁ : a.handleCurrentException img first = .ok b)
    (h₂ : b.enterTrap { second with mem := b.mem } = .ok m)
    (h₃ : m.handleCurrentException img { second with mem := b.mem } = .ok e) :
    a.twoCalls img first second = .ok e := by
  simp only [twoCalls, h₁, ok_bind, h₂, h₃]

/-- The message of `s` has been handed to `r`, which is left in state `st`. -/
structure Met (a : AbsKernel) (s r : TaskPtr) (send receive : Trap) (st : TaskState)
    (e : AbsKernel) : Prop where
  mem : e.mem = met a.mem (a.task s).tid send receive
  sender : e.task s = { saveContext (a.task s) send with state := .watireply }
  receiver : ∃ q : Queue, q.contents = [] ∧ e.task r =
    { assignResult (saveContext (a.task r) receive) (ofInt (metLen send receive)) with
      state := st, senders := q }
  others : ∀ t, t ≠ s → t ≠ r → e.task t = a.task t
  jobq : e.jobq = a.jobq
  free : e.free = a.free
  irqq : e.irqq = a.irqq
  count : e.taskIdCnt = a.taskIdCnt
  blocks : e.memoryBlocksUsed = a.memoryBlocksUsed
  clocks : e.clocks = a.clocks

section Task

variable {t u : TaskPtr}

theorem setState_task_self (a : AbsKernel) (t : TaskPtr) (st : TaskState) :
    (a.setState t st).task t = { a.task t with state := st } := Function.update_self _ _ _

theorem setState_task_of_ne (a : AbsKernel) (st : TaskState) (h : u ≠ t) :
    (a.setState t st).task u = a.task u := Function.update_of_ne h _ _

theorem assign_task_self (a : AbsKernel) (t : TaskPtr) (v : ℤ) :
    (a.assign t v).task t = assignResult (a.task t) (ofInt v) := Function.update_self _ _ _

theorem assign_task_of_ne (a : AbsKernel) (v : ℤ) (h : u ≠ t) :
    (a.assign t v).task u = a.task u := Function.update_of_ne h _ _

end Task

/-- A lookup only reads the job queue and the tids. -/
theorem getTaskByTid_congr {b : AbsKernel} (hj : b.jobq = a.jobq)
    (htid : ∀ t, (b.task t).tid = (a.task t).tid) (tid : ℤ) :
    b.getTaskByTid tid = a.getTaskByTid tid := by
  unfold getTaskByTid
  simp only [hj, htid]

theorem replyOk_of_ne {p : Syscall} {trap : Trap} (call : trap.syscall = some p)
    (hp : p ≠ .reply) : a.ReplyOk trap := fun hr =>
  absurd (Option.some.inj (call.symm.trans hr)) hp

/-- **Receive first**: the Send finds its receiver waiting. -/
theorem Orderly.receive_then_send (img : Image) (ho : a.Orderly) (hsr : s ≠ r)
    (current : a.currentTask = some r) (running : (a.task r).state = .running)
    (saved : saveContext (a.task r) receive = a.task r)
    (call₁ : receive.syscall = some .receive) (call₂ : send.syscall = some .send)
    (lookup : a.getTaskByTid (toInt32 (send.x 0)) = some r) (ring : a.rings r = [])
    (pop : popHighest a.readyq = some (s, rq)) :
    ∃ e, a.twoCalls img receive send = .ok e ∧ Met a s r send receive .ready e ∧
      e.readyq = pushAt rq (a.task r).prio r ∧ e.currentTask = some s := by
  have hx : (a.task r).x = receive.x := by
    rw [← saved]
    rfl
  have hready : (a.task s).state = .ready := by
    obtain ⟨⟨p, hp⟩, -⟩ := mem_of_popHighest pop
    exact ho.toConsistent.mem_ready hp
  let b := a.setState r .waitreceive
  let trap : Trap := { send with mem := b.mem }
  let m := b.dispatch s rq trap
  have heff : Effect img a r receive b :=
    .receiveBlocked call₁ ((Queue.isEmpty_iff (ho.ring r).ok).mpr ring)
  have hb : b.Orderly :=
    ho.effect current running hx (replyOk_of_ne call₁ (by decide)) heff
  have hbs : b.task s = a.task s := by simp [b, setState, hsr]
  have hbr : b.task r = { a.task r with state := .waitreceive } := by simp [b, setState]
  have hent : Enters b trap s m := by
    refine .intro (.blocked (c := r) current ?_) pop ?_
    · rw [hbr]
      rfl
    · rw [hbs, hready]
      decide
  have hm : m.Orderly := hb.enters hent
  have hms : m.task s = saveContext { a.task s with state := .running } trap := by
    rw [← hbs]
    simp [m, AbsKernel.dispatch]
  have hmt : ∀ t ≠ s, m.task t = b.task t := fun t ht => dispatch_task_of_ne _ _ _ _ ht
  have hmr : m.task r = { a.task r with state := .waitreceive } := by rw [hmt r hsr.symm, hbr]
  have htid : ∀ t, (m.task t).tid = (a.task t).tid := by
    intro t
    by_cases hts : t = s
    · rw [hts, hms]
      rfl
    · rw [hmt t hts, setState_tid]
  have hlookup : m.getTaskByTid (toInt32 ((m.task s).x 0)) = some r := by
    rw [getTaskByTid_congr (show m.jobq = a.jobq from rfl) htid, hms]
    exact lookup
  have hwait : (m.task r).state = .waitreceive := by rw [hmr]
  have hrun : (m.task s).state = .running := by rw [hms]; rfl
  have hsend : Effect img m s trap _ :=
    .sendDirect call₂ hlookup hwait (hm.pushable (by rw [hwait]; decide))
  have hlen : m.deliveredLen s r = metLen send receive := by
    rw [deliveredLen, hms, hmr, ← saved]
    rfl
  have hmem : m.delivered s r = met a.mem (a.task s).tid send receive := by
    rw [delivered, htid, hms, hmr, ← saved]
    rfl
  refine ⟨_, twoCalls_eq_ok (effect_handle current running heff)
    (enterTrap_enters.mpr ⟨s, hent⟩) (effect_handle rfl hrun hsend), ⟨hmem, ?_,
      ⟨(a.task r).senders, ring, ?_⟩, fun t hts htr => ?_, rfl, rfl, rfl, rfl, rfl, rfl⟩, ?_, rfl⟩
  · rw [setState_task_self, makeReady_task, setState_task_of_ne _ _ hsr, assign_task_of_ne _ _ hsr,
      setMem_task, hms]
    rfl
  · rw [setState_task_of_ne _ _ hsr.symm, makeReady_task, setState_task_self, assign_task_self,
      setMem_task, hmr, hlen, saved]
    rfl
  · rw [setState_task_of_ne _ _ hts, makeReady_task, setState_task_of_ne _ _ htr,
      assign_task_of_ne _ _ htr, setMem_task, hmt t hts, setState_task_of_ne _ _ htr]
  · show pushAt rq (((m.setMem _).assign r _).task r).prio r = _
    rw [assign_prio, setMem_task, hmr]
    rfl

/-- **Send first**: the Receive finds the queued sender. -/
theorem Orderly.send_then_receive (img : Image) (ho : a.Orderly) (hsr : s ≠ r)
    (current : a.currentTask = some s) (running : (a.task s).state = .running)
    (saved : saveContext (a.task s) send = a.task s)
    (call₁ : receive.syscall = some .receive) (call₂ : send.syscall = some .send)
    (lookup : a.getTaskByTid (toInt32 (send.x 0)) = some r) (ring : a.rings r = [])
    (pop : popHighest a.readyq = some (r, rq)) :
    ∃ e, a.twoCalls img send receive = .ok e ∧ Met a s r send receive .running e ∧
      e.readyq = rq ∧ e.currentTask = some r := by
  have hx : (a.task s).x = send.x := by
    rw [← saved]
    rfl
  have hready : (a.task r).state = .ready := by
    obtain ⟨⟨p, hp⟩, -⟩ := mem_of_popHighest pop
    exact ho.toConsistent.mem_ready hp
  have hlive : s ∈ a.jobq := ho.live_of_state (by rw [running]; decide)
  have hroom : (registerSender (a.task r) (a.task s).tid).1 = true := by
    refine (Queue.push_fst (ho.ring r).ok _).mpr ?_
    rw [← Queue.contents_length, (ho.ring r).capacity]
    show (a.rings r).length + 1 < maxSenderCapacity
    rw [ring]
    decide
  let reg : AbsKernel := a.modify r fun _ => (registerSender (a.task r) (a.task s).tid).2
  let b := reg.setState s .watisend
  let trap : Trap := { receive with mem := b.mem }
  let m := b.dispatch r rq trap
  have hregr : reg.task r = (registerSender (a.task r) (a.task s).tid).2 :=
    Function.update_self _ _ _
  have hregt : ∀ t ≠ r, reg.task t = a.task t := fun t ht => Function.update_of_ne ht _ _
  have heff : Effect img a s send b :=
    .sendQueued call₂ (hx ▸ lookup) (by rw [hready]; decide) hroom
  have hb : b.Orderly :=
    ho.effect current running hx (replyOk_of_ne call₂ (by decide)) heff
  have hbs : b.task s = { a.task s with state := .watisend } := by
    rw [setState_task_self, hregt s hsr]
  have hbr : b.task r = (registerSender (a.task r) (a.task s).tid).2 := by
    rw [setState_task_of_ne _ _ hsr.symm, hregr]
  have hent : Enters b trap r m := by
    refine .intro (.blocked (c := s) current ?_) pop ?_
    · rw [hbs]
      rfl
    · rw [hbr]
      show (a.task r).state ≠ .running
      rw [hready]
      decide
  have hm : m.Orderly := hb.enters hent
  have hmr : m.task r = saveContext { b.task r with state := .running } trap :=
    Function.update_self _ _ _
  have hmt : ∀ t ≠ r, m.task t = b.task t := fun t ht => dispatch_task_of_ne _ _ _ _ ht
  have hms : m.task s = { a.task s with state := .watisend } := by rw [hmt s hsr, hbs]
  have hcontents : (m.task r).senders.contents = [ofInt (a.task s).tid] := by
    rw [hmr, hbr]
    show (registerSender (a.task r) (a.task s).tid).2.senders.contents = _
    rw [registerSender_contents (ho.ring r) hroom]
    exact congrArg (· ++ [ofInt (a.task s).tid]) ring
  have hnonempty : queueIsEmpty (m.task r).senders = false := by
    by_contra hne
    have := (Queue.isEmpty_iff (hm.ring r).ok).mp (Bool.eq_true_of_not_eq_false hne)
    rw [hcontents] at this
    cases this
  obtain ⟨e, hpop, hid⟩ := nextSender_contents (hm.ring r) hnonempty
  rw [hcontents] at hpop
  obtain ⟨rfl, hrest⟩ := List.cons.inj hpop
  have htid := ho.tid_lt hlive
  have hid' : (nextSender (m.task r)).1 = (m.task s).tid := by
    rw [hid, hms, toInt32_ofInt]
    · omega
    · simp only [maxTaskNum] at htid
      omega
  have hlookup : m.getTaskByTid (nextSender (m.task r)).1 = some s := by
    rw [hid']
    exact hm.lookup_eq hlive
  have hrun : (m.task r).state = .running := by rw [hmr]; rfl
  have hreceive : Effect img m r trap _ :=
    .received call₁ hnonempty hlookup (by rw [hms]; exact nofun)
  have hlen : m.deliveredLen s r = metLen send receive := by
    rw [deliveredLen, hms, hmr, ← saved]
    rfl
  have hmem : m.delivered s r = met a.mem (a.task s).tid send receive := by
    rw [delivered, hms, hmr, ← saved]
    rfl
  refine ⟨_, twoCalls_eq_ok (effect_handle current running heff)
    (enterTrap_enters.mpr ⟨r, hent⟩) (effect_handle rfl hrun hreceive), ⟨hmem, ?_,
      ⟨(nextSender (m.task r)).2.senders, hrest.symm, ?_⟩, fun t hts htr => ?_, rfl, rfl, rfl,
        rfl, rfl, rfl⟩, rfl, rfl⟩
  · rw [setState_task_self, assign_task_of_ne _ _ hsr, setMem_task, modify_task,
      Function.update_of_ne hsr, hms, saved]
  · rw [setState_task_of_ne _ _ hsr.symm, assign_task_self, setMem_task, modify_task,
      Function.update_self, hlen]
    simp only [nextSender, assignResult, hmr, hbr]
    rfl
  · rw [setState_task_of_ne _ _ hts, assign_task_of_ne _ _ htr, setMem_task, modify_task,
      Function.update_of_ne htr, hmt t htr, setState_task_of_ne _ _ hts, hregt t htr]

end AbsKernel

theorem Rep.view_eq {k : Kernel} {a : AbsKernel} (h : Rep k a) (t : TaskPtr) :
    (a.task t).view = (k.task t).view := by
  rw [h.task_eq]
  rfl

theorem Rep.count_eq {k : Kernel} {a : AbsKernel} (h : Rep k a) : a.taskIdCnt = k.taskIdCnt := by
  rw [h.core]
  rfl

theorem Rep.blocks_eq {k : Kernel} {a : AbsKernel} (h : Rep k a) :
    a.memoryBlocksUsed = k.memoryBlocksUsed := by
  rw [h.core]
  rfl

theorem Rep.saved_eq {k : Kernel} {a : AbsKernel} (h : Rep k a) (trap : Trap) (t : TaskPtr)
    (ht : k.Trapped t trap) : saveContext (a.task t) trap = a.task t := by
  rw [h.task_eq]
  unfold saveContext
  rw [← ht.x, ← ht.sp, ← ht.spsr, ← ht.pc]
  simp [Task.erase, ← ht.x30Copy, ht.x]

theorem Rep.twoCalls {k : Kernel} {a : AbsKernel} (h : Rep k a) (img : Image)
    (first second : Trap) :
    Refines Rep (RealtimeKernel.twoCalls img k first second) (a.twoCalls img first second) := by
  unfold RealtimeKernel.twoCalls AbsKernel.twoCalls
  refine (h.handleCurrentException img first).bind fun k' b hb => ?_
  rw [hb.mem_eq]
  exact (hb.enterTrap _).bind fun m m' hm => hm.handleCurrentException img _

/-- Saving the same context makes descriptors look the same that did so apart from the context. -/
theorem view_saveContext {t u : Task} (h : t.view.settled = u.view.settled) (trap : Trap)
    (st : TaskState) :
    ({ saveContext t trap with state := st } : Task).view
      = ({ saveContext u trap with state := st } : Task).view := by
  simp only [TaskView.settled, Task.view, TaskView.mk.injEq, true_and] at h
  simp only [Task.view, saveContext, TaskView.mk.injEq, true_and]
  exact h

theorem Twin.tid_eq {m₁ m₂ : Kernel} {s r : TaskPtr} (h : Twin m₁ m₂ s r) (t : TaskPtr) :
    (m₁.task t).tid = (m₂.task t).tid := by
  by_cases hts : t = s
  · rw [hts]
    exact congrArg TaskView.tid h.sender
  · by_cases htr : t = r
    · rw [htr]
      exact congrArg TaskView.tid h.receiver
    · exact congrArg TaskView.tid (h.others t hts htr)

/-- **Send first and Receive first agree.**  In a state with the two tasks in either role and the
receiver's ring empty, Receive then Send and Send then Receive end in states that differ only in
the receiver being ready or running and in which task is current. -/
theorem send_receive_agree (img : Image) (m₁ m₂ : Kernel) (s r : TaskPtr) (send receive : Trap)
    (h₁ : m₁.Sound) (h₂ : m₂.Sound) (hsr : s ≠ r) (twin : Twin m₁ m₂ s r)
    (t₁ : m₁.Trapped r receive) (t₂ : m₂.Trapped s send)
    (call₁ : receive.syscall = some .receive) (call₂ : send.syscall = some .send)
    (lookup : getTaskByTid m₁ (toInt32 (send.x 0)) = .ok (some r)) (ring : m₁.ring r = []) :
    ∃ e₁ e₂, twoCalls img m₁ receive send = .ok e₁ ∧ twoCalls img m₂ send receive = .ok e₂ ∧
      Agree e₁ e₂ s r send receive ∧ e₁.mem = met m₁.mem (m₁.task s).tid send receive ∧
      ∀ t, t ≠ s → t ≠ r → (e₁.task t).view = (m₁.task t).view := by
  obtain ⟨a₁, rep₁, ho₁⟩ := h₁
  obtain ⟨a₂, rep₂, ho₂⟩ := h₂
  obtain ⟨rq, pop₁, pop₂⟩ := twin.ready
  have hready : ∀ {m : Kernel} {a : AbsKernel}, Rep m a → m.ready = a.readyq :=
    fun hr => funext fun p => hr.ready_eq p
  rw [hready rep₁] at pop₁
  rw [hready rep₂] at pop₂
  have hjobq : a₂.jobq = a₁.jobq := by rw [← rep₁.live_eq, ← rep₂.live_eq, twin.live]
  have htid : ∀ t, (a₂.task t).tid = (a₁.task t).tid := fun t => by
    rw [rep₁.tid_eq, rep₂.tid_eq, twin.tid_eq t]
  have hmem : a₂.mem = a₁.mem := by rw [rep₁.mem_eq, rep₂.mem_eq, twin.mem]
  have hlook₁ : a₁.getTaskByTid (toInt32 (send.x 0)) = some r := by
    rw [rep₁.getTaskByTid_eq] at lookup
    exact Except.ok.inj lookup
  have hlook₂ : a₂.getTaskByTid (toInt32 (send.x 0)) = some r := by
    rw [AbsKernel.getTaskByTid_congr hjobq htid, hlook₁]
  have hring₁ : a₁.rings r = [] := by rw [rep₁.ring_eq, ring]
  have hring₂ : a₂.rings r = [] := by
    rw [rep₂.ring_eq, ← ring]
    exact (congrArg TaskView.ring twin.receiver).symm
  obtain ⟨b₁, hb₁, met₁, hrq₁, hcur₁⟩ := ho₁.receive_then_send img hsr
    (by rw [rep₁.currentTask_eq, t₁.current]) (by rw [rep₁.state_eq, t₁.running])
    (rep₁.saved_eq receive r t₁) call₁ call₂ hlook₁ hring₁ pop₁
  obtain ⟨b₂, hb₂, met₂, hrq₂, hcur₂⟩ := ho₂.send_then_receive img hsr
    (by rw [rep₂.currentTask_eq, t₂.current]) (by rw [rep₂.state_eq, t₂.running])
    (rep₂.saved_eq send s t₂) call₁ call₂ hlook₂ hring₂ pop₂
  obtain ⟨e₁, he₁, repe₁⟩ := (rep₁.twoCalls img receive send).ok_right hb₁
  obtain ⟨e₂, he₂, repe₂⟩ := (rep₂.twoCalls img send receive).ok_right hb₂
  obtain ⟨q₁, hq₁, hr₁⟩ := met₁.receiver
  obtain ⟨q₂, hq₂, hr₂⟩ := met₂.receiver
  have hother₁ : ∀ t, t ≠ s → t ≠ r → (e₁.task t).view = (m₁.task t).view := fun t hts htr => by
    rw [← repe₁.view_eq, met₁.others t hts htr, rep₁.view_eq]
  have hother₂ : ∀ t, t ≠ s → t ≠ r → (e₂.task t).view = (m₂.task t).view := fun t hts htr => by
    rw [← repe₂.view_eq, met₂.others t hts htr, rep₂.view_eq]
  have hsender : (e₁.task s).view = (e₂.task s).view := by
    rw [← repe₁.view_eq, ← repe₂.view_eq, met₁.sender, met₂.sender]
    apply view_saveContext
    rw [rep₁.view_eq, rep₂.view_eq]
    exact twin.sender
  have hreceiver : (e₁.task r).view = { (e₂.task r).view with state := .ready } := by
    have hsave := view_saveContext (t := a₁.task r) (u := a₂.task r)
      (by rw [rep₁.view_eq, rep₂.view_eq]; exact twin.receiver) receive .ready
    rw [← repe₁.view_eq, ← repe₂.view_eq, hr₁, hr₂]
    simp only [Task.view, assignResult, saveContext, TaskView.mk.injEq] at hsave ⊢
    simp only [hq₁, hq₂]
    tauto
  refine ⟨e₁, e₂, he₁, he₂, ⟨⟨?_, fun t hts htr => ?_, ?_, ?_, fun i p => ?_, ?_, ?_, ?_⟩, hsender,
    ⟨?_, ?_⟩, hreceiver, ?_, ⟨?_, ?_⟩, ⟨?_, ?_⟩, fun p => ?_, fun p hin => ?_, ?_, ?_⟩, ?_, hother₁⟩
  · rw [← repe₁.mem_eq, ← repe₂.mem_eq, met₁.mem, met₂.mem, hmem, htid]
  · rw [hother₁ t hts htr, hother₂ t hts htr, twin.others t hts htr]
  · rw [repe₁.live_eq, repe₂.live_eq, met₁.jobq, met₂.jobq, hjobq]
  · rw [repe₁.freeTasks_eq, repe₂.freeTasks_eq, met₁.free, met₂.free, ← rep₁.freeTasks_eq,
      ← rep₂.freeTasks_eq, twin.free]
  · rw [repe₁.waiters_eq, repe₂.waiters_eq, met₁.irqq, met₂.irqq, ← rep₁.waiters_eq,
      ← rep₂.waiters_eq, twin.waiters]
  · rw [← repe₁.count_eq, ← repe₂.count_eq, met₁.count, met₂.count, rep₁.count_eq,
      rep₂.count_eq, twin.count]
  · rw [← repe₁.blocks_eq, ← repe₂.blocks_eq, met₁.blocks, met₂.blocks, rep₁.blocks_eq,
      rep₂.blocks_eq, twin.blocks]
  · rw [← repe₁.clocks_eq, ← repe₂.clocks_eq, met₁.clocks, met₂.clocks, rep₁.clocks_eq,
      rep₂.clocks_eq, twin.clocks]
  · rw [← repe₁.state_eq, met₁.sender]
  · rw [← repe₁.x_eq, met₁.sender]
    rfl
  · rw [← repe₂.state_eq, hr₂]
  · have hview := congrArg TaskView.shouldPassResult (repe₁.view_eq r)
    rw [hr₁] at hview
    exact hview.symm
  · have hview := congrArg TaskView.result (repe₁.view_eq r)
    rw [hr₁] at hview
    exact hview.symm
  · rw [← repe₁.ring_eq, AbsKernel.rings, hr₁, hq₁]
  · rw [← repe₂.ring_eq, AbsKernel.rings, hr₂, hq₂]
  · have hprio : (e₁.task r).prio = (a₁.task r).prio := by
      have hview := congrArg TaskView.priority (repe₁.view_eq r)
      rw [hr₁] at hview
      exact congrArg (fun v : ℤ => Fin.ofNat taskPriorityMax v.toNat) hview.symm
    rw [repe₁.ready_eq, repe₂.ready_eq, hrq₁, hrq₂, hprio]
    by_cases hp : p = (a₁.task r).prio
    · subst hp
      simp [pushAt]
    · simp [pushAt, hp]
  · rw [repe₂.ready_eq, hrq₂] at hin
    have hocc := occurs_popHighest pop₂ r
    have hone := ho₂.ready r
    have hpos := (occurs_pos_iff rq r).mpr ⟨p, hin⟩
    split at hone
    · rw [if_pos rfl] at hocc
      omega
    · rw [if_pos rfl] at hocc
      omega
  · rw [← repe₁.currentTask_eq, hcur₁]
  · rw [← repe₂.currentTask_eq, hcur₂]
  · rw [← repe₁.mem_eq, met₁.mem, rep₁.mem_eq, rep₁.tid_eq]

/-- The states in which traps are handled are sound. -/
theorem Boot.Reaches.sound {b : Boot} {h : List (Iter Kernel Trap)} {k m : Kernel} {trap : Trap}
    (r : b.Reaches h k) (hok : ∀ i ∈ h, i.mid.ReplyOk i.input) (hm : enterTrap k trap = .ok m) :
    m.Sound ∧ m.mem = trap.mem := by
  obtain ⟨h', a, -, hka, -, -, ho⟩ := r.orderly hok
  obtain ⟨m', hm', hrep⟩ := (hka.enterTrap trap).ok_left hm
  obtain ⟨c, hent⟩ := AbsKernel.enterTrap_enters.mp hm'
  exact ⟨⟨m', hrep, ho.enters hent⟩, by rw [← hrep.mem_eq, hent.current.2.2.2]⟩

deriving instance DecidableEq for Clock, Clocks

instance (m : Kernel) (t : TaskPtr) (trap : Trap) : Decidable (m.Trapped t trap) :=
  decidable_of_iff (m.currentTask = some t ∧ (m.task t).state = .running ∧
    (m.task t).x = trap.x ∧ (m.task t).sp = trap.sp ∧ (m.task t).spsr = trap.spsr ∧
    (m.task t).pc = trap.pc ∧ (m.task t).x30Copy = trap.x 30)
    ⟨fun ⟨h₁, h₂, h₃, h₄, h₅, h₆, h₇⟩ => ⟨h₁, h₂, h₃, h₄, h₅, h₆, h₇⟩,
      fun h => ⟨h.current, h.running, h.x, h.sp, h.spsr, h.pc, h.x30Copy⟩⟩

/-- Everything about `Twin` but the user memory can be computed. -/
def twinCheck (m₁ m₂ : Kernel) (s r : TaskPtr) : Bool :=
  (∀ t, t ≠ s → t ≠ r → (m₁.task t).view = (m₂.task t).view) ∧ m₁.live = m₂.live ∧
    m₁.freeTasks = m₂.freeTasks ∧ (∀ i p, m₁.waiters i p = m₂.waiters i p) ∧
    m₁.taskIdCnt = m₂.taskIdCnt ∧ m₁.memoryBlocksUsed = m₂.memoryBlocksUsed ∧
    m₁.clocks = m₂.clocks ∧ (m₁.task s).view.settled = (m₂.task s).view.settled ∧
    (m₁.task r).view.settled = (m₂.task r).view.settled ∧
    (popHighest m₁.ready).map Prod.fst = some s ∧ (popHighest m₂.ready).map Prod.fst = some r ∧
    (popHighest m₁.ready).map Prod.snd = (popHighest m₂.ready).map Prod.snd

theorem Twin.of_check {m₁ m₂ : Kernel} {s r : TaskPtr} (mem : m₁.mem = m₂.mem)
    (h : twinCheck m₁ m₂ s r = true) : Twin m₁ m₂ s r := by
  obtain ⟨others, live, free, waiters, count, blocks, clocks, sender, receiver, hs, hr, hrq⟩ :=
    of_decide_eq_true h
  refine ⟨⟨mem, others, live, free, waiters, count, blocks, clocks⟩, sender, receiver, ?_⟩
  obtain ⟨⟨s', rq⟩, hpop₁, rfl⟩ := Option.map_eq_some_iff.mp hs
  obtain ⟨⟨r', rq'⟩, hpop₂, rfl⟩ := Option.map_eq_some_iff.mp hr
  rw [hpop₁, hpop₂] at hrq
  obtain rfl : rq = rq' := Option.some.inj hrq
  exact ⟨rq, hpop₁, hpop₂⟩

/-- Two tasks of one priority, each about to make its call with the other one next. -/
theorem send_receive_agree_run : ∃ m₁ m₂ e₁ e₂,
    twoCalls zeroBoot.img m₁ (svc 22 [8, 16, 4]) (svc 21 [2, 100, 6, 0, 0]) = .ok e₁ ∧
    twoCalls zeroBoot.img m₂ (svc 21 [2, 100, 6, 0, 0]) (svc 22 [8, 16, 4]) = .ok e₂ ∧
    Agree e₁ e₂ 0 2 (svc 21 [2, 100, 6, 0, 0]) (svc 22 [8, 16, 4]) := by
  obtain ⟨hist₁, k₁, r₁, -, hk₁⟩ := Boot.reaches_of_check zeroBoot [svc 1 [5]]
    (fun h₁ k₁ => decide (∀ i ∈ h₁, i.mid.ReplyOk i.input) &&
      returns (enterTrap k₁ (svc 22 [8, 16, 4])) fun m₁ =>
        zeroBoot.check [svc 1 [5], svc 2 []] (fun h₂ k₂ =>
          decide (∀ i ∈ h₂, i.mid.ReplyOk i.input) &&
          returns (enterTrap k₂ (svc 21 [2, 100, 6, 0, 0])) fun m₂ =>
            decide (m₁.Trapped 2 (svc 22 [8, 16, 4]) ∧
              m₂.Trapped 0 (svc 21 [2, 100, 6, 0, 0]) ∧
              getTaskByTid m₁ (toInt32 ((svc 21 [2, 100, 6, 0, 0]).x 0)) = .ok (some 2) ∧
              m₁.ring 2 = []) && twinCheck m₁ m₂ 0 2)) (by decide +kernel)
  obtain ⟨hok₁, hk₁⟩ := Bool.and_eq_true_iff.mp hk₁
  obtain ⟨m₁, hm₁, hk₁⟩ := returns_iff.mp hk₁
  obtain ⟨hist₂, k₂, r₂, -, hk₂⟩ := Boot.reaches_of_check zeroBoot _ _ hk₁
  obtain ⟨hok₂, hk₂⟩ := Bool.and_eq_true_iff.mp hk₂
  obtain ⟨m₂, hm₂, hk₂⟩ := returns_iff.mp hk₂
  obtain ⟨hmid, htwin⟩ := Bool.and_eq_true_iff.mp hk₂
  obtain ⟨ht₁, ht₂, hlookup, hring⟩ := of_decide_eq_true hmid
  obtain ⟨hs₁, hmem₁⟩ := r₁.sound (of_decide_eq_true hok₁) hm₁
  obtain ⟨hs₂, hmem₂⟩ := r₂.sound (of_decide_eq_true hok₂) hm₂
  obtain ⟨e₁, e₂, he₁, he₂, hagree, -⟩ := send_receive_agree zeroBoot.img m₁ m₂ 0 2
    (svc 21 [2, 100, 6, 0, 0]) (svc 22 [8, 16, 4]) hs₁ hs₂ (by decide)
    (.of_check (hmem₁.trans hmem₂.symm) htwin) ht₁ ht₂ (by decide +kernel)
    (by decide +kernel) hlookup hring
  exact ⟨m₁, m₂, e₁, e₂, he₁, he₂, hagree⟩

end RealtimeKernel
