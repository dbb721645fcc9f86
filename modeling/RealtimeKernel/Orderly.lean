import RealtimeKernel.WellFormed

/-!
# What holds while tasks only reply to tasks that wait for a reply

`sys_reply` never looks at the state of the task it replies to.  As long as every Reply that
finds a live task names one in state `WATIREPLY` (`ReplyOk`), the state of a task says where it
is: `Consistent` puts the ready tasks in the ready queue and the tasks that await an event in an
irq queue, each once, and `Rings` puts every queued sender in one ring, once, and in state
`WATISEND`.  The two depend on each other, since a Receive moves the sender it finds in its ring,
so `Orderly` carries both together with `WellFormed`.
-/

namespace RealtimeKernel

open Lib

namespace AbsKernel

/-- A state that puts a task in no queue of the scheduler. -/
structure Quiet (s : TaskState) : Prop where
  ready : s ≠ .ready
  awatievent : s ≠ .awatievent
  initialized : s ≠ .initialized

/-- The state of a task says which queue of the scheduler it is in. -/
structure Consistent (a : AbsKernel) : Prop where
  ready : ∀ t, occurs a.readyq t = if (a.task t).state = .ready then 1 else 0
  ready_prio : ∀ p, ∀ t ∈ a.readyq p, (a.task t).prio = p
  irq : ∀ t, occurs (cells a.irqq) t = if (a.task t).state = .awatievent then 1 else 0
  dead : ∀ t, t ∉ a.jobq → (a.task t).state = .initialized
  live : ∀ t ∈ a.jobq, (a.task t).state ≠ .initialized

/-- The ring of senders of each task. -/
def rings (a : AbsKernel) (r : TaskPtr) : List U64 := (a.task r).senders.contents

/-- The rings hold the tids of live tasks in state `WATISEND`, each once, and the ring of a task
that waits for a message is empty. -/
structure Rings (a : AbsKernel) : Prop where
  sender : ∀ r, ∀ e ∈ a.rings r, ∃ s ∈ a.jobq, e = ofInt (a.task s).tid ∧
    (a.task s).state = .watisend
  once : ∀ e, occurs a.rings e ≤ 1
  waiting : ∀ r, (a.task r).state = .waitreceive → a.rings r = []

/-- The invariants of a kernel whose tasks only reply to tasks that wait for a reply. -/
structure Orderly (a : AbsKernel) : Prop extends
  WellFormed a, Consistent a, Rings a

/-- A Reply that finds a live task names one that waits for a reply. -/
def ReplyOk (a : AbsKernel) (trap : Trap) : Prop :=
  trap.syscall = some .reply → ∀ s, a.getTaskByTid (toInt32 (trap.x 0)) = some s →
    (a.task s).state = .watireply

namespace Consistent

variable {a : AbsKernel} {img : Image} {c t : TaskPtr} {trap : Trap}

theorem mem_ready (h : a.Consistent) {p : Fin taskPriorityMax} (ht : t ∈ a.readyq p) :
    (a.task t).state = .ready := by
  have hpos : 0 < occurs a.readyq t := (occurs_pos_iff _ _).mpr ⟨p, ht⟩
  rw [h.ready] at hpos
  by_contra hne
  simp [hne] at hpos

theorem mem_irq (h : a.Consistent) {i : Fin numInterrupt} {p : Fin taskPriorityMax}
    (ht : t ∈ a.irqq i p) : (a.task t).state = .awatievent := by
  have hpos : 0 < occurs (cells a.irqq) t := (occurs_pos_iff _ _).mpr ⟨(i, p), ht⟩
  rw [h.irq] at hpos
  by_contra hne
  simp [hne] at hpos

/-- Every task that is not ready finds room in the ready queue. -/
theorem ready_room (h : a.Consistent) (ht : (a.task t).state ≠ .ready) :
    entries a.readyq < maxTaskNum := by
  have hle : ∀ u, occurs a.readyq u ≤ 1 := fun u => by
    rw [h.ready]
    split <;> omega
  have := entries_lt_card hle (a := t) (by rw [h.ready, if_neg ht])
  simpa using this

/-- Every task that awaits no event finds room in the irq queues. -/
theorem irq_room (h : a.Consistent) (ht : (a.task t).state ≠ .awatievent) :
    entries (cells a.irqq) < maxTaskNum := by
  have hle : ∀ u, occurs (cells a.irqq) u ≤ 1 := fun u => by
    rw [h.irq]
    split <;> omega
  have := entries_lt_card hle (a := t) (by rw [h.irq, if_neg ht])
  simpa using this

theorem setMem (h : a.Consistent) (mem : Mem) : (a.setMem mem).Consistent :=
  ⟨h.ready, h.ready_prio, h.irq, h.dead, h.live⟩

theorem setClocks (h : a.Consistent) (clocks : Clocks) :
    Consistent { a with clocks := clocks } :=
  ⟨h.ready, h.ready_prio, h.irq, h.dead, h.live⟩

/-- Writing fields other than the state and the priority. -/
theorem modify (h : a.Consistent) (t : TaskPtr) {f : Task → Task}
    (hs : (f (a.task t)).state = (a.task t).state)
    (hp : (f (a.task t)).priority = (a.task t).priority) : (a.modify t f).Consistent := by
  have hstate : ∀ u, ((a.modify t f).task u).state = (a.task u).state := fun u => by
    by_cases hu : u = t
    · subst hu
      simp [hs]
    · simp [hu]
  have hprio : ∀ u, ((a.modify t f).task u).prio = (a.task u).prio := fun u => by
    by_cases hu : u = t
    · subst hu
      simp [Task.prio, hp]
    · simp [hu]
  refine ⟨fun u => ?_, fun p u hu => ?_, fun u => ?_, fun u hu => ?_, fun u hu => ?_⟩
  · rw [hstate]
    exact h.ready u
  · rw [hprio]
    exact h.ready_prio p u hu
  · rw [hstate]
    exact h.irq u
  · rw [hstate]
    exact h.dead u hu
  · rw [hstate]
    exact h.live u hu

theorem assign (h : a.Consistent) (t : TaskPtr) (v : ℤ) : (a.assign t v).Consistent :=
  h.modify t rfl rfl

/-- A move between two states that put the task in no queue. -/
theorem setState (h : a.Consistent) {s : TaskState} (ho : Quiet (a.task t).state)
    (hs : Quiet s) : (a.setState t s).Consistent := by
  have hprio : ∀ u, ((a.setState t s).task u).prio = (a.task u).prio := fun u => by
    by_cases hu : u = t
    · subst hu
      simp [AbsKernel.setState, Task.prio]
    · simp [AbsKernel.setState, hu]
  have hself : ((a.setState t s).task t).state = s := by simp [AbsKernel.setState]
  have hother : ∀ u, u ≠ t → ((a.setState t s).task u).state = (a.task u).state :=
    fun u hu => by simp [AbsKernel.setState, hu]
  refine ⟨fun u => ?_, fun p u hu => ?_, fun u => ?_, fun u hu => ?_, fun u hu => ?_⟩
  · by_cases hu : u = t
    · subst hu
      rw [hself, if_neg hs.ready]
      exact (h.ready u).trans (if_neg ho.ready)
    · rw [hother u hu]
      exact h.ready u
  · rw [hprio]
    exact h.ready_prio p u hu
  · by_cases hu : u = t
    · subst hu
      rw [hself, if_neg hs.awatievent]
      exact (h.irq u).trans (if_neg ho.awatievent)
    · rw [hother u hu]
      exact h.irq u
  · by_cases hut : u = t
    · subst hut
      exact absurd (h.dead u hu) ho.initialized
    · rw [hother u hut]
      exact h.dead u hu
  · by_cases hut : u = t
    · subst hut
      rw [hself]
      exact hs.initialized
    · rw [hother u hut]
      exact h.live u hu

/-- A task in no queue is made ready and put in the ready queue. -/
theorem makeReady (h : a.Consistent) (ho : Quiet (a.task t).state) :
    (a.makeReady t).Consistent := by
  have hprio : ∀ u, ((a.makeReady t).task u).prio = (a.task u).prio := fun u => by
    by_cases hu : u = t
    · subst hu
      simp [AbsKernel.setState, Task.prio]
    · simp [AbsKernel.setState, hu]
  have hself : ((a.makeReady t).task t).state = .ready := by simp [AbsKernel.setState]
  have hother : ∀ u, u ≠ t → ((a.makeReady t).task u).state = (a.task u).state :=
    fun u hu => by simp [AbsKernel.setState, hu]
  refine ⟨fun u => ?_, fun p u hu => ?_, fun u => ?_, fun u hu => ?_, fun u hu => ?_⟩
  · rw [makeReady_readyq, occurs_pushAt, h.ready]
    by_cases hu : u = t
    · subst hu
      rw [if_neg ho.ready, hself]
      simp
    · rw [hother u hu]
      simp [hu]
  · rw [hprio]
    rcases mem_pushAt.mp hu with hu | ⟨rfl, rfl⟩
    · exact h.ready_prio p u hu
    · rfl
  · by_cases hu : u = t
    · subst hu
      rw [hself]
      exact (h.irq u).trans (if_neg ho.awatievent)
    · rw [hother u hu]
      exact h.irq u
  · by_cases hut : u = t
    · subst hut
      exact absurd (h.dead u hu) ho.initialized
    · rw [hother u hut]
      exact h.dead u hu
  · by_cases hut : u = t
    · subst hut
      rw [hself]
      decide
    · rw [hother u hut]
      exact h.live u hu

/-- A descriptor that is not live becomes a ready task. -/
theorem created (h : a.Consistent) {priority parentTid : ℤ} {func : U64} {free : List TaskPtr}
    {block : BlockPtr} {used : BlockPtr → Bool} (ht : t ∉ a.jobq) :
    ((a.addTask img priority func parentTid t free block used).makeReady t).Consistent := by
  have hinit := h.dead t ht
  have hself : (((a.addTask img priority func parentTid t free block used).makeReady t).task
      t).state = .ready := by
    simp [AbsKernel.setState]
  have hother : ∀ u, u ≠ t → ((a.addTask img priority func parentTid t free block
      used).makeReady t).task u = a.task u :=
    fun u hu => by simp [AbsKernel.setState, AbsKernel.addTask, hu]
  have hmem : ∀ u, u ∈ ((a.addTask img priority func parentTid t free block
      used).makeReady t).jobq ↔ u ∈ a.jobq ∨ u = t := fun u => by simp [AbsKernel.addTask]
  have hnot : ∀ p, t ∉ a.readyq p := fun p hp => by
    have := h.mem_ready hp
    rw [hinit] at this
    cases this
  refine ⟨fun u => ?_, fun p u hu => ?_, fun u => ?_, fun u hu => ?_, fun u hu => ?_⟩
  · rw [makeReady_readyq, occurs_pushAt]
    by_cases hu : u = t
    · subst hu
      rw [hself]
      simpa [AbsKernel.addTask, hinit] using h.ready u
    · rw [hother u hu]
      simpa [AbsKernel.addTask, hu] using h.ready u
  · rcases mem_pushAt.mp hu with hu | ⟨rfl, rfl⟩
    · have hut : u ≠ t := by
        rintro rfl
        exact hnot p hu
      rw [hother u hut]
      exact h.ready_prio p u hu
    · simp [AbsKernel.setState, Task.prio]
  · by_cases hu : u = t
    · subst hu
      rw [hself]
      simpa [AbsKernel.addTask, hinit] using h.irq u
    · rw [hother u hu]
      exact h.irq u
  · rw [hmem, not_or] at hu
    rw [hother u hu.2]
    exact h.dead u hu.1
  · by_cases hut : u = t
    · subst hut
      rw [hself]
      decide
    · rw [hother u hut]
      exact h.live u (((hmem u).mp hu).resolve_right hut)

/-- The running task is gone. -/
theorem removed (h : a.Consistent) (hrun : (a.task c).state = .running) (hnd : a.jobq.Nodup)
    (block : BlockPtr) : (a.removed img c block).Consistent := by
  have hself : (a.removed img c block).task c = taskInit (a.task c) := by
    simp [AbsKernel.removed]
  have hother : ∀ u, u ≠ c → (a.removed img c block).task u = a.task u :=
    fun u hu => by simp [AbsKernel.removed, hu]
  have hready := h.ready
  have hirq := h.irq
  refine ⟨fun u => ?_, fun p u hu => ?_, fun u => ?_, fun u hu => ?_, fun u hu => ?_⟩
  · show occurs a.readyq u = _
    by_cases huc : u = c
    · subst huc
      rw [hself]
      simpa [hrun, taskInit] using hready u
    · rw [hother u huc]
      exact hready u
  · have huc : u ≠ c := by
      rintro rfl
      have := h.mem_ready hu
      rw [hrun] at this
      cases this
    rw [hother u huc]
    exact h.ready_prio p u hu
  · show occurs (cells a.irqq) u = _
    by_cases huc : u = c
    · subst huc
      rw [hself]
      simpa [hrun, taskInit] using hirq u
    · rw [hother u huc]
      exact hirq u
  · by_cases huc : u = c
    · subst huc
      rw [hself]
      rfl
    · rw [hother u huc]
      exact h.dead u fun hin => hu (hnd.mem_erase_iff.mpr ⟨huc, hin⟩)
  · obtain ⟨huc, hu⟩ := hnd.mem_erase_iff.mp hu
    rw [hother u huc]
    exact h.live u hu

/-- The task taken from the ready queue runs. -/
theorem dispatch {rq : Fin taskPriorityMax → List TaskPtr} (h : a.Consistent)
    (pop : popHighest a.readyq = some (c, rq)) : (a.dispatch c rq trap).Consistent := by
  obtain ⟨⟨p, hp⟩, hsub⟩ := mem_of_popHighest pop
  have hc := h.mem_ready hp
  have hself : ((a.dispatch c rq trap).task c).state = .running := by
    simp [AbsKernel.dispatch, saveContext]
  have hother : ∀ u, u ≠ c → (a.dispatch c rq trap).task u = a.task u :=
    fun u hu => by simp [AbsKernel.dispatch, hu]
  have hprio : ∀ u, ((a.dispatch c rq trap).task u).prio = (a.task u).prio := fun u => by
    by_cases huc : u = c
    · subst huc
      simp [AbsKernel.dispatch, saveContext, Task.prio]
    · rw [hother u huc]
  refine ⟨fun u => ?_, fun q u hu => ?_, fun u => ?_, fun u hu => ?_, fun u hu => ?_⟩
  · have hocc := occurs_popHighest pop u
    have hready := h.ready u
    show occurs rq u = _
    by_cases huc : u = c
    · subst huc
      rw [hself]
      simp [hc] at hocc hready ⊢
      omega
    · rw [hother u huc]
      simp only [huc, if_false] at hocc
      omega
  · rw [hprio]
    exact h.ready_prio q u (hsub q u hu)
  · have hirq := h.irq u
    show occurs (cells a.irqq) u = _
    by_cases huc : u = c
    · subst huc
      rw [hself]
      simpa [hc] using hirq
    · rw [hother u huc]
      exact hirq
  · have huc : u ≠ c := by
      rintro rfl
      rw [h.dead u hu] at hc
      cases hc
    rw [hother u huc]
    exact h.dead u hu
  · by_cases huc : u = c
    · subst huc
      rw [hself]
      decide
    · rw [hother u huc]
      exact h.live u hu

/-- The running task joins an irq queue. -/
theorem awaited (h : a.Consistent) (hrun : (a.task c).state = .running) (i : Fin numInterrupt)
    (p : Fin taskPriorityMax) : Consistent { a.setState c .awatievent with
      irqq := Function.update a.irqq i (pushAt (a.irqq i) p c) } := by
  have hself : ((a.setState c .awatievent).task c).state = .awatievent := by
    simp [AbsKernel.setState]
  have hother : ∀ u, u ≠ c → (a.setState c .awatievent).task u = a.task u :=
    fun u hu => by simp [AbsKernel.setState, hu]
  have hready := h.ready
  have hirq := h.irq
  refine ⟨fun u => ?_, fun q u hu => ?_, fun u => ?_, fun u hu => ?_, fun u hu => ?_⟩
  · show occurs a.readyq u = if ((a.setState c .awatievent).task u).state = _ then 1 else 0
    by_cases huc : u = c
    · subst huc
      rw [hself]
      simpa [hrun] using hready u
    · rw [hother u huc]
      exact hready u
  · have huc : u ≠ c := by
      rintro rfl
      have := h.mem_ready hu
      rw [hrun] at this
      cases this
    show ((a.setState c .awatievent).task u).prio = q
    rw [hother u huc]
    exact h.ready_prio q u hu
  · show occurs (cells (Function.update a.irqq i (pushAt (a.irqq i) p c))) u
      = if ((a.setState c .awatievent).task u).state = _ then 1 else 0
    rw [occurs_cells_pushAt]
    by_cases huc : u = c
    · subst huc
      rw [hself]
      simpa [hrun] using hirq u
    · rw [hother u huc]
      simpa [huc] using hirq u
  · show ((a.setState c .awatievent).task u).state = _
    have huc : u ≠ c := by
      rintro rfl
      have := h.dead u hu
      rw [hrun] at this
      cases this
    rw [hother u huc]
    exact h.dead u hu
  · show ((a.setState c .awatievent).task u).state ≠ _
    by_cases huc : u = c
    · subst huc
      rw [hself]
      decide
    · rw [hother u huc]
      exact h.live u hu

/-- A task that awaits an event leaves its irq queue for the ready queue. -/
theorem woke (h : a.Consistent) {i : Fin numInterrupt} {q : Fin taskPriorityMax → List TaskPtr}
    (pop : popHighest (a.irqq i) = some (t, q)) :
    Consistent (({ a with irqq := Function.update a.irqq i q } : AbsKernel).makeReady t) := by
  obtain ⟨⟨p, hp⟩, -⟩ := mem_of_popHighest pop
  have ht := h.mem_irq hp
  have hself : ((({ a with irqq := Function.update a.irqq i q } : AbsKernel).makeReady t).task
      t).state = .ready := by
    simp [AbsKernel.setState]
  have hother : ∀ u, u ≠ t →
      (({ a with irqq := Function.update a.irqq i q } : AbsKernel).makeReady t).task u
        = a.task u :=
    fun u hu => by simp [AbsKernel.setState, hu]
  have hready := h.ready
  have hirq := h.irq
  refine ⟨fun u => ?_, fun q' u hu => ?_, fun u => ?_, fun u hu => ?_, fun u hu => ?_⟩
  · rw [makeReady_readyq, occurs_pushAt]
    by_cases hut : u = t
    · subst hut
      rw [hself]
      simpa [ht] using hready u
    · rw [hother u hut]
      simpa [hut] using hready u
  · rcases mem_pushAt.mp hu with hold | ⟨rfl, rfl⟩
    · have hut : u ≠ t := by
        rintro rfl
        have := h.mem_ready hold
        rw [ht] at this
        cases this
      rw [hother u hut]
      exact h.ready_prio q' u hold
    · simp [AbsKernel.setState, Task.prio]
  · have hocc := occurs_cells_popHighest pop u
    have hu := hirq u
    show occurs (cells (Function.update a.irqq i q)) u = _
    by_cases hut : u = t
    · subst hut
      rw [hself]
      simp [ht] at hocc hu ⊢
      omega
    · rw [hother u hut]
      simp only [hut, if_false] at hocc
      omega
  · have hut : u ≠ t := by
      rintro rfl
      have := h.dead u hu
      rw [ht] at this
      cases this
    rw [hother u hut]
    exact h.dead u hu
  · by_cases hut : u = t
    · subst hut
      rw [hself]
      decide
    · rw [hother u hut]
      exact h.live u hu

end Consistent

/-! ### The rings -/

theorem registerSender_contents {t : Task} (hr : t.senders.Ring) {tid : ℤ}
    (h : (registerSender t tid).1 = true) :
    (registerSender t tid).2.senders.contents = t.senders.contents ++ [ofInt tid] :=
  Queue.push_contents hr.ok _ h

theorem nextSender_contents {t : Task} (hr : t.senders.Ring)
    (h : queueIsEmpty t.senders = false) :
    ∃ e, t.senders.contents = e :: (nextSender t).2.senders.contents ∧
      (nextSender t).1 = toInt32 e :=
  ⟨_, Queue.pop_contents hr.ok h, rfl⟩

namespace WellFormed

variable {a : AbsKernel}

theorem tid_lt (h : a.WellFormed) {t : TaskPtr} (ht : t ∈ a.jobq) :
    0 ≤ (a.task t).tid ∧ (a.task t).tid < maxTaskNum := by
  have h₁ := h.live_tid t ht
  have h₂ := h.count
  omega

/-- The ring elements of two live tasks are different. -/
theorem ofInt_tid_inj (h : a.WellFormed) {t u : TaskPtr} (ht : t ∈ a.jobq) (hu : u ∈ a.jobq)
    (heq : ofInt (a.task t).tid = ofInt (a.task u).tid) : t = u := by
  have h₁ := h.tid_lt ht
  have h₂ := h.tid_lt hu
  simp only [maxTaskNum] at h₁ h₂
  have h₃ := congrArg toInt32 heq
  rw [toInt32_ofInt (by omega) (by omega), toInt32_ofInt (by omega) (by omega)] at h₃
  exact h.tid_inj t ht u hu h₃

theorem lookup_ofInt (h : a.WellFormed) {t : TaskPtr} (ht : t ∈ a.jobq) :
    a.getTaskByTid (toInt32 (ofInt (a.task t).tid)) = some t := by
  have h₁ := h.tid_lt ht
  simp only [maxTaskNum] at h₁
  rw [toInt32_ofInt (by omega) (by omega)]
  exact h.lookup_eq ht

end WellFormed

namespace Rings

variable {a a' : AbsKernel} {img : Image} {c t : TaskPtr} {trap : Trap}

/-- Rings that stay or are emptied, while the queued senders stay as they are. -/
theorem mono (h : a.Rings) (hr : ∀ r, a'.rings r = a.rings r ∨ a'.rings r = [])
    (hs : ∀ s ∈ a.jobq, (a.task s).state = .watisend →
      s ∈ a'.jobq ∧ (a'.task s).tid = (a.task s).tid ∧ (a'.task s).state = .watisend)
    (hw : ∀ r, (a'.task r).state = .waitreceive →
      (a.task r).state = .waitreceive ∨ a'.rings r = []) : a'.Rings := by
  refine ⟨fun r e he => ?_, fun e => ?_, fun r hrw => ?_⟩
  · rcases hr r with heq | hnil
    · rw [heq] at he
      obtain ⟨s, hsj, rfl, hst⟩ := h.sender r e he
      obtain ⟨hj, htid, hst'⟩ := hs s hsj hst
      exact ⟨s, hj, by rw [htid], hst'⟩
    · simp [hnil] at he
  · refine le_trans (Finset.sum_le_sum fun r _ => ?_) (h.once e)
    rcases hr r with heq | hnil
    · rw [heq]
    · simp [hnil]
  · rcases hw r hrw with hold | hnil
    · rcases hr r with heq | hnil
      · rw [heq]
        exact h.waiting r hold
      · exact hnil
    · exact hnil

/-- No ring changes, and the tasks that change state are no queued senders. -/
theorem congr (h : a.Rings) (hj : a'.jobq = a.jobq)
    (hr : ∀ r, (a'.task r).senders = (a.task r).senders)
    (ht : ∀ s, (a'.task s).tid = (a.task s).tid)
    (hs : ∀ s, (a.task s).state = .watisend → (a'.task s).state = .watisend)
    (hw : ∀ r, (a'.task r).state = .waitreceive →
      (a.task r).state = .waitreceive ∨ a.rings r = []) : a'.Rings := by
  have hrings : ∀ r, a'.rings r = a.rings r := fun r => by simp [rings, hr]
  refine h.mono (fun r => Or.inl (hrings r))
    (fun s hsj hst => ⟨hj ▸ hsj, ht s, hs s hst⟩) fun r hrw => ?_
  rw [hrings]
  exact hw r hrw

theorem setMem (h : a.Rings) (mem : Mem) : (a.setMem mem).Rings :=
  ⟨h.sender, h.once, h.waiting⟩

theorem assign (h : a.Rings) (t : TaskPtr) (v : ℤ) : (a.assign t v).Rings :=
  h.congr rfl (fun r => assign_senders a t v r) (fun s => assign_tid a t v s)
    (fun s hs => (assign_state a t v s).trans hs)
    fun r hr => Or.inl ((assign_state a t v r).symm.trans hr)

theorem setState (h : a.Rings) {s : TaskState} (ht : (a.task t).state ≠ .watisend)
    (hs : s = .waitreceive → a.rings t = []) : (a.setState t s).Rings := by
  refine h.congr rfl (fun r => setState_senders a t s r) (fun u => setState_tid a t s u)
    (fun u hu => ?_) fun r hr => ?_
  · have hut : u ≠ t := fun he => ht (he ▸ hu)
    rw [setState_state, if_neg hut]
    exact hu
  · rw [setState_state] at hr
    by_cases hrt : r = t
    · rw [if_pos hrt] at hr
      exact Or.inr (hrt ▸ hs hr)
    · rw [if_neg hrt] at hr
      exact Or.inl hr

theorem makeReady (h : a.Rings) (ht : (a.task t).state ≠ .watisend) :
    (a.makeReady t).Rings := by
  have h' := h.setState (s := .ready) ht (by intro h; cases h)
  exact ⟨h'.sender, h'.once, h'.waiting⟩

theorem created (h : a.Rings) {priority parentTid : ℤ} {func : U64} {free : List TaskPtr}
    {block : BlockPtr} {used : BlockPtr → Bool} (ht : t ∉ a.jobq) :
    ((a.addTask img priority func parentTid t free block used).makeReady t).Rings := by
  have hother : ∀ u, u ≠ t → ((a.addTask img priority func parentTid t free block
      used).makeReady t).task u = a.task u :=
    fun u hu => by simp [AbsKernel.setState, AbsKernel.addTask, hu]
  refine h.mono (fun r => ?_) (fun s hs hst => ?_) fun r hr => ?_
  · by_cases hrt : r = t
    · subst hrt
      exact Or.inr (by simp [rings, AbsKernel.addTask, newTask, taskInit])
    · exact Or.inl (by simp [rings, hother r hrt])
  · have hne : s ≠ t := fun he => ht (he ▸ hs)
    rw [hother s hne]
    exact ⟨by simp [AbsKernel.addTask, hs], rfl, hst⟩
  · by_cases hrt : r = t
    · subst hrt
      simp [AbsKernel.setState] at hr
    · rw [hother r hrt] at hr
      exact Or.inl hr

theorem removed (h : a.Rings) (hrun : (a.task c).state = .running) (hnd : a.jobq.Nodup)
    (block : BlockPtr) : (a.removed img c block).Rings := by
  have hother : ∀ u, u ≠ c → (a.removed img c block).task u = a.task u :=
    fun u hu => by simp [AbsKernel.removed, hu]
  refine h.mono (fun r => ?_) (fun s hs hst => ?_) fun r hr => ?_
  · by_cases hrc : r = c
    · subst hrc
      exact Or.inr (by simp [rings, AbsKernel.removed, taskInit])
    · exact Or.inl (by simp [rings, hother r hrc])
  · have hne : s ≠ c := by
      rintro rfl
      rw [hrun] at hst
      cases hst
    rw [hother s hne]
    exact ⟨hnd.mem_erase_iff.mpr ⟨hne, hs⟩, rfl, hst⟩
  · by_cases hrc : r = c
    · subst hrc
      simp [AbsKernel.removed, taskInit] at hr
    · rw [hother r hrc] at hr
      exact Or.inl hr

theorem dispatch {rq : Fin taskPriorityMax → List TaskPtr} (h : a.Rings)
    (hc : (a.task c).state = .ready) : (a.dispatch c rq trap).Rings := by
  have hother : ∀ u, u ≠ c → (a.dispatch c rq trap).task u = a.task u :=
    fun u hu => by simp [AbsKernel.dispatch, hu]
  have hself : (a.dispatch c rq trap).task c
      = saveContext { a.task c with state := .running } trap := by simp [AbsKernel.dispatch]
  refine h.congr rfl (fun r => ?_) (fun s => ?_) (fun s hs => ?_) fun r hr => ?_
  · by_cases hrc : r = c
    · subst hrc
      rw [hself]
      rfl
    · rw [hother r hrc]
  · by_cases hsc : s = c
    · subst hsc
      rw [hself]
      rfl
    · rw [hother s hsc]
  · have hsc : s ≠ c := by
      rintro rfl
      rw [hc] at hs
      cases hs
    rw [hother s hsc]
    exact hs
  · by_cases hrc : r = c
    · subst hrc
      rw [hself] at hr
      cases hr
    · rw [hother r hrc] at hr
      exact Or.inl hr

/-- A running task is in no ring. -/
theorem running_not_queued (h : a.Rings) (hw : a.WellFormed) (hlive : c ∈ a.jobq)
    (hs : (a.task c).state ≠ .watisend) : occurs a.rings (ofInt (a.task c).tid) = 0 := by
  by_contra hne
  obtain ⟨r, hr⟩ := (occurs_pos_iff _ _).mp (Nat.pos_of_ne_zero hne)
  obtain ⟨s, hsj, heq, hst⟩ := h.sender r _ hr
  obtain rfl := hw.ofInt_tid_inj hlive hsj heq
  exact hs hst

/-- The running task joins the ring of `r`. -/
theorem queued (h : a.Rings) (hw : a.WellFormed) (hlive : c ∈ a.jobq)
    (hrun : (a.task c).state = .running) {r : TaskPtr} (hr : (a.task r).state ≠ .waitreceive)
    (room : (registerSender (a.task r) (a.task c).tid).1 = true) :
    ((a.modify r fun _ => (registerSender (a.task r) (a.task c).tid).2).setState c
      .watisend).Rings := by
  have hnone := h.running_not_queued hw hlive (by rw [hrun]; decide)
  let b := a.modify r fun _ => (registerSender (a.task r) (a.task c).tid).2
  have htid : ∀ u, (b.task u).tid = (a.task u).tid :=
    fun u => modify_field a r (fun _ => (registerSender (a.task r) (a.task c).tid).2) Task.tid
      rfl u
  have hstate : ∀ u, (b.task u).state = (a.task u).state :=
    fun u => modify_field a r (fun _ => (registerSender (a.task r) (a.task c).tid).2) Task.state
      rfl u
  have hrings : (b.setState c .watisend).rings
      = Function.update a.rings r (a.rings r ++ [ofInt (a.task c).tid]) := by
    funext u
    by_cases hu : u = r
    · subst hu
      simp [rings, b, registerSender_contents (hw.ring u) room]
    · simp [rings, b, hu]
  refine ⟨fun u e he => ?_, fun e => ?_, fun u hu => ?_⟩
  · have hold : e ∈ a.rings u ∨ e = ofInt (a.task c).tid := by
      rw [hrings] at he
      by_cases hu : u = r
      · subst hu
        simpa using he
      · rw [Function.update_of_ne hu] at he
        exact Or.inl he
    rcases hold with he | rfl
    · obtain ⟨s, hsj, rfl, hst⟩ := h.sender u e he
      refine ⟨s, hsj, by rw [setState_tid, htid], ?_⟩
      rw [setState_state, hstate]
      split
      · rfl
      · exact hst
    · refine ⟨c, hlive, by rw [setState_tid, htid], ?_⟩
      rw [setState_state, if_pos rfl]
  · have hocc := occurs_update a.rings r (a.rings r ++ [ofInt (a.task c).tid]) e
    rw [List.count_append, List.count_singleton] at hocc
    rw [hrings]
    have hle := h.once e
    by_cases he : e = ofInt (a.task c).tid
    · subst he
      simp at hocc
      omega
    · have he' : (ofInt (a.task c).tid == e) = false := by simpa using fun h => he h.symm
      simp [he'] at hocc
      omega
  · rw [setState_state, hstate] at hu
    by_cases huc : u = c
    · rw [if_pos huc] at hu
      cases hu
    · rw [if_neg huc] at hu
      have hur : u ≠ r := fun he => hr (he ▸ hu)
      rw [hrings, Function.update_of_ne hur]
      exact h.waiting u hu

/-- The sender that a Receive of `c` takes from its ring waits for that. -/
theorem nextSender (h : a.Rings) (hw : a.WellFormed)
    (hne : queueIsEmpty (a.task c).senders = false) :
    ∃ s ∈ a.jobq, a.rings c = ofInt (a.task s).tid ::
        (RealtimeKernel.nextSender (a.task c)).2.senders.contents ∧
      a.getTaskByTid (RealtimeKernel.nextSender (a.task c)).1 = some s ∧
      (a.task s).state = .watisend := by
  obtain ⟨e, he, hid⟩ := nextSender_contents (hw.ring c) hne
  obtain ⟨s, hsj, rfl, hst⟩ := h.sender c e (by simp [rings, he])
  refine ⟨s, hsj, he, ?_, hst⟩
  rw [hid]
  exact hw.lookup_ofInt hsj

/-- That sender leaves the ring and waits for the reply. -/
theorem taken (h : a.Rings) {s : TaskPtr} (hsj : s ∈ a.jobq)
    (hrun : (a.task c).state = .running)
    (hring : a.rings c = ofInt (a.task s).tid ::
      (RealtimeKernel.nextSender (a.task c)).2.senders.contents) :
    ((a.modify c fun _ => (RealtimeKernel.nextSender (a.task c)).2).setState s
      .watireply).Rings := by
  let b := a.modify c fun _ => (RealtimeKernel.nextSender (a.task c)).2
  have htid : ∀ u, (b.task u).tid = (a.task u).tid := fun u => (task_nextSender a c u).1
  have hstate : ∀ u, (b.task u).state = (a.task u).state :=
    fun u => (task_nextSender a c u).2.2
  have hrings : (b.setState s .watireply).rings = Function.update a.rings c
      (RealtimeKernel.nextSender (a.task c)).2.senders.contents := by
    funext u
    by_cases hu : u = c
    · subst hu
      simp [rings, b]
    · simp [rings, b, hu]
  have hocc : ∀ e, occurs (b.setState s .watireply).rings e
      + (if e = ofInt (a.task s).tid then 1 else 0) = occurs a.rings e := by
    intro e
    have := occurs_update a.rings c (RealtimeKernel.nextSender (a.task c)).2.senders.contents e
    rw [hring, List.count_cons] at this
    rw [hrings]
    by_cases he : e = ofInt (a.task s).tid
    · subst he
      simp at this ⊢
      omega
    · have he' : (ofInt (a.task s).tid == e) = false := by simpa using fun h => he h.symm
      simp [he, he'] at this ⊢
      omega
  refine ⟨fun u e he => ?_, fun e => ?_, fun u hu => ?_⟩
  · have hold : e ∈ a.rings u := by
      rw [hrings] at he
      by_cases hu : u = c
      · subst hu
        rw [Function.update_self] at he
        rw [hring]
        exact List.mem_cons_of_mem _ he
      · rwa [Function.update_of_ne hu] at he
    obtain ⟨s', hsj', rfl, hst'⟩ := h.sender u e hold
    have hpos : 0 < occurs (b.setState s .watireply).rings (ofInt (a.task s').tid) :=
      (occurs_pos_iff _ _).mpr ⟨u, he⟩
    have hne : s' ≠ s := by
      rintro rfl
      have h₁ := hocc (ofInt (a.task s').tid)
      have h₂ := h.once (ofInt (a.task s').tid)
      simp at h₁
      omega
    refine ⟨s', hsj', by rw [setState_tid, htid], ?_⟩
    rw [setState_state, if_neg hne, hstate]
    exact hst'
  · have h₁ := hocc e
    have h₂ := h.once e
    show occurs (b.setState s .watireply).rings e ≤ 1
    omega
  · rw [setState_state, hstate] at hu
    by_cases hus : u = s
    · rw [if_pos hus] at hu
      cases hu
    · rw [if_neg hus] at hu
      have huc : u ≠ c := by
        rintro rfl
        rw [hrun] at hu
        cases hu
      rw [hrings, Function.update_of_ne huc]
      exact h.waiting u hu

end Rings

/-! ### One iteration -/

namespace Orderly

variable {a : AbsKernel} {img : Image} {c : TaskPtr} {trap : Trap}

theorem live_of_state (h : a.Orderly) {t : TaskPtr} (ht : (a.task t).state ≠ .initialized) :
    t ∈ a.jobq := by
  by_contra hno
  exact ht (h.dead t hno)

theorem requeue {a₁ : AbsKernel} (h : a.Orderly) (hr : Requeue a a₁) : a₁.Orderly := by
  have hw := (h.toWellFormed.requeue hr).1
  cases hr with
  | @running c current state push =>
    have hq : Quiet (a.task c).state := by
      rw [state]
      exact ⟨by decide, by decide, by decide⟩
    exact ⟨hw, h.toConsistent.makeReady hq, h.toRings.makeReady (by rw [state]; decide)⟩
  | blocked => exact h
  | gone => exact h

/-- **From the loop head to the handler** the state stays orderly. -/
theorem enters {m : AbsKernel} (h : a.Orderly) (he : Enters a trap c m) : m.Orderly := by
  have hw := h.toWellFormed.enters he
  cases he with
  | intro hr pop state =>
    have h₁ := h.requeue hr
    obtain ⟨⟨p, hp⟩, -⟩ := mem_of_popHighest pop
    exact ⟨hw, h₁.toConsistent.dispatch pop, h₁.toRings.dispatch (h₁.toConsistent.mem_ready hp)⟩

/-- **Every outcome of a handler** leaves an orderly state, if a Reply names a task that waits
for one. -/
theorem effect {a' : AbsKernel} (h : a.Orderly) (hc : a.currentTask = some c)
    (hrun : (a.task c).state = .running) (hx : (a.task c).x = trap.x) (hok : a.ReplyOk trap)
    (he : Effect img a c trap a') : a'.Orderly := by
  have hw := h.toWellFormed.effect hc he
  have hlive : c ∈ a.jobq := h.live_of_state (by rw [hrun]; decide)
  have hquiet : Quiet (a.task c).state := by
    rw [hrun]
    exact ⟨by decide, by decide, by decide⟩
  have hcs : (a.task c).state ≠ .watisend := by
    rw [hrun]
    decide
  cases he with
  | ignored => exact h
  | yielded => exact h
  | toldTid => exact ⟨hw, h.toConsistent.assign c _, h.toRings.assign c _⟩
  | toldParentTid => exact ⟨hw, h.toConsistent.assign c _, h.toRings.assign c _⟩
  | @created t free block used call hfree alloc room push =>
    have ht : t ∉ a.jobq := h.free_jobq t (by simp [hfree])
    exact ⟨hw, (h.toConsistent.created ht).assign c _, (h.toRings.created ht).assign c _⟩
  | createFailed => exact ⟨hw, h.toConsistent.assign c _, h.toRings.assign c _⟩
  | exited call live hblock =>
    exact ⟨hw, h.toConsistent.removed hrun h.jobq_nodup _, h.toRings.removed hrun h.jobq_nodup _⟩
  | sendNoTask => exact ⟨hw, h.toConsistent.assign c _, h.toRings.assign c _⟩
  | @sendDirect r call lookup state push =>
    have hcr : c ≠ r := by
      rintro rfl
      rw [hrun] at state
      cases state
    let b := (a.setMem (a.delivered c r)).assign r (a.deliveredLen c r)
    have hr : (b.task r).state = .waitreceive := (assign_state _ _ _ _).trans state
    have hcb : ((b.makeReady r).task c).state = .running := by
      rw [makeReady_task, setState_state, if_neg hcr]
      exact (assign_state _ _ _ _).trans hrun
    refine ⟨hw, Consistent.setState (Consistent.makeReady ((h.toConsistent.setMem _).assign r _)
      ?_) ?_ ⟨by decide, by decide, by decide⟩, Rings.setState (Rings.makeReady
        ((h.toRings.setMem _).assign r _) ?_) ?_ (by intro h; cases h)⟩
    · rw [hr]
      exact ⟨by decide, by decide, by decide⟩
    · rw [hcb]
      exact ⟨by decide, by decide, by decide⟩
    · rw [hr]
      decide
    · rw [hcb]
      decide
  | @sendQueued r call lookup state room =>
    refine ⟨hw, Consistent.setState (h.toConsistent.modify r rfl rfl) ?_
      ⟨by decide, by decide, by decide⟩, h.toRings.queued h.toWellFormed hlive hrun state room⟩
    rw [modify_field a r _ Task.state rfl, hrun]
    exact ⟨by decide, by decide, by decide⟩
  | sendFull => exact ⟨hw, h.toConsistent.assign c _, h.toRings.assign c _⟩
  | receiveBlocked call empty =>
    exact ⟨hw, h.toConsistent.setState hquiet ⟨by decide, by decide, by decide⟩,
      h.toRings.setState hcs fun _ => (Queue.isEmpty_iff (h.ring c).ok).mp empty⟩
  | receiveVanished call nonempty lookup =>
    obtain ⟨s, -, -, hl, -⟩ := h.toRings.nextSender h.toWellFormed nonempty
    rw [lookup] at hl
    cases hl
  | @received s call nonempty lookup state =>
    obtain ⟨s', hsj, hring, hl, hst⟩ := h.toRings.nextSender h.toWellFormed nonempty
    obtain rfl : s = s' := Option.some.inj (lookup.symm.trans hl)
    let b := a.modify c fun _ => (nextSender (a.task c)).2
    have hsb : ((((b.setMem (a.delivered s c)).assign c (a.deliveredLen s c))).task s).state
        = .watisend := (assign_state _ _ _ _).trans ((task_nextSender a c s).2.2.trans hst)
    refine ⟨hw, Consistent.setState
      (Consistent.assign (Consistent.setMem (h.toConsistent.modify c rfl rfl) _) c _) ?_
        ⟨by decide, by decide, by decide⟩, ?_⟩
    · rw [hsb]
      exact ⟨by decide, by decide, by decide⟩
    · refine (h.toRings.taken hsj hrun hring).congr rfl (fun r => ?_)
        (fun u => ?_) (fun u hu => ?_) fun u hu => ?_
      · rw [setState_senders, setState_senders, assign_senders, setMem_task]
      · rw [setState_tid, setState_tid, assign_tid, setMem_task]
      · rw [setState_state] at hu ⊢
        rwa [assign_state, setMem_task]
      · rw [setState_state] at hu ⊢
        rw [assign_state, setMem_task] at hu
        exact Or.inl hu
  | replyNoTask => exact ⟨hw, h.toConsistent.assign c _, h.toRings.assign c _⟩
  | @replied s call lookup state push =>
    have hs : (a.task s).state = .watireply := hok call s (hx ▸ lookup)
    have hsb : (((a.setMem (a.repliedMem c s)).assign s (a.repliedLen c s)).task s).state
        = .watireply := (assign_state _ _ _ _).trans hs
    refine ⟨hw, Consistent.assign (Consistent.makeReady
      ((h.toConsistent.setMem _).assign s _) ?_) c _, Rings.assign (Rings.makeReady
        ((h.toRings.setMem _).assign s _) ?_) c _⟩
    · rw [hsb]
      exact ⟨by decide, by decide, by decide⟩
    · rw [hsb]
      decide
  | @repliedRunning s call lookup state =>
    exact ⟨hw, ((h.toConsistent.setMem _).assign s _).assign c _,
      ((h.toRings.setMem _).assign s _).assign c _⟩
  | @awaited i call valid prio room =>
    have hr := h.toRings.setState (s := .awatievent) hcs (by intro h; cases h)
    exact ⟨hw, h.toConsistent.awaited hrun i _, ⟨hr.sender, hr.once, hr.waiting⟩⟩
  | tickIdle =>
    exact ⟨hw, h.toConsistent.setClocks _, ⟨h.sender, h.once, h.waiting⟩⟩
  | @tickWoke chi clo clocks t q cause tick pop state push =>
    have hr := h.toRings.makeReady (t := t) (by rw [state]; decide)
    exact ⟨hw, (h.toConsistent.setClocks clocks).woke pop, ⟨hr.sender, hr.once, hr.waiting⟩⟩

end Orderly

end AbsKernel

end RealtimeKernel
