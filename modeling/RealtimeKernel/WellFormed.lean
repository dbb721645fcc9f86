import RealtimeKernel.Effects

/-!
# What holds of every kernel state

`WellFormed` collects the invariants that need no assumption about the user programs: live tasks
have distinct tids below the counter, descriptors of tasks that are not live have tid `-1`,
descriptors are handed out at most once, each descriptor that was taken from the free list
accounts for one tid and at most one memory block, only the current task is running, priorities
are in range and the rings of senders are sound.  It is kept by `Enters` and by every outcome of
a handler, whatever the tasks do.
-/

namespace RealtimeKernel

open Lib

/-! ### Memory blocks -/

/-- The number of blocks marked as used. -/
def usedBlocks (used : BlockPtr → Bool) : ℕ := (Finset.univ.filter fun b => used b = true).card

theorem memoryAllocateBlock_eq_some {used used' : BlockPtr → Bool} {b : BlockPtr}
    (h : memoryAllocateBlock used = (some b, used')) :
    used b = false ∧ used' = Function.update used b true := by
  unfold memoryAllocateBlock at h
  split at h
  · rename_i i hi
    obtain ⟨rfl, rfl⟩ : i = b ∧ Function.update used i true = used' := by simpa using h
    exact ⟨by simpa using List.find?_some hi, rfl⟩
  · simp at h

theorem memoryAllocateBlock_of_lt {used : BlockPtr → Bool}
    (h : usedBlocks used < memoryBlockMaxNum) :
    ∃ b used', memoryAllocateBlock used = (some b, used') := by
  unfold memoryAllocateBlock
  cases hf : (List.finRange memoryBlockMaxNum).find? fun i => used i == false with
  | some i => exact ⟨i, _, rfl⟩
  | none =>
    have hall : ∀ b, used b = true := fun b => by
      simpa using List.find?_eq_none.mp hf b (List.mem_finRange b)
    have : usedBlocks used = memoryBlockMaxNum := by
      simp [usedBlocks, hall]
    omega

theorem usedBlocks_alloc {used : BlockPtr → Bool} {b : BlockPtr} (hb : used b = false) :
    usedBlocks (Function.update used b true) = usedBlocks used + 1 := by
  have heq : (Finset.univ.filter fun i => Function.update used b true i = true)
      = insert b (Finset.univ.filter fun i => used i = true) := by
    ext i
    by_cases hi : i = b
    · subst hi
      simp
    · simp [hi]
  unfold usedBlocks
  rw [heq, Finset.card_insert_of_notMem (by simp [hb])]

theorem usedBlocks_free (used : BlockPtr → Bool) (b : BlockPtr) :
    usedBlocks (Function.update used b false) ≤ usedBlocks used := by
  refine Finset.card_le_card fun i hi => ?_
  simp only [Finset.mem_filter, Finset.mem_univ, true_and] at hi ⊢
  by_cases hib : i = b
  · subst hib
    simp at hi
  · rwa [Function.update_of_ne hib] at hi

theorem i32Clamp_range (priority : ℤ) :
    taskPriorityMin ≤ i32Clamp priority taskPriorityMin (taskPriorityMax - 1) ∧
      i32Clamp priority taskPriorityMin (taskPriorityMax - 1) < taskPriorityMax := by
  simp only [i32Clamp, taskPriorityMin, taskPriorityMax]
  split_ifs <;> omega

/-! ### The rings of senders -/

/-- A ring over a `sender_container`. -/
structure Queue.Ring (q : Queue) : Prop where
  ok : q.Ok
  capacity : q.capacity = maxSenderCapacity

theorem Queue.Ring.init (container : ℕ → U64) : (queueInit container maxSenderCapacity).Ring :=
  ⟨Queue.init_ok container (by decide), rfl⟩

theorem Queue.Ring.push {q : Queue} (h : q.Ring) (e : U64) : (queuePush q e).2.Ring :=
  ⟨Queue.push_ok h.ok e, (Queue.push_capacity e).trans h.capacity⟩

theorem Queue.Ring.pop {q : Queue} (h : q.Ring) : (queuePop q).2.Ring :=
  ⟨Queue.pop_ok h.ok, Queue.pop_capacity.trans h.capacity⟩

namespace AbsKernel

/-- The invariants of every kernel state, for arbitrary user programs. -/
structure WellFormed (a : AbsKernel) : Prop where
  jobq_nodup : a.jobq.Nodup
  free_nodup : a.free.Nodup
  free_jobq : ∀ t ∈ a.free, t ∉ a.jobq
  ready_free : ∀ p, ∀ t ∈ a.readyq p, t ∉ a.free
  irq_free : ∀ i p, ∀ t ∈ a.irqq i p, t ∉ a.free
  current_free : ∀ t, a.currentTask = some t → t ∉ a.free
  dead_tid : ∀ t, t ∉ a.jobq → (a.task t).tid = -1
  live_tid : ∀ t ∈ a.jobq, 0 ≤ (a.task t).tid ∧ (a.task t).tid < a.taskIdCnt
  tid_inj : ∀ t ∈ a.jobq, ∀ u ∈ a.jobq, (a.task t).tid = (a.task u).tid → t = u
  count : a.taskIdCnt + a.free.length = maxTaskNum
  blocks : usedBlocks a.memoryBlocksUsed + a.free.length ≤ maxTaskNum
  block : ∀ t ∈ a.jobq, (a.task t).memoryBlock ≠ none
  running : ∀ t, (a.task t).state = .running → a.currentTask = some t
  prio : ∀ t, (a.task t).PrioOk
  ring : ∀ t, (a.task t).senders.Ring

/-- `u` may take the place of the descriptor `t` of a well-formed state. -/
structure Keeps (t u : Task) : Prop where
  tid : u.tid = t.tid
  priority : u.priority = t.priority
  block : u.memoryBlock = t.memoryBlock
  running : u.state = .running → t.state = .running
  ring : t.senders.Ring → u.senders.Ring

theorem Keeps.assignResult (t : Task) (v : U64) : Keeps t (assignResult t v) :=
  ⟨rfl, rfl, rfl, id, id⟩

theorem Keeps.setState (t : Task) {s : TaskState} (hs : s ≠ .running) :
    Keeps t { t with state := s } :=
  ⟨rfl, rfl, rfl, fun h => absurd h hs, id⟩

theorem Keeps.registerSender (t : Task) (tid : ℤ) : Keeps t (registerSender t tid).2 :=
  ⟨rfl, rfl, rfl, id, fun h => h.push _⟩

theorem Keeps.nextSender (t : Task) : Keeps t (nextSender t).2 :=
  ⟨rfl, rfl, rfl, id, fun h => h.pop⟩

namespace WellFormed

variable {a : AbsKernel} {img : Image} {c : TaskPtr} {trap : Trap}

theorem modify (h : a.WellFormed) (t : TaskPtr) {f : Task → Task}
    (hf : Keeps (a.task t) (f (a.task t))) : (a.modify t f).WellFormed := by
  have htid : ∀ u, ((a.modify t f).task u).tid = (a.task u).tid := fun u => by
    by_cases hu : u = t
    · subst hu
      simp [hf.tid]
    · simp [hu]
  refine ⟨h.jobq_nodup, h.free_nodup, h.free_jobq, h.ready_free, h.irq_free, h.current_free,
    fun u hu => ?_, fun u hu => ?_, fun u hu v hv huv => ?_, h.count, h.blocks,
    fun u hu => ?_, fun u hu => ?_, fun u => ?_, fun u => ?_⟩
  · rw [htid]
    exact h.dead_tid u hu
  · rw [htid]
    exact h.live_tid u hu
  · rw [htid, htid] at huv
    exact h.tid_inj u hu v hv huv
  · by_cases hut : u = t
    · subst hut
      simpa [hf.block] using h.block u hu
    · simpa [hut] using h.block u hu
  · by_cases hut : u = t
    · subst hut
      exact h.running u (hf.running (by simpa using hu))
    · exact h.running u (by simpa [hut] using hu)
  · by_cases hut : u = t
    · subst hut
      simpa [Task.PrioOk, hf.priority] using h.prio u
    · simpa [hut] using h.prio u
  · by_cases hut : u = t
    · subst hut
      simpa using hf.ring (h.ring u)
    · simpa [hut] using h.ring u

theorem setMem (h : a.WellFormed) (mem : Mem) : (a.setMem mem).WellFormed :=
  ⟨h.jobq_nodup, h.free_nodup, h.free_jobq, h.ready_free, h.irq_free, h.current_free, h.dead_tid,
    h.live_tid, h.tid_inj, h.count, h.blocks, h.block, h.running, h.prio, h.ring⟩

theorem setClocks (h : a.WellFormed) (clocks : Clocks) :
    WellFormed { a with clocks := clocks } :=
  ⟨h.jobq_nodup, h.free_nodup, h.free_jobq, h.ready_free, h.irq_free, h.current_free, h.dead_tid,
    h.live_tid, h.tid_inj, h.count, h.blocks, h.block, h.running, h.prio, h.ring⟩

theorem setReadyq (h : a.WellFormed) {rq : Fin taskPriorityMax → List TaskPtr}
    (hrq : ∀ p, ∀ t ∈ rq p, t ∉ a.free) : WellFormed { a with readyq := rq } :=
  ⟨h.jobq_nodup, h.free_nodup, h.free_jobq, hrq, h.irq_free, h.current_free, h.dead_tid,
    h.live_tid, h.tid_inj, h.count, h.blocks, h.block, h.running, h.prio, h.ring⟩

theorem setIrqq (h : a.WellFormed) {irqq : Fin numInterrupt → Fin taskPriorityMax → List TaskPtr}
    (hq : ∀ i p, ∀ t ∈ irqq i p, t ∉ a.free) : WellFormed { a with irqq := irqq } :=
  ⟨h.jobq_nodup, h.free_nodup, h.free_jobq, h.ready_free, hq, h.current_free, h.dead_tid,
    h.live_tid, h.tid_inj, h.count, h.blocks, h.block, h.running, h.prio, h.ring⟩

theorem assign (h : a.WellFormed) (t : TaskPtr) (v : ℤ) : (a.assign t v).WellFormed :=
  h.modify t (Keeps.assignResult _ _)

theorem setState (h : a.WellFormed) (t : TaskPtr) {s : TaskState} (hs : s ≠ .running) :
    (a.setState t s).WellFormed :=
  h.modify t (Keeps.setState _ hs)

theorem makeReady (h : a.WellFormed) {t : TaskPtr} (ht : t ∉ a.free) :
    (a.makeReady t).WellFormed := by
  refine (h.setState t (s := .ready) (by decide)).setReadyq fun p u hu => ?_
  rcases mem_pushAt.mp hu with hu | ⟨-, rfl⟩
  · exact h.ready_free p u hu
  · exact ht

/-- A live task was taken from the free list. -/
theorem not_free (h : a.WellFormed) {t : TaskPtr} (ht : t ∈ a.jobq) : t ∉ a.free :=
  fun hin => h.free_jobq t hin ht

theorem mem_of_lookup {tid : ℤ} {t : TaskPtr} (hl : a.getTaskByTid tid = some t) : t ∈ a.jobq :=
  List.mem_of_find?_eq_some hl

theorem tid_of_lookup {tid : ℤ} {t : TaskPtr} (hl : a.getTaskByTid tid = some t) :
    (a.task t).tid = tid := by
  simpa using List.find?_some hl

/-- `get_task_by_tid` finds every live task by its tid. -/
theorem lookup_eq (h : a.WellFormed) {t : TaskPtr} (ht : t ∈ a.jobq) :
    a.getTaskByTid (a.task t).tid = some t := by
  cases hl : a.getTaskByTid (a.task t).tid with
  | none =>
    have := List.find?_eq_none.mp hl t ht
    simp at this
  | some u => rw [h.tid_inj u (mem_of_lookup hl) t ht (tid_of_lookup hl)]

/-- There are never more live tasks than descriptors taken from the free list. -/
theorem jobq_room (h : a.WellFormed) : a.jobq.length + a.free.length ≤ maxTaskNum := by
  have hnd : (a.jobq ++ a.free).Nodup :=
    List.nodup_append.mpr ⟨h.jobq_nodup, h.free_nodup, fun t ht u hu htu =>
      h.free_jobq u hu (htu ▸ ht)⟩
  have hlen := hnd.length_le_card
  rw [List.length_append, Fintype.card_fin] at hlen
  exact hlen

theorem addTask (h : a.WellFormed) {priority parentTid : ℤ} {func : U64} {t : TaskPtr}
    {free : List TaskPtr} {block : BlockPtr} {used : BlockPtr → Bool}
    (hfree : a.free = t :: free)
    (alloc : memoryAllocateBlock a.memoryBlocksUsed = (some block, used)) :
    (a.addTask img priority func parentTid t free block used).WellFormed := by
  obtain ⟨hb, rfl⟩ := memoryAllocateBlock_eq_some alloc
  have ht : t ∈ a.free := by simp [hfree]
  have hnd := h.free_nodup
  rw [hfree, List.nodup_cons] at hnd
  have hsub : ∀ u, u ∈ free → u ∈ a.free := fun u hu => by simp [hfree, hu]
  have htj : t ∉ a.jobq := h.free_jobq t ht
  have hne : ∀ u ∈ a.jobq, u ≠ t := fun u hu he => htj (he ▸ hu)
  have hlen : a.free.length = free.length + 1 := by simp [hfree]
  have hcount := h.count
  have hother : ∀ u, u ≠ t →
      (a.addTask img priority func parentTid t free block
        (Function.update a.memoryBlocksUsed block true)).task u = a.task u :=
    fun u hu => by simp [AbsKernel.addTask, hu]
  have hnew : (a.addTask img priority func parentTid t free block
      (Function.update a.memoryBlocksUsed block true)).task t
        = newTask img a.taskIdCnt parentTid (i32Clamp priority taskPriorityMin
          (taskPriorityMax - 1)) block func (a.task t) := by
    simp [AbsKernel.addTask]
  have hmem : ∀ u, u ∈ (a.addTask img priority func parentTid t free block
      (Function.update a.memoryBlocksUsed block true)).jobq ↔ u ∈ a.jobq ∨ u = t :=
    fun u => by simp [AbsKernel.addTask]
  refine ⟨?_, hnd.2, fun u hu => ?_, fun p u hu => ?_, fun i p u hu => ?_, fun u hu => ?_,
    fun u hu => ?_, fun u hu => ?_, fun u hu v hv huv => ?_, ?_, ?_, fun u hu => ?_,
    fun u hu => ?_, fun u => ?_, fun u => ?_⟩
  · exact List.nodup_append.mpr ⟨h.jobq_nodup, by simp, fun u hu v hv huv => by
      rw [List.mem_singleton] at hv
      exact hne u hu (huv.trans hv)⟩
  · rw [hmem]
    rintro (hin | rfl)
    · exact h.free_jobq u (hsub u hu) hin
    · exact hnd.1 hu
  · exact fun hin => h.ready_free p u hu (hsub u hin)
  · exact fun hin => h.irq_free i p u hu (hsub u hin)
  · exact fun hin => h.current_free u hu (hsub u hin)
  · rw [hmem, not_or] at hu
    rw [hother u hu.2]
    exact h.dead_tid u hu.1
  · rcases (hmem u).mp hu with hu | rfl
    · rw [hother u (hne u hu)]
      have := h.live_tid u hu
      simp only [AbsKernel.addTask]
      omega
    · rw [hnew]
      simp only [newTask, AbsKernel.addTask]
      have := h.jobq_room
      omega
  · -- the new tid is above every live one
    rcases (hmem u).mp hu with hu' | hu' <;> rcases (hmem v).mp hv with hv' | hv'
    · rw [hother u (hne u hu'), hother v (hne v hv')] at huv
      exact h.tid_inj u hu' v hv' huv
    · rw [hv', hother u (hne u hu'), hnew] at huv
      have := (h.live_tid u hu').2
      simp only [newTask] at huv
      omega
    · rw [hu', hother v (hne v hv'), hnew] at huv
      have := (h.live_tid v hv').2
      simp only [newTask] at huv
      omega
    · rw [hu', hv']
  · simp only [AbsKernel.addTask]
    omega
  · have := h.blocks
    simp only [AbsKernel.addTask, usedBlocks_alloc hb]
    omega
  · rcases (hmem u).mp hu with hu | rfl
    · rw [hother u (hne u hu)]
      exact h.block u hu
    · rw [hnew]
      simp [newTask]
  · by_cases hut : u = t
    · subst hut
      rw [hnew] at hu
      simp [newTask, taskInit] at hu
    · rw [hother u hut] at hu
      exact h.running u hu
  · by_cases hut : u = t
    · subst hut
      rw [hnew]
      exact i32Clamp_range priority
    · rw [hother u hut]
      exact h.prio u
  · by_cases hut : u = t
    · subst hut
      rw [hnew]
      exact Queue.Ring.init _
    · rw [hother u hut]
      exact h.ring u

theorem removed (h : a.WellFormed) (hc : a.currentTask = some c) (live : c ∈ a.jobq)
    (block : BlockPtr) : (a.removed img c block).WellFormed := by
  have hother : ∀ u, u ≠ c → (a.removed img c block).task u = a.task u :=
    fun u hu => by simp [AbsKernel.removed, hu]
  have hself : (a.removed img c block).task c = taskInit (a.task c) := by
    simp [AbsKernel.removed]
  have hmem : ∀ u, u ∈ (a.removed img c block).jobq ↔ u ≠ c ∧ u ∈ a.jobq :=
    fun u => h.jobq_nodup.mem_erase_iff
  refine ⟨h.jobq_nodup.erase c, h.free_nodup, fun u hu hin => ?_, h.ready_free, h.irq_free,
    fun u hu => ?_, fun u hu => ?_, fun u hu => ?_, fun u hu v hv huv => ?_, h.count, ?_,
    fun u hu => ?_, fun u hu => ?_, fun u => ?_, fun u => ?_⟩
  · exact h.free_jobq u hu ((hmem u).mp hin).2
  · simp [AbsKernel.removed] at hu
  · by_cases huc : u = c
    · subst huc
      rw [hself]
      rfl
    · rw [hother u huc]
      exact h.dead_tid u fun hin => hu ((hmem u).mpr ⟨huc, hin⟩)
  · obtain ⟨huc, hu⟩ := (hmem u).mp hu
    rw [hother u huc]
    exact h.live_tid u hu
  · obtain ⟨huc, hu⟩ := (hmem u).mp hu
    obtain ⟨hvc, hv⟩ := (hmem v).mp hv
    rw [hother u huc, hother v hvc] at huv
    exact h.tid_inj u hu v hv huv
  · have h₁ := h.blocks
    have h₂ := usedBlocks_free a.memoryBlocksUsed block
    simp only [AbsKernel.removed]
    omega
  · obtain ⟨huc, hu⟩ := (hmem u).mp hu
    rw [hother u huc]
    exact h.block u hu
  · by_cases huc : u = c
    · subst huc
      rw [hself] at hu
      simp [taskInit] at hu
    · rw [hother u huc] at hu
      have := h.running u hu
      rw [hc] at this
      exact absurd (Option.some.inj this).symm huc
  · by_cases huc : u = c
    · subst huc
      rw [hself]
      simp [Task.PrioOk, taskInit]
    · rw [hother u huc]
      exact h.prio u
  · by_cases huc : u = c
    · subst huc
      rw [hself]
      exact Queue.Ring.init _
    · rw [hother u huc]
      exact h.ring u

/-! ### The two halves of an iteration -/

theorem requeue {a₁ : AbsKernel} (h : a.WellFormed) (hr : Requeue a a₁) :
    a₁.WellFormed ∧ ∀ t, (a₁.task t).state ≠ .running := by
  cases hr with
  | @running c current state push =>
    refine ⟨h.makeReady (h.current_free c current), fun t => ?_⟩
    by_cases ht : t = c
    · subst ht
      simp [AbsKernel.setState]
    · intro hrun
      have hrun' : (a.task t).state = .running := by
        simpa [AbsKernel.setState, ht] using hrun
      have := h.running t hrun'
      rw [current] at this
      exact ht (Option.some.inj this).symm
  | @blocked c current state =>
    refine ⟨h, fun t hrun => ?_⟩
    obtain rfl : c = t := Option.some.inj (current.symm.trans (h.running t hrun))
    simp [hrun, TaskState.beforeReady] at state
  | gone current =>
    refine ⟨h, fun t hrun => ?_⟩
    have := h.running t hrun
    rw [current] at this
    cases this

theorem dispatch {rq : Fin taskPriorityMax → List TaskPtr} (h : a.WellFormed)
    (hrun : ∀ t, (a.task t).state ≠ .running) (pop : popHighest a.readyq = some (c, rq)) :
    (a.dispatch c rq trap).WellFormed := by
  obtain ⟨⟨p, hp⟩, hsub⟩ := mem_of_popHighest pop
  have hsame : ∀ t, ((a.dispatch c rq trap).task t).tid = (a.task t).tid ∧
      ((a.dispatch c rq trap).task t).memoryBlock = (a.task t).memoryBlock ∧
      ((a.dispatch c rq trap).task t).priority = (a.task t).priority ∧
      ((a.dispatch c rq trap).task t).senders = (a.task t).senders := fun t => by
    by_cases ht : t = c
    · subst ht
      simp [AbsKernel.dispatch, saveContext]
    · simp [AbsKernel.dispatch, ht]
  refine ⟨h.jobq_nodup, h.free_nodup, h.free_jobq, fun q t ht => h.ready_free q t (hsub q t ht),
    h.irq_free, fun t ht => ?_, fun t ht => ?_, fun t ht => ?_, fun t ht u hu htu => ?_,
    h.count, h.blocks, fun t ht => ?_, fun t ht => ?_, fun t => ?_, fun t => ?_⟩
  · obtain rfl : c = t := by simpa [AbsKernel.dispatch] using ht
    exact h.ready_free p c hp
  · rw [(hsame t).1]
    exact h.dead_tid t ht
  · rw [(hsame t).1]
    exact h.live_tid t ht
  · rw [(hsame t).1, (hsame u).1] at htu
    exact h.tid_inj t ht u hu htu
  · rw [(hsame t).2.1]
    exact h.block t ht
  · by_cases htc : t = c
    · subst htc
      rfl
    · have : (a.task t).state = .running := by simpa [AbsKernel.dispatch, htc] using ht
      exact absurd this (hrun t)
  · simpa [Task.PrioOk, (hsame t).2.2.1] using h.prio t
  · rw [(hsame t).2.2.2]
    exact h.ring t

/-- **From the loop head to the handler**: the state stays well formed, and `c` is the current,
running task with the context of the trap. -/
theorem enters {m : AbsKernel} (h : a.WellFormed) (he : Enters a trap c m) : m.WellFormed := by
  cases he with
  | intro hr pop state =>
    obtain ⟨h₁, hrun⟩ := h.requeue hr
    exact h₁.dispatch hrun pop

/-- **Every outcome of a handler** leaves a well-formed state. -/
theorem effect {a' : AbsKernel} (h : a.WellFormed) (hc : a.currentTask = some c)
    (he : Effect img a c trap a') : a'.WellFormed := by
  cases he with
  | ignored => exact h
  | yielded => exact h
  | toldTid => exact h.assign c _
  | toldParentTid => exact h.assign c _
  | @created t free block used call hfree alloc room push =>
    have hnd := h.free_nodup
    rw [hfree, List.nodup_cons] at hnd
    exact ((h.addTask hfree alloc).makeReady hnd.1).assign c _
  | createFailed => exact h.assign c _
  | exited call live hblock => exact h.removed hc live _
  | sendNoTask => exact h.assign c _
  | @sendDirect r call lookup state push =>
    exact (((h.setMem (a.delivered c r)).assign r (a.deliveredLen c r)).makeReady
      (h.not_free (mem_of_lookup lookup))).setState c (s := .watireply) (by decide)
  | @sendQueued r call lookup state room =>
    exact (h.modify r (Keeps.registerSender (a.task r) (a.task c).tid)).setState c
      (s := .watisend) (by decide)
  | sendFull => exact h.assign c _
  | receiveBlocked => exact h.setState c (s := .waitreceive) (by decide)
  | receiveVanished => exact (h.modify c (Keeps.nextSender (a.task c))).assign c _
  | @received s =>
    exact (((h.modify c (Keeps.nextSender (a.task c))).setMem _).assign c _).setState s
      (s := .watireply) (by decide)
  | replyNoTask => exact h.assign c _
  | @replied s call lookup state push =>
    exact (((h.setMem (a.repliedMem c s)).assign s (a.repliedLen c s)).makeReady
      (h.not_free (mem_of_lookup lookup))).assign c _
  | @repliedRunning s => exact ((h.setMem _).assign s _).assign c _
  | @awaited i call valid prio room =>
    refine (h.setState c (s := .awatievent) (by decide)).setIrqq fun j p t ht => ?_
    by_cases hj : j = i
    · subst hj
      rw [Function.update_self, mem_pushAt] at ht
      rcases ht with ht | ⟨-, rfl⟩
      · exact h.irq_free j p t ht
      · exact h.current_free t hc
    · rw [Function.update_of_ne hj] at ht
      exact h.irq_free j p t ht
  | tickIdle => exact h.setClocks _
  | @tickWoke chi clo clocks t q cause tick pop state push =>
    obtain ⟨⟨p, hp⟩, hsub⟩ := mem_of_popHighest pop
    refine ((h.setClocks clocks).setIrqq fun j p u hu => ?_).makeReady (h.irq_free timer1 p t hp)
    by_cases hj : j = timer1
    · subst hj
      rw [Function.update_self] at hu
      exact h.irq_free timer1 p u (hsub p u hu)
    · rw [Function.update_of_ne hj] at hu
      exact h.irq_free j p u hu

end WellFormed

end AbsKernel

end RealtimeKernel
