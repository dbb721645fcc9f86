import RealtimeKernel.SenderRings

/-!
# The pool of task descriptors

`create_task` takes descriptors from the free list and nothing puts them back:
`remove_current_task` frees the memory block and the job node of the task that exits, but not its
descriptor.  Live tasks, free descriptors and exits therefore add up to the size of the pool, and
the free list holds all descriptors that are not live just as long as no task has exited.
-/

namespace RealtimeKernel

open Lib

/-- The number of Exits in a history. -/
def exits {σ : Type} (h : List (Iter σ Trap)) : ℕ :=
  (h.map Iter.input).countP fun trap => trap.syscall = some .exit

theorem exits_eq_zero {σ : Type} {h : List (Iter σ Trap)} :
    exits h = 0 ↔ ∀ i ∈ h, i.input.syscall ≠ some .exit := by
  simp [exits, List.countP_eq_zero]

namespace AbsKernel

variable {a a' m : AbsKernel} {img : Image} {c : TaskPtr} {trap : Trap}

/-! ### Free descriptors are left alone -/

theorem Requeue.task_free {a₁ : AbsKernel} (hr : Requeue a a₁) (h : a.WellFormed) :
    a₁.free = a.free ∧ a₁.jobq = a.jobq ∧ a₁.taskIdCnt = a.taskIdCnt ∧
      ∀ t ∈ a.free, a₁.task t = a.task t := by
  cases hr with
  | @running c current state push =>
    refine ⟨rfl, rfl, rfl, fun t ht => ?_⟩
    have htc : t ≠ c := fun he => h.current_free c current (he ▸ ht)
    simp [setState, htc]
  | blocked => exact ⟨rfl, rfl, rfl, fun _ _ => rfl⟩
  | gone => exact ⟨rfl, rfl, rfl, fun _ _ => rfl⟩

theorem Enters.task_free (he : Enters a trap c m) (h : a.WellFormed) :
    m.free = a.free ∧ m.jobq = a.jobq ∧ m.taskIdCnt = a.taskIdCnt ∧
      ∀ t ∈ a.free, m.task t = a.task t := by
  cases he with
  | @intro a₁ rq hr pop state =>
    obtain ⟨hfree, hjobq, hcnt, htask⟩ := hr.task_free h
    refine ⟨hfree, hjobq, hcnt, fun t ht => ?_⟩
    obtain ⟨⟨p, hp⟩, -⟩ := mem_of_popHighest pop
    have htc : t ≠ c := fun he =>
      (h.requeue hr).1.ready_free p c hp (hfree ▸ he ▸ ht)
    rw [← htask t ht]
    simp [dispatch, htc]

theorem Effect.task_free (he : Effect img a c trap a') (h : a.WellFormed)
    (hc : a.currentTask = some c) : ∀ t ∈ a'.free, t ∈ a.free ∧ a'.task t = a.task t := by
  have hcur : ∀ t ∈ a.free, t ≠ c := fun t ht he => h.current_free c hc (he ▸ ht)
  have hlive : ∀ t ∈ a.free, ∀ tid s, a.getTaskByTid tid = some s → t ≠ s :=
    fun t ht tid s hl he => h.free_jobq t ht (he ▸ WellFormed.mem_of_lookup hl)
  intro t ht
  cases he with
  | ignored => exact ⟨ht, rfl⟩
  | yielded => exact ⟨ht, rfl⟩
  | toldTid => exact ⟨ht, by simp [assign, hcur t ht]⟩
  | toldParentTid => exact ⟨ht, by simp [assign, hcur t ht]⟩
  | @created u free block used call hfree alloc room push =>
    have ht' : t ∈ free := ht
    have hin : t ∈ a.free := by simp [hfree, ht']
    have hnd := h.free_nodup
    rw [hfree, List.nodup_cons] at hnd
    have htu : t ≠ u := fun he => hnd.1 (he ▸ ht')
    exact ⟨hin, by simp [assign, setState, addTask, hcur t hin, htu]⟩
  | createFailed => exact ⟨ht, by simp [assign, hcur t ht]⟩
  | exited => exact ⟨ht, by simp [removed, hcur t ht]⟩
  | sendNoTask => exact ⟨ht, by simp [assign, hcur t ht]⟩
  | @sendDirect r call lookup =>
    exact ⟨ht, by simp [assign, setState, hcur t ht, hlive t ht _ r lookup]⟩
  | @sendQueued r call lookup =>
    exact ⟨ht, by simp [setState, hcur t ht, hlive t ht _ r lookup]⟩
  | sendFull => exact ⟨ht, by simp [assign, hcur t ht]⟩
  | receiveBlocked => exact ⟨ht, by simp [setState, hcur t ht]⟩
  | receiveVanished => exact ⟨ht, by simp [assign, hcur t ht]⟩
  | @received s call nonempty lookup =>
    exact ⟨ht, by simp [assign, setState, hcur t ht, hlive t ht _ s lookup]⟩
  | replyNoTask => exact ⟨ht, by simp [assign, hcur t ht]⟩
  | @replied s call lookup =>
    exact ⟨ht, by simp [assign, setState, hcur t ht, hlive t ht _ s lookup]⟩
  | @repliedRunning s call lookup =>
    exact ⟨ht, by simp [assign, hcur t ht, hlive t ht _ s lookup]⟩
  | awaited => exact ⟨ht, by simp [setState, hcur t ht]⟩
  | tickIdle => exact ⟨ht, rfl⟩
  | @tickWoke chi clo clocks u q cause tick pop =>
    obtain ⟨⟨p, hp⟩, -⟩ := mem_of_popHighest pop
    have htu : t ≠ u := fun he => h.irq_free timer1 p u hp (he ▸ ht)
    exact ⟨ht, by simp [setState, htu]⟩

/-- What a handler does to the live tasks, the free list and the counter of tids. -/
inductive Turnover (a : AbsKernel) (c : TaskPtr) (trap : Trap) (a' : AbsKernel) : Prop
  | exited (call : trap.syscall = some .exit) (live : c ∈ a.jobq) (jobq : a'.jobq = a.jobq.erase c)
      (free : a'.free = a.free) (count : a'.taskIdCnt = a.taskIdCnt)
  /-- The caller is told the tid of the new task. -/
  | created {t : TaskPtr} (call : trap.syscall = some .create) (jobq : a'.jobq = a.jobq ++ [t])
      (free : a.free = t :: a'.free) (count : a'.taskIdCnt = a.taskIdCnt + 1)
      (tid : (a'.task t).tid = a.taskIdCnt) (told : (a'.task c).result = ofInt a.taskIdCnt)
  | kept (call : trap.syscall ≠ some .exit) (jobq : a'.jobq = a.jobq) (free : a'.free = a.free)
      (count : a'.taskIdCnt = a.taskIdCnt)
      (told : trap.syscall = some .create → (a'.task c).result = ofInt (-1))

theorem Turnover.of_call {p : Syscall} (call : trap.syscall = some p)
    (hp : p ≠ .exit ∧ p ≠ .create) (jobq : a'.jobq = a.jobq) (free : a'.free = a.free)
    (count : a'.taskIdCnt = a.taskIdCnt) : Turnover a c trap a' := by
  refine .kept ?_ jobq free count fun hc => ?_
  · rw [call]
    exact fun he => hp.1 (Option.some.inj he)
  · exact absurd (Option.some.inj (call.symm.trans hc)) hp.2

theorem Turnover.of_none (call : trap.syscall = none) (jobq : a'.jobq = a.jobq)
    (free : a'.free = a.free) (count : a'.taskIdCnt = a.taskIdCnt) : Turnover a c trap a' :=
  .kept (by simp [call]) jobq free count fun hc => by simp [call] at hc

/-- Only Create and Exit change the live tasks. -/
theorem Effect.turnover (he : Effect img a c trap a') : Turnover a c trap a' := by
  have hirq : ∀ {chi clo}, trap.cause = .irq waitTimer1 chi clo → trap.syscall = none :=
    fun hcause => by simp [Trap.syscall, hcause]
  cases he with
  | exited call live => exact .exited call live rfl rfl rfl
  | @created t free block used call hfree =>
    refine .created (t := t) call rfl hfree rfl ?_ ?_
    · simp [setState, addTask, newTask]
    · simp [assign, assignResult]
  | createFailed call =>
    exact .kept (by simp [call]) rfl rfl rfl fun _ => by simp [assign, assignResult]
  | ignored cause cls => exact .of_none (by simp [Trap.syscall, cause, cls]) rfl rfl rfl
  | tickIdle cause => exact .of_none (hirq cause) rfl rfl rfl
  | tickWoke cause => exact .of_none (hirq cause) rfl rfl rfl
  | yielded call => exact .of_call call (by decide) rfl rfl rfl
  | toldTid call => exact .of_call call (by decide) rfl rfl rfl
  | toldParentTid call => exact .of_call call (by decide) rfl rfl rfl
  | sendNoTask call => exact .of_call call (by decide) rfl rfl rfl
  | sendDirect call => exact .of_call call (by decide) rfl rfl rfl
  | sendQueued call => exact .of_call call (by decide) rfl rfl rfl
  | sendFull call => exact .of_call call (by decide) rfl rfl rfl
  | receiveBlocked call => exact .of_call call (by decide) rfl rfl rfl
  | receiveVanished call => exact .of_call call (by decide) rfl rfl rfl
  | received call => exact .of_call call (by decide) rfl rfl rfl
  | replyNoTask call => exact .of_call call (by decide) rfl rfl rfl
  | replied call => exact .of_call call (by decide) rfl rfl rfl
  | repliedRunning call => exact .of_call call (by decide) rfl rfl rfl
  | awaited call => exact .of_call call (by decide) rfl rfl rfl

/-! ### Conservation -/

/-- The free descriptors were never used, and every tid that was handed out belongs to a live
task or to one of the tasks that have exited. -/
structure Conserved (h : List (Iter AbsKernel Trap)) (a : AbsKernel) : Prop where
  wellFormed : a.WellFormed
  unused : ∀ t ∈ a.free, (a.task t).state = .initialized
  count : a.taskIdCnt = a.jobq.length + exits h

theorem Conserved.enters {h : List (Iter AbsKernel Trap)} (hc : Conserved h a)
    (he : Enters a trap c m) : Conserved h m := by
  obtain ⟨hfree, hjobq, hcnt, htask⟩ := he.task_free hc.wellFormed
  refine ⟨hc.wellFormed.enters he, fun t ht => ?_, by rw [hcnt, hjobq, hc.count]⟩
  rw [hfree] at ht
  rw [htask t ht]
  exact hc.unused t ht

theorem Conserved.effect {h : List (Iter AbsKernel Trap)} (hm : Conserved h m)
    (hc : m.currentTask = some c) (he : Effect img m c trap a') :
    Conserved (h ++ [⟨a, trap, m, a'⟩]) a' := by
  refine ⟨hm.wellFormed.effect hc he, fun t ht => ?_, ?_⟩
  · obtain ⟨htm, heq⟩ := he.task_free hm.wellFormed hc t ht
    rw [heq]
    exact hm.unused t htm
  · have hcount := hm.count
    have hexits : exits (h ++ [⟨a, trap, m, a'⟩])
        = exits h + if trap.syscall = some .exit then 1 else 0 := by
      simp [exits, List.countP_append, List.countP_singleton]
    rw [hexits]
    cases he.turnover with
    | exited call live jobq free count =>
      have hpos := List.length_pos_of_mem live
      rw [if_pos call, jobq, count, List.length_erase_of_mem live]
      omega
    | created call jobq free count =>
      rw [if_neg (by simp [call]), jobq, count, List.length_append, List.length_singleton]
      omega
    | kept call jobq free count =>
      rw [if_neg call, jobq, count]
      omega

/-- Descriptors that are live or free, each once, are all of them when there are 64. -/
theorem WellFormed.covers_iff (h : a.WellFormed) :
    (∀ t, t ∈ a.free ↔ t ∉ a.jobq) ↔ a.jobq.length + a.free.length = maxTaskNum := by
  have hnd : (a.jobq ++ a.free).Nodup :=
    List.nodup_append.mpr ⟨h.jobq_nodup, h.free_nodup, fun t ht u hu htu =>
      h.free_jobq u hu (htu ▸ ht)⟩
  have hcard := List.toFinset_card_of_nodup hnd
  rw [List.length_append] at hcard
  constructor
  · intro hall
    have huniv : (a.jobq ++ a.free).toFinset = Finset.univ := by
      ext t
      have := hall t
      simp only [List.mem_toFinset, List.mem_append, Finset.mem_univ, iff_true]
      tauto
    rw [← hcard, huniv, Finset.card_univ, Fintype.card_fin]
  · intro hlen t
    refine ⟨fun ht hj => h.free_jobq t ht hj, fun ht => ?_⟩
    have huniv : (a.jobq ++ a.free).toFinset = Finset.univ := by
      refine Finset.eq_univ_of_card _ ?_
      rw [hcard, hlen, Fintype.card_fin]
    have hin : t ∈ (a.jobq ++ a.free).toFinset := by rw [huniv]; exact Finset.mem_univ t
    rw [List.mem_toFinset, List.mem_append] at hin
    exact hin.resolve_left ht

theorem Reaches.conserved {b : Boot} {h : List (Iter AbsKernel Trap)} (r : Reaches b h a) :
    Conserved h a := by
  obtain ⟨a₀, ha₀, hrun⟩ := r
  obtain ⟨a₁, ha₁, ho, hfresh⟩ := boot_ok b
  obtain rfl : a₀ = a₁ := Except.ok.inj (ha₀.symm.trans ha₁)
  refine hrun.history (I := Conserved) (P := fun _ => True)
    ⟨ho.toWellFormed, fun t ht => ho.dead t (ho.free_jobq t ht), ?_⟩ (fun _ _ => trivial) ?_
  · have hall := ho.covers_iff.mp fun t =>
      ⟨fun ht hj => ho.free_jobq t ht hj, fun ht => (hfresh.taken t).resolve_right ht⟩
    have hcount := ho.count
    simp only [exits, List.map_nil, List.countP_nil]
    omega
  · intro h s trap m s' _ _ hs _ hm hs'
    obtain ⟨c, hst⟩ := step_of_body b.img hm hs'
    exact (hs.enters hst.enters).effect hst.enters.current.1 hst.effect

/-- **The free list misses one descriptor for each Exit.** -/
theorem Conserved.total {h : List (Iter AbsKernel Trap)} (hc : Conserved h a) :
    a.jobq.length + a.free.length + exits h = maxTaskNum := by
  have h₁ := hc.count
  have h₂ := hc.wellFormed.count
  omega

theorem Conserved.covers_iff {h : List (Iter AbsKernel Trap)} (hc : Conserved h a) :
    (∀ t, t ∈ a.free ↔ t ∉ a.jobq) ↔ exits h = 0 := by
  rw [hc.wellFormed.covers_iff]
  have := hc.total
  omega

/-- `create_task` returns a task just when there is a free descriptor and room on the ready
queue; the block and the job node are there. -/
theorem Conserved.createTask_iff {h : List (Iter AbsKernel Trap)} (hc : Conserved h a)
    (img : Image) {priority parentTid : ℤ} {func : U64} :
    (∃ t a', a.createTask img priority func parentTid = .ok (some t, a')) ↔
      a.free ≠ [] ∧ entries a.readyq < maxTaskNum := by
  constructor
  · rintro ⟨t, a', h⟩
    rcases createTask_eq_ok.mp h with ⟨-, ho, -⟩ |
      ⟨u, free, block, used, hfree, -, -, hpush, -, -⟩
    · cases ho
    · exact ⟨by simp [hfree], hpush.room⟩
  · rintro ⟨hne, hroom⟩
    obtain ⟨t, free, hfree⟩ := List.exists_cons_of_ne_nil hne
    obtain ⟨⟨block, used, alloc⟩, room⟩ := hc.wellFormed.create_resources hne
    refine ⟨t, _, createTask_eq_ok.mpr (Or.inr ⟨t, free, block, used, hfree, alloc, room,
      ⟨?_, (hc.wellFormed.addTask hfree alloc).prio t, hroom⟩, rfl, rfl⟩)⟩
    simp [addTask, newTask, taskInit]

/-- `sys_create` gives the caller a tid just when `create_task` returns a task. -/
theorem Conserved.sysCreate_iff {h : List (Iter AbsKernel Trap)} (hc : Conserved h a)
    (hcur : a.currentTask = some c) (hrun : (a.task c).state = .running)
    (call : trap.syscall = some .create) :
    (∃ a', a.handleCurrentException img trap = .ok a' ∧ 0 ≤ toInt32 (a'.task c).result) ↔
      ∃ t a', a.createTask img (toInt32 ((a.task c).x 0)) ((a.task c).x 1) (a.task c).tid
        = .ok (some t, a') := by
  constructor
  · rintro ⟨a', ha', hres⟩
    rw [handle_syscall call] at ha'
    have he := sysCreate_effect hcur call ha'
    simp only [synchronousExceptionHandlers, sysCreate, hcur, deref, ok_bind, bind_eq_ok] at ha'
    obtain ⟨⟨o, a₁⟩, h₁, h₂⟩ := ha'
    cases o with
    | some t => exact ⟨t, a₁, h₁⟩
    | none =>
      cases h₂
      simp [assignResult, toInt32_ofInt] at hres
  · rintro ⟨t, a₁, h₁⟩
    rcases createTask_eq_ok.mp h₁ with ⟨-, ho, -⟩ |
      ⟨u, free, block, used, hfree, alloc, room, push, -, rfl⟩
    · cases ho
    · refine ⟨_, effect_handle hcur hrun (.created call hfree alloc room push), ?_⟩
      have hcnt := hc.count
      have htotal := hc.wellFormed.count
      rw [assign, modify_task, Function.update_self]
      simp only [assignResult]
      simp only [maxTaskNum] at htotal
      rw [toInt32_ofInt] <;> omega

end AbsKernel

/-- The free list holds the descriptors that are not live, each once. -/
structure Recycled (k : Kernel) : Prop where
  nodup : k.freeTasks.Nodup
  mem : ∀ t, t ∈ k.freeTasks ↔ t ∉ k.live

/-- The Create of the current task `c` yields a task, and a tid for the caller, just when fewer
than `TASK_POOL_SIZE` tasks are live. -/
structure CreateOk (img : Image) (m : Kernel) (trap : Trap) (c : TaskPtr) : Prop where
  task : (∃ t m', createTask img m (toInt32 ((m.task c).x 0)) ((m.task c).x 1) (m.task c).tid
    = .ok (some t, m')) ↔ m.live.length < taskPoolSize
  tid : (∃ k', handleCurrentException img m trap = .ok k' ∧ 0 ≤ toInt32 (k'.task c).result) ↔
    m.live.length < taskPoolSize

/-- The nodes of the ready queue's pool are in use or available. -/
theorem Rep.ready_size {k : Kernel} {a : AbsKernel} (h : Rep k a) :
    k.readyqPool.size + entries a.readyq = maxTaskNum := by
  rw [← entries_cells_unit]
  exact h.ready.holds.size_add_entries

theorem Rep.createOk_iff {k : Kernel} {a : AbsKernel} {h : List (Iter AbsKernel Trap)}
    {img : Image} {trap : Trap} {c : TaskPtr} (hka : Rep k a) (hcons : AbsKernel.Conserved h a)
    (hcur : k.currentTask = some c) (hrun : (a.task c).state = .running)
    (call : trap.syscall = some .create) :
    CreateOk img k trap c ↔
      ((a.free ≠ [] ∧ entries a.readyq < maxTaskNum) ↔ a.jobq.length < taskPoolSize) := by
  have hx : (a.task c).x = (k.task c).x := hka.x_eq c
  have htid : (a.task c).tid = (k.task c).tid := hka.tid_eq c
  have htask : (∃ t m', RealtimeKernel.createTask img k (toInt32 ((k.task c).x 0)) ((k.task c).x 1)
      (k.task c).tid = .ok (some t, m')) ↔ (a.free ≠ [] ∧ entries a.readyq < maxTaskNum) := by
    have href := hka.createTask img (toInt32 ((k.task c).x 0)) ((k.task c).x 1) (k.task c).tid
    rw [← hcons.createTask_iff img]
    constructor
    · rintro ⟨t, m', hm'⟩
      obtain ⟨⟨o, a'⟩, ha', ho, -⟩ := href.ok_left hm'
      obtain rfl : some t = o := ho
      exact ⟨t, a', ha'⟩
    · rintro ⟨t, a', ha'⟩
      obtain ⟨⟨o, m'⟩, hm', ho, -⟩ := href.ok_right ha'
      obtain rfl : o = some t := ho
      exact ⟨t, m', hm'⟩
  have hcall : (∃ k', RealtimeKernel.handleCurrentException img k trap = .ok k' ∧
      0 ≤ toInt32 (k'.task c).result) ↔ (a.free ≠ [] ∧ entries a.readyq < maxTaskNum) := by
    have href := hka.handleCurrentException img trap
    have hacur : a.currentTask = some c := by rw [hka.currentTask_eq, hcur]
    have hres : ∀ k' a', Rep k' a' → (a'.task c).result = (k'.task c).result := fun k' a' hr => by
      rw [hr.task_eq]
      rfl
    rw [← hcons.createTask_iff img, ← hcons.sysCreate_iff hacur hrun call]
    constructor
    · rintro ⟨k', hk', hpos⟩
      obtain ⟨a', ha', hr⟩ := href.ok_left hk'
      exact ⟨a', ha', by rw [hres k' a' hr]; exact hpos⟩
    · rintro ⟨a', ha', hpos⟩
      obtain ⟨k', hk', hr⟩ := href.ok_right ha'
      exact ⟨k', hk', by rw [← hres k' a' hr]; exact hpos⟩
  constructor
  · rintro ⟨h₁, -⟩
    rw [← htask, h₁, hka.live_eq]
  · intro hiff
    rw [← hka.live_eq] at hiff
    exact ⟨htask.trans hiff, hcall.trans hiff⟩

/-- **Descriptors are recycled until the first Exit.**  Each Exit costs the free list one
descriptor.  A Create gets its due while fewer than 64 tasks have been created and the ready queue
has a node left, and once 64 have been created, just when none of them has exited. -/
theorem descriptor_pool (b : Boot) (h : List (Iter Kernel Trap)) (k : Kernel)
    (r : b.Reaches h k) :
    k.live.length + k.freeTasks.length + exits h = taskPoolSize ∧
    (Recycled k ↔ ∀ i ∈ h, i.input.syscall ≠ some .exit) ∧
    ∀ trap m c, enterTrap k trap = .ok m → m.currentTask = some c →
      trap.syscall = some .create →
      ((∀ i ∈ h, i.mid.ReplyOk i.input) → 0 < m.readyqPool.size) ∧
      (CreateOk b.img m trap c ↔ if m.taskIdCnt < taskPoolSize then 0 < m.readyqPool.size
        else ∀ i ∈ h, i.input.syscall ≠ some .exit) := by
  obtain ⟨h', a, r', hka, hh⟩ := r.abs
  have hcons := r'.conserved
  have hexits : exits h' = exits h := by
    unfold exits
    rw [Loop.map_input_eq hh]
  rw [← exits_eq_zero, ← hexits, hka.live_eq, hka.freeTasks_eq]
  refine ⟨hcons.total, ?_, fun trap m c hm hcur call => ?_⟩
  · rw [← hcons.covers_iff]
    constructor
    · intro hrec t
      rw [← hka.freeTasks_eq, ← hka.live_eq]
      exact hrec.mem t
    · intro hall
      refine ⟨by rw [hka.freeTasks_eq]; exact hka.free_nodup, fun t => ?_⟩
      rw [hka.freeTasks_eq, hka.live_eq]
      exact hall t
  · obtain ⟨m', hm', hrep⟩ := (hka.enterTrap trap).ok_left hm
    obtain ⟨c', hent⟩ := AbsKernel.enterTrap_enters.mp hm'
    obtain ⟨hc, hrun, -⟩ := hent.current
    obtain rfl : c = c' := by
      rw [hrep.currentTask_eq, hcur] at hc
      exact Option.some.inj hc
    have hmid := hcons.enters hent
    refine ⟨fun hok => ?_, ?_⟩
    · have ho := (r'.orderly (Loop.forall_of_forall₂ hh hok fun i j hij hi =>
        hij.input ▸ hij.mid.replyOk hi)).enters hent
      have := ho.toConsistent.ready_room (t := c) (by rw [hrun]; decide)
      have := hrep.ready_size
      omega
    · rw [hrep.createOk_iff hmid hcur hrun call]
      have htotal := hmid.total
      have hcount := hmid.wellFormed.count
      have hsize := hrep.ready_size
      have hcnt : m'.taskIdCnt = m.taskIdCnt := by
        rw [hrep.core]
        rfl
      simp only [taskPoolSize, maxTaskNum] at htotal hcount hsize ⊢
      by_cases hlt : m.taskIdCnt < (64 : ℕ)
      · have hfree : m'.free ≠ [] := by
          intro hnil
          rw [hnil, List.length_nil] at hcount
          omega
        have hpos := List.length_pos_of_ne_nil hfree
        rw [if_pos hlt]
        have hlive : m'.jobq.length < 64 := by omega
        simp only [hfree, hlive, ne_eq, not_false_eq_true, true_and, iff_true]
        omega
      · have hfree : m'.free = [] := by
          rw [← List.length_eq_zero_iff]
          omega
        rw [if_neg hlt]
        simp only [hfree, ne_eq, not_true_eq_false, false_and, false_iff]
        rw [hfree, List.length_nil] at htotal
        omega

/-- A run in which a Create succeeds. -/
theorem descriptor_pool_run : ∃ hist k, zeroBoot.Reaches hist k ∧ k.live.length = 3 ∧
    Recycled k := by
  obtain ⟨hist, k, r, -, hk⟩ := Boot.reaches_of_check zeroBoot
    [svc 1 [7, 0]]
    (fun h k => decide (k.live.length = 3 ∧ ∀ i ∈ h, i.input.syscall ≠ some .exit))
    (by decide +kernel)
  obtain ⟨hlive, hno⟩ := of_decide_eq_true hk
  exact ⟨hist, k, r, hlive, (descriptor_pool zeroBoot hist k r).2.1.mpr hno⟩

/-- After 62 Creates and an Exit of the task that made them, the idle task is refused a task
although only 63 are live. -/
theorem descriptor_pool_leak :
    ∃ hist k m, zeroBoot.Reaches hist k ∧ ¬ Recycled k ∧ enterTrap k (svc 1 [0]) = .ok m ∧
      m.currentTask = some 1 ∧ m.live.length = 63 ∧
      ¬ CreateOk zeroBoot.img m (svc 1 [0]) 1 := by
  obtain ⟨hist, k, r, -, hk⟩ := Boot.reaches_of_check zeroBoot
    (List.replicate 62 (svc 1 [0]) ++ [svc 3 []])
    (fun _ k => decide (0 ∉ k.freeTasks ∧ 0 ∉ k.live) &&
      returns (enterTrap k (svc 1 [0])) fun m =>
        decide (m.currentTask = some 1 ∧ m.live.length = 63) &&
        returns (handleCurrentException zeroBoot.img m (svc 1 [0])) fun k' =>
          decide (toInt32 (k'.task 1).result < 0)) (by decide +kernel)
  obtain ⟨hfree, hrest⟩ := Bool.and_eq_true_iff.mp hk
  obtain ⟨hnot, hdead⟩ := of_decide_eq_true hfree
  obtain ⟨m, hm, hrest⟩ := returns_iff.mp hrest
  obtain ⟨hcur, hrest⟩ := Bool.and_eq_true_iff.mp hrest
  obtain ⟨hcur, hlive⟩ := of_decide_eq_true hcur
  refine ⟨hist, k, m, r, fun hrec => hnot ((hrec.mem 0).mpr hdead), hm, hcur, hlive,
    fun hok => ?_⟩
  obtain ⟨k', hk', hpos⟩ := hok.tid.mpr (by rw [hlive]; decide)
  obtain ⟨_, hk'', hneg⟩ := returns_iff.mp hrest
  rw [hk', Except.ok.injEq] at hk''
  subst hk''
  have := of_decide_eq_true hneg
  omega

end RealtimeKernel
