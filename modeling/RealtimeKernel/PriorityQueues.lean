import RealtimeKernel.Lib.StableQueues
import RealtimeKernel.TaskQueueSpec

/-!
# Priority queues on one pool are stable priority queues

Any number of `PriorityTaskQueue`s draw their nodes from one pool.  What they are for is a
family of stable priority queues, each a list of tasks with their priorities in the order in
which they were pushed; `StableRun` is a run of such a family.  The queues of `task_queue.c`
return the same tasks, whatever the order of pushes and pops.
-/

set_option linter.unusedSectionVars false

namespace RealtimeKernel

open Lib

variable {ι : Type} [Fintype ι] [DecidableEq ι]

/-- The queues and their pool. -/
structure SharedQueues (ι : Type) where
  pool : TaskNodePool
  queues : ι → PriorityTaskQueue

/-- The pool and the queues as `task_node_pool_init` and `ptask_queue_init` leave them. -/
def SharedQueues.init (pool : TaskNodePool) : SharedQueues ι where
  pool := taskNodePoolInit pool
  queues := fun _ => ptaskQueueInit

/-- `ptask_queue_push` with the priority of the task, or `ptask_queue_pop`. -/
inductive QueueOp (ι : Type)
  | push (i : ι) (task : TaskPtr) (priority : ℤ)
  | pop (i : ι)

/-- The queue an operation works on. -/
def QueueOp.queue : QueueOp ι → ι
  | .push i _ _ => i
  | .pop i => i

namespace SharedQueues

/-- One operation; a pop returns a pointer. -/
def step (s : SharedQueues ι) : QueueOp ι → Except Halt (Option (Option TaskPtr) × SharedQueues ι)
  | .push i task priority => do
    let (pool, pq) ← ptaskQueuePush s.pool (s.queues i) task priority
    .ok (none, { pool := pool, queues := Function.update s.queues i pq })
  | .pop i => do
    let (task, pool, pq) ← ptaskQueuePop s.pool (s.queues i)
    .ok (some task, { pool := pool, queues := Function.update s.queues i pq })

/-- Operations one after the other, with what they return. -/
def run (s : SharedQueues ι) :
    List (QueueOp ι) → Except Halt (List (Option (Option TaskPtr)) × SharedQueues ι)
  | [] => .ok ([], s)
  | op :: ops => do
    let (r, s) ← s.step op
    let (rs, s) ← s.run ops
    .ok (r :: rs, s)

/-- The tasks of one priority in a queue, from head to tail. -/
def contents (s : SharedQueues ι) (i : ι) (p : Fin taskPriorityMax) : List TaskPtr :=
  taskListTasks s.pool ((s.queues i).taskList p)

end SharedQueues

/-! ### The abstract queues -/

/-- A family of stable priority queues. -/
abbrev StableQueues (ι : Type) := ι → List (TaskPtr × Fin taskPriorityMax)

/-- The number of entries in all queues. -/
def StableQueues.total (q : StableQueues ι) : ℕ := ∑ i, (q i).length

/-- One operation on a family: a push in range while there is room, or a pop of a queue that is
not empty, with the task that is returned. -/
inductive StableStep (q : StableQueues ι) :
    QueueOp ι → Option (Option TaskPtr) → StableQueues ι → Prop
  | push (i : ι) (task : TaskPtr) {priority : ℤ}
      (range : taskPriorityMin ≤ priority ∧ priority < taskPriorityMax)
      (room : q.total < maxTaskNum) :
      StableStep q (.push i task priority) none (Function.update q i
        (q i ++ [(task, ⟨priority.toNat, toNat_lt_taskPriorityMax range⟩)]))
  | pop (i : ι) {e : TaskPtr × Fin taskPriorityMax} {q' : List (TaskPtr × Fin taskPriorityMax)}
      (leaves : Leaves (q i) e q') :
      StableStep q (.pop i) (some (some e.1)) (Function.update q i q')

/-- Operations on queues that are empty at first, with what they return. -/
inductive StableRun : List (QueueOp ι) → List (Option (Option TaskPtr)) → StableQueues ι → Prop
  | nil : StableRun [] [] fun _ => []
  | snoc {ops : List (QueueOp ι)} {rs : List (Option (Option TaskPtr))} {q q' : StableQueues ι}
      {op : QueueOp ι} {r : Option (Option TaskPtr)} :
      StableRun ops rs q → StableStep q op r q' → StableRun (ops ++ [op]) (rs ++ [r]) q'

/-! ### The simulation -/

/-- The queues hold these entries. -/
def SharedQueues.Represents (s : SharedQueues ι) (q : StableQueues ι) : Prop :=
  QueuesRep s.pool s.queues fun i => byPriority (q i)

theorem total_eq_entries (q : StableQueues ι) :
    entries (cells fun i => byPriority (q i)) = q.total := by
  unfold entries StableQueues.total
  rw [Fintype.sum_prod_type]
  refine Finset.sum_congr rfl fun i _ => ?_
  exact entries_byPriority (q i)

theorem byPriority_update (q : StableQueues ι) (i : ι) (l : List (TaskPtr × Fin taskPriorityMax)) :
    (fun j => byPriority (Function.update q i l j)) =
      Function.update (fun j => byPriority (q j)) i (byPriority l) := by
  funext j
  by_cases hj : j = i
  · subst hj
    simp
  · simp [hj]

namespace SharedQueues

variable {s : SharedQueues ι} {q q' : StableQueues ι}

theorem init_represents (pool : TaskNodePool) :
    (SharedQueues.init pool : SharedQueues ι).Represents fun _ => [] :=
  QueuesRep.init pool

/-- **One operation** returns what the stable queues return. -/
theorem Represents.step (h : s.Represents q) {op : QueueOp ι} {r : Option (Option TaskPtr)}
    (hstep : StableStep q op r q') : ∃ s', s.step op = .ok (r, s') ∧ s'.Represents q' := by
  cases hstep with
  | @push i task priority range room =>
    have hpush : pushQueues (fun j => byPriority (q j)) i task priority =
        .ok (Function.update (fun j => byPriority (q j)) i (pushAt (byPriority (q i))
          ⟨priority.toNat, toNat_lt_taskPriorityMax range⟩ task)) := by
      unfold pushQueues
      rw [dif_pos range, if_pos (by rw [total_eq_entries]; exact room)]
    have href := QueuesRep.push_refines h i task priority
    rw [hpush] at href
    obtain ⟨⟨pool, pq⟩, hok, hrep⟩ := href.ok_right rfl
    refine ⟨⟨pool, Function.update s.queues i pq⟩, ?_, ?_⟩
    · show (ptaskQueuePush s.pool (s.queues i) task priority >>= _) = _
      rw [hok]
      rfl
    · show QueuesRep _ _ fun j => byPriority _
      rw [byPriority_update, byPriority_push]
      exact hrep
  | @pop i e q' leaves =>
    have hpop : popQueues (fun j => byPriority (q j)) i =
        .ok (e.1, Function.update (fun j => byPriority (q j)) i (byPriority q')) := by
      unfold popQueues
      rw [leaves.popHighest]
    have href := QueuesRep.pop_refines h i
    rw [hpop] at href
    obtain ⟨⟨task, pool, pq⟩, hok, rfl, hrep⟩ := href.ok_right rfl
    refine ⟨⟨pool, Function.update s.queues i pq⟩, ?_, ?_⟩
    · show (ptaskQueuePop s.pool (s.queues i) >>= _) = _
      rw [hok]
      rfl
    · show QueuesRep _ _ fun j => byPriority _
      rw [byPriority_update]
      exact hrep

theorem run_append {s' : SharedQueues ι} {ops : List (QueueOp ι)} {op : QueueOp ι}
    {rs : List (Option (Option TaskPtr))} {r : Option (Option TaskPtr)} {s'' : SharedQueues ι}
    (h : s.run ops = .ok (rs, s')) (hstep : s'.step op = .ok (r, s'')) :
    s.run (ops ++ [op]) = .ok (rs ++ [r], s'') := by
  induction ops generalizing s rs with
  | nil =>
    cases h
    simp only [List.nil_append, run, hstep, ok_bind]
  | cons o ops ih =>
    obtain ⟨⟨r₁, s₁⟩, h₁, h⟩ := bind_eq_ok.mp h
    obtain ⟨⟨rs₂, s₂⟩, h₂, h⟩ := bind_eq_ok.mp h
    cases h
    show (s.step o >>= _) = _
    rw [h₁]
    show ((s₁.run (ops ++ [op])) >>= _) = _
    rw [ih h₂]
    rfl

theorem run_represents (pool : TaskNodePool) {ops : List (QueueOp ι)}
    {rs : List (Option (Option TaskPtr))} (hrun : StableRun ops rs q) :
    ∃ s, (SharedQueues.init pool).run ops = .ok (rs, s) ∧ s.Represents q := by
  induction hrun with
  | nil => exact ⟨_, rfl, init_represents pool⟩
  | snoc _ hstep ih =>
    obtain ⟨s, hs, hrep⟩ := ih
    obtain ⟨s', hs', hrep'⟩ := hrep.step hstep
    exact ⟨s', run_append hs hs', hrep'⟩

end SharedQueues

/-- An operation leaves the entries of the other queues alone. -/
theorem StableStep.frame {q q' : StableQueues ι} {op : QueueOp ι} {r : Option (Option TaskPtr)}
    (h : StableStep q op r q') {j : ι} (hj : j ≠ op.queue) : q' j = q j := by
  cases h with
  | push => exact Function.update_of_ne hj _ _
  | pop => exact Function.update_of_ne hj _ _

namespace SharedQueues

variable {s : SharedQueues ι} {q : StableQueues ι}

theorem Represents.contents_eq (h : s.Represents q) (i : ι) (p : Fin taskPriorityMax) :
    s.contents i p = byPriority (q i) p := QueuesRep.view_eq h i p

theorem Represents.size_eq (h : s.Represents q) (i : ι) : (s.queues i).size = (q i).length :=
  (QueuesRep.size_eq h i).trans (entries_byPriority (q i))

theorem Represents.size_eq_sum (h : s.Represents q) (i : ι) :
    (s.queues i).size = ∑ p, (s.contents i p).length := by
  rw [QueuesRep.size_eq h i]
  refine Finset.sum_congr rfl fun p _ => ?_
  rw [h.contents_eq]

theorem Represents.isEmpty_iff (h : s.Represents q) (i : ι) :
    ptaskQueueEmpty (s.queues i) = true ↔ q i = [] :=
  (QueuesRep.isEmpty_iff h i).trans byPriority_all_nil

end SharedQueues

/-- **Priority queues that share a pool are stable priority queues.**  Over every run of pushes
in range, while there is room, and of pops of queues that are not empty, no assertion fails and
every pop returns the earliest task of the highest priority, never `NULL`.  After it each list
holds the tasks of its priority in the order in which they were pushed, the counters are right,
and the next operation again returns what it should and leaves the other queues alone. -/
theorem priority_queues_refine (pool : TaskNodePool) (ops : List (QueueOp ι))
    (rs : List (Option (Option TaskPtr))) (q : StableQueues ι) (hrun : StableRun ops rs q) :
    ∃ s, (SharedQueues.init pool).run ops = .ok (rs, s) ∧
      (∀ i p, s.contents i p = byPriority (q i) p) ∧
      (∀ i, (s.queues i).size = ∑ p, (s.contents i p).length) ∧
      (∀ i, ptaskQueueEmpty (s.queues i) = true ↔ q i = []) ∧
      (∀ i, q i ≠ [] → ∃ e q', Leaves (q i) e q') ∧
      ∀ op r q', StableStep q op r q' → ∃ s', s.step op = .ok (r, s') ∧
        ∀ j, j ≠ op.queue → ∀ p, s'.contents j p = s.contents j p := by
  obtain ⟨s, hs, hrep⟩ := SharedQueues.run_represents pool hrun
  refine ⟨s, hs, hrep.contents_eq, hrep.size_eq_sum, hrep.isEmpty_iff, fun i => exists_leaves,
    fun op r q' hstep => ?_⟩
  obtain ⟨s', hs', hrep'⟩ := hrep.step hstep
  refine ⟨s', hs', fun j hj p => ?_⟩
  rw [hrep'.contents_eq, hrep.contents_eq, hstep.frame hj]

/-- Two queues: tasks of priorities 1, 3 and 3 on the first and one task on the second. -/
theorem priority_queues_refine_run : ∃ s : SharedQueues (Fin 2),
    (SharedQueues.init ⟨fun _ => 0, 0, fun _ => ⟨none, none, none⟩⟩).run
      [.push 0 1 1, .push 0 2 3, .push 1 7 0, .push 0 3 3, .pop 0] =
        .ok ([none, none, none, none, some (some 2)], s) ∧
    ptaskQueueEmpty (s.queues 1) = false := by
  have r₀ : StableRun [] [] fun _ : Fin 2 => [] := .nil
  have r₁ := r₀.snoc (.push 0 1 (show _ ∧ (1 : ℤ) < _ by decide) (by decide))
  have r₂ := r₁.snoc (.push 0 2 (show _ ∧ (3 : ℤ) < _ by decide) (by decide))
  have r₃ := r₂.snoc (.push 1 7 (show _ ∧ (0 : ℤ) < _ by decide) (by decide))
  have r₄ := r₃.snoc (.push 0 3 (show _ ∧ (3 : ℤ) < _ by decide) (by decide))
  have hpop : Leaves [(1, 1), (2, 3), (3, 3)] ((2, 3) : TaskPtr × Fin taskPriorityMax)
      [(1, 1), (3, 3)] := ⟨[(1, 1)], [(3, 3)], rfl, rfl, by decide +kernel, by decide +kernel⟩
  have r₅ := r₄.snoc (.pop 0 hpop)
  obtain ⟨s, hs, -, -, hempty, -⟩ := priority_queues_refine _ _ _ _ r₅
  refine ⟨s, hs, Bool.eq_false_iff.mpr fun h => ?_⟩
  have hnil := (hempty 1).mp h
  revert hnil
  decide

end RealtimeKernel
