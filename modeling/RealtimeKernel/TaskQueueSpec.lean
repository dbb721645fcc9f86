import RealtimeKernel.TaskQueue

/-!
# What the task queues hold

`Holds pool lists c` forgets the nodes: the lists on the pool hold the tasks `c j`, in order.
`QueuesRep pool pqs c` is the same for a family of priority queues that share a pool, with
their `size` counters.  Pushing and popping are refined by `pushQueues` and `popQueues` on the
plain lists, with the same failures: the pool is exhausted exactly when the lists together
hold `MAX_TASK_NUM` entries.
-/

set_option linter.unusedSectionVars false

namespace RealtimeKernel

open Lib

section Lists

variable {J : Type} [Fintype J] [DecidableEq J] {pool : TaskNodePool} {lists : J → TaskList}
  {c : J → List TaskPtr}

/-- The lists on the pool hold the tasks `c j`, from head to tail. -/
def Holds (pool : TaskNodePool) (lists : J → TaskList) (c : J → List TaskPtr) : Prop :=
  ∃ ns, PoolRep pool lists ns ∧ ∀ j, (ns j).map pool.task = (c j).map some

/-- The tasks met by following `next` from the head of a list. -/
def taskListTasks (pool : TaskNodePool) (list : TaskList) : List TaskPtr :=
  (follow pool.next maxTaskNum list.head).filterMap pool.task

theorem length_le_maxTaskNum {ns : J → List NodePtr} (h : PoolRep pool lists ns) (j : J) :
    (ns j).length ≤ maxTaskNum := by
  have h₁ := h.size_add_entries
  have h₂ := Finset.single_le_sum (f := fun i => (ns i).length) (fun _ _ => Nat.zero_le _)
    (Finset.mem_univ j)
  unfold entries at h₁
  omega

theorem taskListTasks_eq {ns : J → List NodePtr} (h : PoolRep pool lists ns) {j : J}
    {ts : List TaskPtr} (hts : (ns j).map pool.task = ts.map some) :
    taskListTasks pool (lists j) = ts := by
  unfold taskListTasks
  rw [(h.linked j).forward.follow_eq (length_le_maxTaskNum h j)]
  have hfm : (ns j).filterMap pool.task = ((ns j).map pool.task).filterMap id := by
    rw [List.filterMap_map]
    rfl
  rw [hfm, hts]
  simp [List.filterMap_map]

namespace Holds

theorem view_eq (h : Holds pool lists c) (j : J) : taskListTasks pool (lists j) = c j := by
  obtain ⟨ns, hp, hm⟩ := h
  exact taskListTasks_eq hp (hm j)

theorem entries_eq {ns : J → List NodePtr} (hm : ∀ j, (ns j).map pool.task = (c j).map some) :
    entries ns = entries c := by
  refine Finset.sum_congr rfl fun j _ => ?_
  simpa using congrArg List.length (hm j)

theorem size_add_entries (h : Holds pool lists c) : pool.size + entries c = maxTaskNum := by
  obtain ⟨ns, hp, hm⟩ := h
  rw [← entries_eq hm]
  exact hp.size_add_entries

theorem isEmpty_iff (h : Holds pool lists c) (j : J) :
    taskListEmpty (lists j) = true ↔ c j = [] := by
  obtain ⟨ns, hp, hm⟩ := h
  rw [hp.isEmpty_iff]
  have hlen := congrArg List.length (hm j)
  simp only [List.length_map] at hlen
  rw [← List.length_eq_zero_iff, hlen, List.length_eq_zero_iff]

theorem init (pool : TaskNodePool) :
    Holds (J := J) (taskNodePoolInit pool) (fun _ => taskListInit) (fun _ => []) :=
  ⟨_, PoolRep.init pool, fun _ => rfl⟩

theorem push_back (h : Holds pool lists c) (j : J) (t : TaskPtr)
    (hroom : entries c < maxTaskNum) :
    ∃ pool' l', taskListPushBack pool (lists j) t = .ok (pool', l') ∧
      Holds pool' (Function.update lists j l') (Function.update c j (c j ++ [t])) := by
  have hsize := h.size_add_entries
  obtain ⟨ns, hp, hm⟩ := h
  obtain ⟨n, pool', l', heq, hrep, -, hn, hnot, hkeep⟩ := hp.push_back j t (by omega)
  refine ⟨pool', l', heq, _, hrep, fun i => ?_⟩
  have hsame : ∀ i, (ns i).map pool'.task = (c i).map some := fun i => by
    rw [← hm i]
    exact List.map_congr_left fun m hmi => hkeep m fun he => hnot i (he ▸ hmi)
  by_cases hij : i = j
  · subst hij
    simp [hsame, hn]
  · simp [hij, hsame]

theorem push_back_full (h : Holds pool lists c) (j : J) (t : TaskPtr)
    (hfull : ¬ entries c < maxTaskNum) :
    taskListPushBack pool (lists j) t = .error .taskNodeAlloc := by
  have hsize := h.size_add_entries
  have hz : ¬ (0 < pool.size ∧ pool.size ≤ maxTaskNum) := by omega
  simp only [taskListPushBack, taskNodeAlloc]
  rw [if_neg hz]
  rfl

theorem pop_front (h : Holds pool lists c) (j : J) {t : TaskPtr} {rest : List TaskPtr}
    (hc : c j = t :: rest) :
    ∃ pool' l', taskListPopFront pool (lists j) = .ok (some t, pool', l') ∧
      Holds pool' (Function.update lists j l') (Function.update c j rest) := by
  obtain ⟨ns, hp, hm⟩ := h
  have hj := hm j
  rw [hc, List.map_cons] at hj
  obtain ⟨n, l₂, hns, htask, hrest⟩ := List.map_eq_cons_iff.mp hj
  obtain ⟨pool', l', heq, hrep, hkeep⟩ := hp.remove j (show ns j = [] ++ n :: l₂ from hns)
  refine ⟨pool', l', ?_, _, hrep, fun i => ?_⟩
  · have hhead : (lists j).head = some n := by
      rw [(hp.linked j).head_eq, hns]
      rfl
    rw [taskListPopFront, hhead, heq, htask]
  · by_cases hij : i = j
    · subst hij
      simp [hkeep, hrest]
    · simp [hij, hkeep, hm]

end Holds

end Lists

section Queues

variable {ι : Type} [Fintype ι] [DecidableEq ι] {pool : TaskNodePool}
  {pqs : ι → PriorityTaskQueue} {c : ι → Fin taskPriorityMax → List TaskPtr}

/-- The priority queues on the pool hold the tasks `c i p`, and count them. -/
structure QueuesRep (pool : TaskNodePool) (pqs : ι → PriorityTaskQueue)
    (c : ι → Fin taskPriorityMax → List TaskPtr) : Prop where
  holds : Holds pool (fun j : ι × Fin taskPriorityMax => (pqs j.1).taskList j.2) (cells c)
  size_eq : ∀ i, (pqs i).size = entries (c i)

/-- Appends a task to queue `i`, when its priority is in range and the pool has a node. -/
def pushQueues (c : ι → Fin taskPriorityMax → List TaskPtr) (i : ι) (task : TaskPtr)
    (priority : ℤ) : Except Halt (ι → Fin taskPriorityMax → List TaskPtr) :=
  if h : taskPriorityMin ≤ priority ∧ priority < taskPriorityMax then
    if entries (cells c) < maxTaskNum then
      .ok (Function.update c i (pushAt (c i) ⟨priority.toNat, toNat_lt_taskPriorityMax h⟩ task))
    else .error .taskNodeAlloc
  else .error .ptaskQueuePush

/-- Takes the earliest task of the highest priority out of queue `i`. -/
def popQueues (c : ι → Fin taskPriorityMax → List TaskPtr) (i : ι) :
    Except Halt (TaskPtr × (ι → Fin taskPriorityMax → List TaskPtr)) :=
  match popHighest (c i) with
  | none => .error .ptaskQueuePop
  | some (t, ci) => .ok (t, Function.update c i ci)

namespace QueuesRep

theorem init (pool : TaskNodePool) :
    QueuesRep (ι := ι) (taskNodePoolInit pool) (fun _ => ptaskQueueInit) (fun _ _ => []) :=
  ⟨Holds.init pool, fun _ => by simp [ptaskQueueInit, entries]⟩

theorem view_eq (h : QueuesRep pool pqs c) (i : ι) (p : Fin taskPriorityMax) :
    taskListTasks pool ((pqs i).taskList p) = c i p :=
  h.holds.view_eq (i, p)

theorem isEmpty_iff (h : QueuesRep pool pqs c) (i : ι) :
    ptaskQueueEmpty (pqs i) = true ↔ ∀ p, c i p = [] := by
  simp [ptaskQueueEmpty, h.size_eq, entries]

/-- The lists of a family of queues after one list of queue `i` was replaced. -/
theorem lists_update (pqs : ι → PriorityTaskQueue) (i : ι) (p : Fin taskPriorityMax)
    (size : ℕ) (l : TaskList) :
    (fun j : ι × Fin taskPriorityMax => (Function.update pqs i
        { size := size, taskList := Function.update (pqs i).taskList p l } j.1).taskList j.2)
      = Function.update (fun j : ι × Fin taskPriorityMax => (pqs j.1).taskList j.2) (i, p) l := by
  funext j
  obtain ⟨i', p'⟩ := j
  by_cases hi : i' = i
  · subst hi
    by_cases hp : p' = p
    · subst hp; simp
    · simp [hp]
  · simp [hi]

theorem of_update (h : QueuesRep pool pqs c) {pool' : TaskNodePool} {i : ι}
    {p : Fin taskPriorityMax} {size : ℕ} {l : TaskList} {ts : List TaskPtr}
    (hh : Holds pool' (Function.update
      (fun j : ι × Fin taskPriorityMax => (pqs j.1).taskList j.2) (i, p) l)
      (Function.update (cells c) (i, p) ts))
    (hsize : size = entries (Function.update (c i) p ts)) :
    QueuesRep pool'
      (Function.update pqs i { size := size, taskList := Function.update (pqs i).taskList p l })
      (Function.update c i (Function.update (c i) p ts)) := by
  refine ⟨?_, fun i' => ?_⟩
  · rw [lists_update, cells_update]
    exact hh
  · by_cases hi : i' = i
    · subst hi; simp [hsize]
    · simp [hi, h.size_eq]

/-- `ptask_queue_push` appends to the list of the task's priority. -/
theorem push_refines (h : QueuesRep pool pqs c) (i : ι) (t : TaskPtr) (priority : ℤ) :
    Refines (fun r c' => QueuesRep r.1 (Function.update pqs i r.2) c')
      (ptaskQueuePush pool (pqs i) t priority) (pushQueues c i t priority) := by
  unfold ptaskQueuePush pushQueues
  split
  · rename_i hp
    split
    · rename_i hroom
      let p : Fin taskPriorityMax := ⟨priority.toNat, toNat_lt_taskPriorityMax hp⟩
      obtain ⟨pool', l', heq, hh⟩ := h.holds.push_back (i, p) t hroom
      have hlen := entries_update (c i) p (c i p ++ [t])
      rw [List.length_append, List.length_singleton] at hlen
      have heq' : taskListPushBack pool
          ((pqs i).taskList ⟨priority.toNat, toNat_lt_taskPriorityMax hp⟩) t
            = .ok (pool', l') := heq
      simp only [heq', ok_bind]
      have hsize : (pqs i).size + 1 = entries (Function.update (c i) p (c i p ++ [t])) := by
        rw [h.size_eq]
        omega
      exact .ok (h.of_update hh hsize)
    · rename_i hfull
      have hp' := h.holds.push_back_full
        (i, ⟨priority.toNat, toNat_lt_taskPriorityMax hp⟩) t hfull
      simp only at hp'
      simp [hp']
  · simp

/-- `ptask_queue_pop` takes the earliest task of the highest priority, and never reaches its
`return NULL`. -/
theorem pop_refines (h : QueuesRep pool pqs c) (i : ι) :
    Refines (fun r s => r.1 = some s.1 ∧ QueuesRep r.2.1 (Function.update pqs i r.2.2) s.2)
      (ptaskQueuePop pool (pqs i)) (popQueues c i) := by
  have hempty : ∀ p, (!taskListEmpty ((pqs i).taskList p)) = !(c i p).isEmpty := fun p => by
    have := h.holds.isEmpty_iff (i, p)
    simp only [cells] at this
    cases hb : taskListEmpty ((pqs i).taskList p)
    · cases hc : c i p with
      | nil => simp [this.mpr hc] at hb
      | cons t rest => rfl
    · simp [this.mp hb]
  unfold ptaskQueuePop popQueues
  simp only [hempty]
  cases hpop : popHighest (c i) with
  | none =>
    have hz : (pqs i).size = 0 := by
      rw [h.size_eq]
      rw [popHighest_eq_none] at hpop
      simp [entries, hpop]
    simp [hz]
  | some s =>
    obtain ⟨t, ci⟩ := s
    obtain ⟨p, rest, hc, hq, rfl⟩ := popHighest_eq_some.mp hpop
    have hp : highest (fun p => !(c i p).isEmpty) = some p := by
      rw [highest_eq_some]
      exact ⟨by simp [hc], fun q hlt => by simp [hq q hlt]⟩
    have hlen := entries_update (c i) p rest
    rw [hc, List.length_cons] at hlen
    have hsz : (pqs i).size ≠ 0 := by
      rw [h.size_eq]
      omega
    obtain ⟨pool', l', heq, hh⟩ := h.holds.pop_front (i, p) hc
    have heq' : taskListPopFront pool ((pqs i).taskList p) = .ok (some t, pool', l') := heq
    have hsize : (pqs i).size - 1 = entries (Function.update (c i) p rest) := by
      rw [h.size_eq]
      omega
    rw [if_pos hsz, hp]
    simp only [heq', ok_bind]
    exact .ok ⟨rfl, h.of_update hh hsize⟩

end QueuesRep

end Queues

end RealtimeKernel
