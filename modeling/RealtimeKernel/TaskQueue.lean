import RealtimeKernel.Task
import RealtimeKernel.Lib.Runs
import RealtimeKernel.Lib.Links
import RealtimeKernel.Lib.PriorityLists

/-!
# `task_queue.c`: node pools, task lists and priority queues

A pool hands out nodes from a stack of free indices; a `TaskList` is a doubly linked list of
nodes of one pool and a `PriorityTaskQueue` has one such list for each priority.  The C structs
keep a pointer to their pool; here the pool is passed next to the list, since each family of
lists shares one static pool.

`PoolRep pool lists ns` relates any number of lists on one pool to the node sequences `ns`:
every node is either free or in exactly one list, once, and each list is linked in both
directions.  `PoolRep.push_back` and `PoolRep.remove` are what the two list operations do.
-/

namespace RealtimeKernel

open Lib

structure TaskNode where
  task : Option TaskPtr
  prev : Option NodePtr
  next : Option NodePtr

structure TaskNodePool where
  availableIndices : ℕ → NodePtr
  size : ℕ
  nodes : NodePtr → TaskNode

structure TaskList where
  size : ℕ
  head : Option NodePtr
  tail : Option NodePtr

structure PriorityTaskQueue where
  size : ℕ
  taskList : Fin taskPriorityMax → TaskList

/-! ### Pools -/

def taskNodePoolInit (pool : TaskNodePool) : TaskNodePool :=
  { pool with
    availableIndices := fun i =>
      if h : i < maxTaskNum then ⟨i, h⟩ else pool.availableIndices i
    size := maxTaskNum }

/-- Writes one node, as `task_node_init` does. -/
def TaskNodePool.setNode (pool : TaskNodePool) (node : NodePtr) (v : TaskNode) : TaskNodePool :=
  { pool with nodes := Function.update pool.nodes node v }

/-- `node->next = v` -/
def TaskNodePool.setNext (pool : TaskNodePool) (node : NodePtr) (v : Option NodePtr) :
    TaskNodePool :=
  pool.setNode node { pool.nodes node with next := v }

/-- `node->prev = v` -/
def TaskNodePool.setPrev (pool : TaskNodePool) (node : NodePtr) (v : Option NodePtr) :
    TaskNodePool :=
  pool.setNode node { pool.nodes node with prev := v }

def taskNodeAlloc (pool : TaskNodePool) : Except Halt (NodePtr × TaskNodePool) :=
  if 0 < pool.size ∧ pool.size ≤ maxTaskNum then
    let size := pool.size - 1
    let result := pool.availableIndices size
    let pool := { pool with size := size }
    .ok (result, pool.setNode result { task := none, prev := none, next := none })
  else .error .taskNodeAlloc

def taskNodeFree (pool : TaskNodePool) (node : NodePtr) : Except Halt TaskNodePool :=
  if pool.size < maxTaskNum then
    .ok { pool with
      availableIndices := Function.update pool.availableIndices pool.size node
      size := pool.size + 1 }
  else .error .taskNodeFree

/-! ### Lists -/

def taskListInit : TaskList := { size := 0, head := none, tail := none }

def taskListEmpty (list : TaskList) : Bool := list.size == 0

def taskListPushBack (pool : TaskNodePool) (list : TaskList) (task : TaskPtr) :
    Except Halt (TaskNodePool × TaskList) := do
  let (node, pool) ← taskNodeAlloc pool
  let pool := pool.setNode node { task := some task, prev := list.tail, next := none }
  if list.size ≠ 0 then
    match list.tail with
    | none => .error .nullPointer
    | some tail =>
      .ok (pool.setNext tail (some node),
        { list with tail := some node, size := list.size + 1 })
  else if list.tail = none ∧ list.head = none then
    .ok (pool, { size := list.size + 1, head := some node, tail := some node })
  else .error .taskListPushBack

def taskListRemoveNode (pool : TaskNodePool) (list : TaskList) (node : Option NodePtr) :
    Except Halt (Option TaskPtr × TaskNodePool × TaskList) :=
  match node with
  | none => .error .taskListRemoveNode
  | some node => do
    let (pool, list) := match (pool.nodes node).next with
      | some next => (pool.setPrev next (pool.nodes node).prev, list)
      | none => (pool, { list with tail := (pool.nodes node).prev })
    let (pool, list) := match (pool.nodes node).prev with
      | some prev => (pool.setNext prev (pool.nodes node).next, list)
      | none => (pool, { list with head := (pool.nodes node).next })
    let list := { list with size := list.size - 1 }
    let task := (pool.nodes node).task
    let pool ← taskNodeFree pool node
    .ok (task, pool, list)

def taskListPopFront (pool : TaskNodePool) (list : TaskList) :
    Except Halt (Option TaskPtr × TaskNodePool × TaskList) :=
  taskListRemoveNode pool list list.head

/-! ### Priority queues -/

def ptaskQueueInit : PriorityTaskQueue := { size := 0, taskList := fun _ => taskListInit }

def ptaskQueueEmpty (pq : PriorityTaskQueue) : Bool := pq.size == 0

/-- `highest` is the loop `for (i = TASK_PRIORITY_MAX - 1; i >= 0; i--)` up to the first
non-empty list. -/
def ptaskQueuePop (pool : TaskNodePool) (pq : PriorityTaskQueue) :
    Except Halt (Option TaskPtr × TaskNodePool × PriorityTaskQueue) :=
  if pq.size ≠ 0 then
    match highest fun i => !taskListEmpty (pq.taskList i) with
    | some i => do
      let (task, pool, list) ← taskListPopFront pool (pq.taskList i)
      .ok (task, pool,
        { size := pq.size - 1, taskList := Function.update pq.taskList i list })
    | none => .ok (none, pool, pq)
  else .error .ptaskQueuePop

theorem toNat_lt_taskPriorityMax {priority : ℤ}
    (h : taskPriorityMin ≤ priority ∧ priority < taskPriorityMax) :
    priority.toNat < taskPriorityMax := by
  simp only [taskPriorityMin, taskPriorityMax] at h ⊢
  omega

/-- `priority` is the field of the task that is pushed. -/
def ptaskQueuePush (pool : TaskNodePool) (pq : PriorityTaskQueue) (task : TaskPtr)
    (priority : ℤ) : Except Halt (TaskNodePool × PriorityTaskQueue) :=
  if h : taskPriorityMin ≤ priority ∧ priority < taskPriorityMax then do
    let i : Fin taskPriorityMax := ⟨priority.toNat, toNat_lt_taskPriorityMax h⟩
    let (pool, list) ← taskListPushBack pool (pq.taskList i) task
    .ok (pool, { size := pq.size + 1, taskList := Function.update pq.taskList i list })
  else .error .ptaskQueuePush

/-! ### The representation of many lists on one pool -/

namespace TaskNodePool

/-- The indices on the free stack. -/
def free (pool : TaskNodePool) : List NodePtr :=
  (List.range pool.size).map pool.availableIndices

/-- The column of forward links. -/
def next (pool : TaskNodePool) (n : NodePtr) : Option NodePtr := (pool.nodes n).next

/-- The column of backward links. -/
def prev (pool : TaskNodePool) (n : NodePtr) : Option NodePtr := (pool.nodes n).prev

/-- The column of tasks. -/
def task (pool : TaskNodePool) (n : NodePtr) : Option TaskPtr := (pool.nodes n).task

variable (pool : TaskNodePool) (node : NodePtr)

theorem setNext_next (v : Option NodePtr) :
    (pool.setNext node v).next = Function.update pool.next node v := by
  funext m
  by_cases h : m = node
  · subst h; simp [next, setNext, setNode]
  · simp [next, setNext, setNode, h]

theorem setNext_prev (v : Option NodePtr) : (pool.setNext node v).prev = pool.prev := by
  funext m
  by_cases h : m = node
  · subst h; simp [prev, setNext, setNode]
  · simp [prev, setNext, setNode, h]

theorem setNext_task (v : Option NodePtr) : (pool.setNext node v).task = pool.task := by
  funext m
  by_cases h : m = node
  · subst h; simp [task, setNext, setNode]
  · simp [task, setNext, setNode, h]

theorem setPrev_next (v : Option NodePtr) : (pool.setPrev node v).next = pool.next := by
  funext m
  by_cases h : m = node
  · subst h; simp [next, setPrev, setNode]
  · simp [next, setPrev, setNode, h]

theorem setPrev_prev (v : Option NodePtr) :
    (pool.setPrev node v).prev = Function.update pool.prev node v := by
  funext m
  by_cases h : m = node
  · subst h; simp [prev, setPrev, setNode]
  · simp [prev, setPrev, setNode, h]

theorem setPrev_task (v : Option NodePtr) : (pool.setPrev node v).task = pool.task := by
  funext m
  by_cases h : m = node
  · subst h; simp [task, setPrev, setNode]
  · simp [task, setPrev, setNode, h]

end TaskNodePool

section Rep

variable {J : Type} [Fintype J] [DecidableEq J]

/-- The lists `lists j` on one pool hold the nodes `ns j`: every node of the pool is on the
free stack or in one list, once, and each list is linked forwards and backwards. -/
structure PoolRep (pool : TaskNodePool) (lists : J → TaskList) (ns : J → List NodePtr) :
    Prop where
  size_le : pool.size ≤ maxTaskNum
  once : ∀ n, pool.free.count n + occurs ns n = 1
  linked : ∀ j, DList pool.next pool.prev (lists j).head (lists j).tail (ns j)
  size_eq : ∀ j, (lists j).size = (ns j).length

namespace PoolRep

variable {pool : TaskNodePool} {lists : J → TaskList} {ns : J → List NodePtr}

omit [DecidableEq J] in
theorem free_length (pool : TaskNodePool) : pool.free.length = pool.size := by
  simp [TaskNodePool.free]

omit [DecidableEq J] in
/-- The free stack and the lists together hold every node. -/
theorem size_add_entries (h : PoolRep pool lists ns) : pool.size + entries ns = maxTaskNum := by
  have hfree : ∑ n, pool.free.count n = pool.size := by
    rw [← free_length pool]
    have := entries_eq_sum_occurs (J := Unit) fun _ => pool.free
    simpa [entries, occurs] using this.symm
  have hsum : ∑ n, (pool.free.count n + occurs ns n) = ∑ _n : NodePtr, 1 :=
    Finset.sum_congr rfl fun n _ => h.once n
  rw [Finset.sum_add_distrib, hfree, ← entries_eq_sum_occurs] at hsum
  simpa using hsum

omit [DecidableEq J] in
theorem nodup (h : PoolRep pool lists ns) (j : J) : (ns j).Nodup := by
  rw [List.nodup_iff_count_le_one]
  intro n
  have h₁ := h.once n
  have h₂ := count_le_occurs ns j n
  omega

theorem eq_of_mem (h : PoolRep pool lists ns) {n : NodePtr} {i j : J} (hi : n ∈ ns i)
    (hj : n ∈ ns j) : i = j :=
  eq_of_occurs_le_one (by have := h.once n; omega) hi hj

omit [DecidableEq J] in
theorem not_mem_of_free (h : PoolRep pool lists ns) {n : NodePtr} (hn : n ∈ pool.free) (j : J) :
    n ∉ ns j := by
  intro hj
  have h₁ := h.once n
  have h₂ := List.count_pos_iff.mpr hn
  have h₃ := (occurs_pos_iff ns n).mpr ⟨j, hj⟩
  omega

omit [DecidableEq J] in
theorem isEmpty_iff (h : PoolRep pool lists ns) (j : J) :
    taskListEmpty (lists j) = true ↔ ns j = [] := by
  simp [taskListEmpty, h.size_eq]

omit [Fintype J] [DecidableEq J] in
theorem init [Fintype J] (pool : TaskNodePool) :
    PoolRep (J := J) (taskNodePoolInit pool) (fun _ => taskListInit) (fun _ => []) := by
  refine ⟨le_refl _, fun n => ?_, fun _ => DList.nil, fun _ => rfl⟩
  have hfree : (taskNodePoolInit pool).free = List.finRange maxTaskNum := by
    refine List.ext_getElem (by simp [TaskNodePool.free, taskNodePoolInit]) fun i h₁ h₂ => ?_
    have hi : i < maxTaskNum := by simpa using h₂
    simp [TaskNodePool.free, taskNodePoolInit, hi]
  rw [hfree, List.count_eq_one_of_mem (List.nodup_finRange _) (List.mem_finRange n)]
  simp [occurs]

/-- The node that `task_node_alloc` will hand out next. -/
theorem free_eq_concat {pool : TaskNodePool} (hs : 0 < pool.size) :
    pool.free = (List.range (pool.size - 1)).map pool.availableIndices
      ++ [pool.availableIndices (pool.size - 1)] := by
  unfold TaskNodePool.free
  rw [show pool.size = pool.size - 1 + 1 by omega, List.range_succ]
  simp

omit [DecidableEq J] in
/-- A list is unaffected by what happens to nodes it does not hold. -/
theorem linked_congr (h : PoolRep pool lists ns) {pool' : TaskNodePool} (j : J)
    (hn : ∀ m ∈ ns j, pool'.nodes m = pool.nodes m) :
    DList pool'.next pool'.prev (lists j).head (lists j).tail (ns j) :=
  (h.linked j).congr (fun m hm => by simp [TaskNodePool.next, hn m hm])
    fun m hm => by simp [TaskNodePool.prev, hn m hm]

/-- `PoolRep` after the list `j` took the node `n` from the free stack. -/
theorem of_taken (h : PoolRep pool lists ns) {pool' : TaskNodePool} {l' : TaskList} {j : J}
    (hs : 0 < pool.size) (hsize : pool'.size = pool.size - 1)
    (havail : pool'.availableIndices = pool.availableIndices)
    (hl : DList pool'.next pool'.prev l'.head l'.tail
      (ns j ++ [pool.availableIndices (pool.size - 1)]))
    (hlen : l'.size = (ns j).length + 1)
    (hother : ∀ i ≠ j, DList pool'.next pool'.prev (lists i).head (lists i).tail (ns i)) :
    PoolRep pool' (Function.update lists j l')
      (Function.update ns j (ns j ++ [pool.availableIndices (pool.size - 1)])) := by
  refine ⟨by have := h.size_le; omega, fun m => ?_, fun i => ?_, fun i => ?_⟩
  · have hfree : pool'.free = (List.range (pool.size - 1)).map pool.availableIndices := by
      simp [TaskNodePool.free, hsize, havail]
    have h₁ := h.once m
    have h₂ := occurs_update ns j (ns j ++ [pool.availableIndices (pool.size - 1)]) m
    rw [free_eq_concat hs, List.count_append] at h₁
    rw [List.count_append] at h₂
    rw [hfree]
    omega
  · by_cases hij : i = j
    · subst hij
      simpa using hl
    · simpa [hij] using hother i hij
  · by_cases hij : i = j
    · subst hij
      simp [hlen]
    · simp [hij, h.size_eq]

/-- **`task_list_push_back`** on a pool with a free node appends one node that no list held. -/
theorem push_back (h : PoolRep pool lists ns) (j : J) (t : TaskPtr) (hs : 0 < pool.size) :
    ∃ n pool' l', taskListPushBack pool (lists j) t = .ok (pool', l') ∧
      PoolRep pool' (Function.update lists j l') (Function.update ns j (ns j ++ [n])) ∧
      l'.tail = some n ∧ pool'.task n = some t ∧ (∀ i, n ∉ ns i) ∧
      ∀ m ≠ n, pool'.task m = pool.task m := by
  have hle := h.size_le
  let n := pool.availableIndices (pool.size - 1)
  let pool₁ : TaskNodePool :=
    { pool with
      size := pool.size - 1
      nodes := Function.update (Function.update pool.nodes n ⟨none, none, none⟩) n
        ⟨some t, (lists j).tail, none⟩ }
  have hfree : n ∈ pool.free := by
    rw [free_eq_concat hs]
    exact List.mem_append_right _ (List.mem_singleton.mpr rfl)
  have hn : ∀ i, n ∉ ns i := h.not_mem_of_free hfree
  have hnodes : ∀ m ≠ n, pool₁.nodes m = pool.nodes m := fun m hm => by simp [pool₁, hm]
  have hnode : pool₁.nodes n = ⟨some t, (lists j).tail, none⟩ := by simp [pool₁]
  have halloc : taskNodeAlloc pool = .ok (n, { pool with
      size := pool.size - 1
      nodes := Function.update pool.nodes n ⟨none, none, none⟩ }) := by
    simp only [taskNodeAlloc]
    rw [if_pos ⟨hs, hle⟩]
    rfl
  have hcong : ∀ i, DList pool₁.next pool₁.prev (lists i).head (lists i).tail (ns i) :=
    fun i => h.linked_congr i fun m hm => hnodes m fun heq => hn i (heq ▸ hm)
  by_cases hsz : (lists j).size = 0
  · -- an empty list: the new node is its head and tail
    have hnil : ns j = [] := by
      rw [h.size_eq] at hsz
      exact List.length_eq_zero_iff.mp hsz
    have htail : (lists j).tail = none := by rw [(h.linked j).tail_eq, hnil]; rfl
    have hhead : (lists j).head = none := by rw [(h.linked j).head_eq, hnil]; rfl
    refine ⟨n, pool₁, { size := (lists j).size + 1, head := some n, tail := some n }, ?_, ?_,
      rfl, by simp [TaskNodePool.task, hnode], hn,
      fun m hm => by simp [TaskNodePool.task, hnodes m hm]⟩
    · simp only [taskListPushBack, halloc, ok_bind, hsz, htail, hhead]
      simp [pool₁, TaskNodePool.setNode, htail]
    · refine h.of_taken hs rfl rfl ?_ (by simp [h.size_eq]) fun i _ => hcong i
      rw [hnil]
      exact DList.singleton (by simp [TaskNodePool.next, hnode])
        (by simp [TaskNodePool.prev, hnode, htail])
  · -- a non-empty list: the old tail is linked to the new node
    have hne : ns j ≠ [] := by
      intro hnil
      rw [h.size_eq, hnil] at hsz
      exact hsz rfl
    obtain ⟨y, htail⟩ : ∃ y, (lists j).tail = some y := by
      rw [(h.linked j).tail_eq]
      exact ⟨_, List.getLast?_eq_some_getLast hne⟩
    have hy : y ∈ ns j := by
      rw [(h.linked j).tail_eq] at htail
      exact List.mem_of_getLast? htail
    have hyn : y ≠ n := fun heq => hn j (heq ▸ hy)
    refine ⟨n, pool₁.setNext y (some n),
      { (lists j) with tail := some n, size := (lists j).size + 1 }, ?_, ?_, rfl, ?_, hn, ?_⟩
    · simp only [taskListPushBack, halloc, ok_bind, htail]
      rw [if_pos hsz]
      simp [pool₁, TaskNodePool.setNode, TaskNodePool.setNext, htail]
    · refine h.of_taken hs rfl rfl ?_ (by simp [h.size_eq]) fun i hij => ?_
      · rw [TaskNodePool.setNext_next, TaskNodePool.setNext_prev]
        exact DList.push_back (htail ▸ hcong j) (hn j) (h.nodup j)
          (by simp [TaskNodePool.next, hnode]) (by simp [TaskNodePool.prev, hnode, htail])
      · refine (hcong i).congr (fun m hm => ?_) fun m hm => ?_
        · have hmy : m ≠ y := fun heq => hij (h.eq_of_mem (heq ▸ hm) hy)
          rw [TaskNodePool.setNext_next, Function.update_of_ne hmy]
        · rw [TaskNodePool.setNext_prev]
    · rw [TaskNodePool.setNext_task]
      simp [TaskNodePool.task, hnode]
    · intro m hm
      rw [TaskNodePool.setNext_task]
      simp [TaskNodePool.task, hnodes m hm]

omit [Fintype J] [DecidableEq J] in
/-- The links after `task_list_remove_node`: in each of the four cases (head, tail, middle,
only node) the neighbours are relinked and the node goes on the free stack. -/
theorem removeNode_eq (pool : TaskNodePool) (list : TaskList) (n : NodePtr)
    (hn : pool.next n ≠ some n) (hp : pool.prev n ≠ some n) (hs : pool.size < maxTaskNum) :
    ∃ pool' l', taskListRemoveNode pool list (some n) = .ok (pool.task n, pool', l') ∧
      pool'.next = relink pool.next (pool.prev n) (pool.next n) ∧
      pool'.prev = relink pool.prev (pool.next n) (pool.prev n) ∧
      pool'.task = pool.task ∧ pool'.size = pool.size + 1 ∧
      pool'.availableIndices = Function.update pool.availableIndices pool.size n ∧
      l'.head = (if pool.prev n = none then pool.next n else list.head) ∧
      l'.tail = (if pool.next n = none then pool.prev n else list.tail) ∧
      l'.size = list.size - 1 := by
  let stack := Function.update pool.availableIndices pool.size n
  cases hnx : pool.next n with
  | none =>
    have hnx' : (pool.nodes n).next = none := hnx
    cases hpv : pool.prev n with
    | none =>
      have hpv' : (pool.nodes n).prev = none := hpv
      refine ⟨{ pool with availableIndices := stack, size := pool.size + 1 },
        { size := list.size - 1, head := none, tail := none }, ?_, rfl, rfl, rfl, rfl, rfl,
        by simp, by simp, rfl⟩
      simp [taskListRemoveNode, taskNodeFree, hnx', hpv', hs, TaskNodePool.task, stack]
    | some p =>
      have hpv' : (pool.nodes n).prev = some p := hpv
      have hpn : n ≠ p := fun heq => hp (by rw [hpv, heq])
      refine ⟨{ pool.setNext p none with availableIndices := stack, size := pool.size + 1 },
        { size := list.size - 1, head := list.head, tail := some p }, ?_,
        pool.setNext_next p none, pool.setNext_prev p none, pool.setNext_task p none, rfl, rfl,
        by simp, by simp, rfl⟩
      simp [taskListRemoveNode, taskNodeFree, hnx', hpv', hs, hpn, TaskNodePool.task, stack,
        TaskNodePool.setNext, TaskNodePool.setNode]
  | some x =>
    have hnx' : (pool.nodes n).next = some x := hnx
    have hxn : n ≠ x := fun heq => hn (by rw [hnx, heq])
    cases hpv : pool.prev n with
    | none =>
      have hpv' : (pool.nodes n).prev = none := hpv
      refine ⟨{ pool.setPrev x none with availableIndices := stack, size := pool.size + 1 },
        { size := list.size - 1, head := some x, tail := list.tail }, ?_,
        pool.setPrev_next x none, pool.setPrev_prev x none, pool.setPrev_task x none, rfl, rfl,
        by simp, by simp, rfl⟩
      simp [taskListRemoveNode, taskNodeFree, hnx', hpv', hs, hxn, TaskNodePool.task, stack,
        TaskNodePool.setPrev, TaskNodePool.setNode]
    | some p =>
      have hpv' : (pool.nodes n).prev = some p := hpv
      have hpn : n ≠ p := fun heq => hp (by rw [hpv, heq])
      refine ⟨{ (pool.setPrev x (some p)).setNext p (some x) with
          availableIndices := stack, size := pool.size + 1 },
        { size := list.size - 1, head := list.head, tail := list.tail }, ?_, ?_, ?_, ?_, rfl,
        rfl, by simp, by simp, rfl⟩
      · simp [taskListRemoveNode, taskNodeFree, hnx', hpv', hs, hxn, hpn, TaskNodePool.task,
          stack, TaskNodePool.setPrev, TaskNodePool.setNext, TaskNodePool.setNode]
      · exact ((pool.setPrev x (some p)).setNext_next p (some x)).trans
          (by rw [TaskNodePool.setPrev_next]; rfl)
      · exact ((pool.setPrev x (some p)).setNext_prev p (some x)).trans
          (pool.setPrev_prev x (some p))
      · exact ((pool.setPrev x (some p)).setNext_task p (some x)).trans
          (pool.setPrev_task x (some p))

/-- **`task_list_remove_node`** of a node of the list takes that node out and frees it. -/
theorem remove (h : PoolRep pool lists ns) (j : J) {l₁ l₂ : List NodePtr} {n : NodePtr}
    (hj : ns j = l₁ ++ n :: l₂) :
    ∃ pool' l', taskListRemoveNode pool (lists j) (some n) = .ok (pool.task n, pool', l') ∧
      PoolRep pool' (Function.update lists j l') (Function.update ns j (l₁ ++ l₂)) ∧
      pool'.task = pool.task := by
  have hd : DList pool.next pool.prev (lists j).head (lists j).tail (l₁ ++ n :: l₂) :=
    hj ▸ h.linked j
  have hnd : (l₁ ++ n :: l₂).Nodup := hj ▸ h.nodup j
  have hnot : n ∉ l₁ ∧ n ∉ l₂ := by
    have h' := hnd
    rw [List.nodup_append] at h'
    exact ⟨fun hin => h'.2.2 n hin n (by simp) rfl, (List.nodup_cons.mp h'.2.1).1⟩
  have hmem : ∀ {m : NodePtr}, m ∈ l₁ ∨ m ∈ l₂ → m ∈ ns j := fun hm => by
    rw [hj]
    rcases hm with hm | hm <;> simp [hm]
  have hnx : ∀ x, pool.next n = some x → x ∈ l₂ := fun x hx => by
    rw [hd.next_eq] at hx
    exact List.mem_of_head? hx
  have hpv : ∀ x, pool.prev n = some x → x ∈ l₁ := fun x hx => by
    rw [hd.prev_eq] at hx
    exact List.mem_of_getLast? hx
  have hroom : pool.size < maxTaskNum := by
    have h₁ := h.size_add_entries
    have h₂ : 0 < entries ns := by
      have := Finset.single_le_sum (f := fun i => (ns i).length) (fun _ _ => Nat.zero_le _)
        (Finset.mem_univ j)
      simp only [hj, List.length_append, List.length_cons] at this
      unfold entries
      omega
    omega
  obtain ⟨pool', l', heq, hnext, hprev, htask, hsize, havail, hhead, htail, hlen⟩ :=
    removeNode_eq pool (lists j) n (fun hx => hnot.2 (hnx n hx)) (fun hx => hnot.1 (hpv n hx))
      hroom
  refine ⟨pool', l', heq, ⟨by omega, fun m => ?_, fun i => ?_, fun i => ?_⟩, htask⟩
  · have hfree : pool'.free = pool.free ++ [n] := by
      unfold TaskNodePool.free
      rw [hsize, List.range_succ, List.map_append, havail]
      congr 1
      · refine List.map_congr_left fun i hi => ?_
        have : i ≠ pool.size := by
          have := List.mem_range.mp hi
          omega
        simp [this]
      · simp
    have h₁ := h.once m
    have h₂ := occurs_update ns j (l₁ ++ l₂) m
    rw [hj] at h₂
    rw [hfree]
    simp only [List.count_append, List.count_cons, List.count_nil] at h₂ ⊢
    omega
  · by_cases hij : i = j
    · subst hij
      simpa [hnext, hprev, hhead, htail] using hd.remove hnd
    · have hother : ∀ m ∈ ns i, m ∉ ns j := fun m hi hm => hij (h.eq_of_mem hi hm)
      simp only [Function.update_of_ne hij]
      refine (h.linked i).congr (fun m hm => ?_) fun m hm => ?_
      · rw [hnext]
        cases hp : pool.prev n with
        | none => rfl
        | some p =>
          have hmp : m ≠ p := fun he => hother m hm (hmem (Or.inl (he ▸ hpv p hp)))
          simp [relink, hmp]
      · rw [hprev]
        cases hx : pool.next n with
        | none => rfl
        | some x =>
          have hmx : m ≠ x := fun he => hother m hm (hmem (Or.inr (he ▸ hnx x hx)))
          simp [relink, hmx]
  · by_cases hij : i = j
    · subst hij
      simp [hlen, h.size_eq, hj]
    · simp [hij, h.size_eq]

end PoolRep

end Rep

end RealtimeKernel
