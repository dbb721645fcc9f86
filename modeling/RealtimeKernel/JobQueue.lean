import RealtimeKernel.Abstract

/-!
# The job queue

A live task has one node in the job queue, and its field `job_node` points at it.  `JobsRep`
says so for all descriptors at once: the nodes of the list carry the live tasks in order, and
`job_node` is the inverse of that, `NULL` for every descriptor that is not live.
-/

namespace RealtimeKernel

open Lib

/-- The list holds the tasks `ts`, and `jobNode` finds the node of each. -/
def JobsRep (pool : TaskNodePool) (list : TaskList) (jobNode : TaskPtr → Option NodePtr)
    (ts : List TaskPtr) : Prop :=
  ∃ ns : List NodePtr, PoolRep pool (fun _ : Unit => list) (fun _ => ns) ∧
    ns.map pool.task = ts.map some ∧ ns.map some = ts.map jobNode ∧ ∀ t ∉ ts, jobNode t = none

namespace JobsRep

variable {pool : TaskNodePool} {list : TaskList} {jobNode : TaskPtr → Option NodePtr}
  {ts : List TaskPtr}

theorem map_update_of_not_mem {t : TaskPtr} (ht : t ∉ ts) (v : Option NodePtr) :
    ts.map (Function.update jobNode t v) = ts.map jobNode := by
  refine List.map_congr_left fun u hu => ?_
  have hut : u ≠ t := fun he => ht (he ▸ hu)
  rw [Function.update_of_ne hut]

theorem init (pool : TaskNodePool) :
    JobsRep (taskNodePoolInit pool) taskListInit (fun _ => none) [] :=
  ⟨[], PoolRep.init pool, rfl, rfl, fun _ _ => rfl⟩

theorem nodup (h : JobsRep pool list jobNode ts) : ts.Nodup := by
  obtain ⟨ns, hp, -, hnode, -⟩ := h
  have hnd : (ts.map jobNode).Nodup := by
    rw [← hnode]
    exact (hp.nodup ()).map (Option.some_injective _)
  exact hnd.of_map _

theorem length_le (h : JobsRep pool list jobNode ts) : ts.length ≤ maxTaskNum := by
  obtain ⟨ns, hp, htask, -, -⟩ := h
  have hlen := congrArg List.length htask
  simp only [List.length_map] at hlen
  exact hlen ▸ length_le_maxTaskNum hp ()

theorem view_eq (h : JobsRep pool list jobNode ts) : taskListTasks pool list = ts := by
  obtain ⟨ns, hp, htask, -, -⟩ := h
  exact taskListTasks_eq (j := ()) hp htask

theorem size_eq {ns : List NodePtr} (hp : PoolRep pool (fun _ : Unit => list) (fun _ => ns))
    (htask : ns.map pool.task = ts.map some) : pool.size + ts.length = maxTaskNum := by
  have hlen := congrArg List.length htask
  simp only [List.length_map] at hlen
  have := hp.size_add_entries
  simpa [entries, hlen] using this

/-- Appending a task that is not live gives it a node, which is the new tail. -/
theorem push_back (h : JobsRep pool list jobNode ts) {t : TaskPtr} (ht : t ∉ ts)
    (hroom : ts.length < maxTaskNum) :
    ∃ pool' l', taskListPushBack pool list t = .ok (pool', l') ∧
      JobsRep pool' l' (Function.update jobNode t l'.tail) (ts ++ [t]) := by
  obtain ⟨ns, hp, htask, hnode, hnone⟩ := h
  have hsize := size_eq hp htask
  obtain ⟨n, pool', l', heq, hrep, htail, hn, hnot, hkeep⟩ := hp.push_back () t (by omega)
  refine ⟨pool', l', heq, ns ++ [n], ?_, ?_, ?_, fun u hu => ?_⟩
  · have hl : Function.update (fun _ : Unit => list) () l' = fun _ => l' := by
      funext u
      simp
    have hs : Function.update (fun _ : Unit => ns) () (ns ++ [n]) = fun _ => ns ++ [n] := by
      funext u
      simp
    rw [hl, hs] at hrep
    exact hrep
  · have hsame : ns.map pool'.task = ns.map pool.task :=
      List.map_congr_left fun m hm => hkeep m fun he => hnot () (he ▸ hm)
    simp [hsame, htask, hn]
  · rw [List.map_append, List.map_append, map_update_of_not_mem ht, hnode]
    simp [htail]
  · have hut : u ≠ t := fun he => hu (by simp [he])
    rw [Function.update_of_ne hut]
    exact hnone u fun hin => hu (by simp [hin])

theorem push_back_full (h : JobsRep pool list jobNode ts) (t : TaskPtr)
    (hfull : ¬ ts.length < maxTaskNum) :
    taskListPushBack pool list t = .error .taskNodeAlloc := by
  obtain ⟨ns, hp, htask, -, -⟩ := h
  have hsize := size_eq hp htask
  have hz : ¬ (0 < pool.size ∧ pool.size ≤ maxTaskNum) := by omega
  simp only [taskListPushBack, taskNodeAlloc]
  rw [if_neg hz]
  rfl

/-- Removing the node of a live task takes that task out. -/
theorem remove (h : JobsRep pool list jobNode ts) {t : TaskPtr} (ht : t ∈ ts) :
    ∃ pool' l', taskListRemoveNode pool list (jobNode t) = .ok (some t, pool', l') ∧
      JobsRep pool' l' (Function.update jobNode t none) (ts.erase t) := by
  have hnd := h.nodup
  obtain ⟨ns, hp, htask, hnode, hnone⟩ := h
  obtain ⟨ts₁, ts₂, rfl⟩ := List.append_of_mem ht
  rw [List.map_append, List.map_cons] at htask hnode
  obtain ⟨ns₁, ns', rfl, htask₁, htask'⟩ := List.map_eq_append_iff.mp htask
  obtain ⟨n, ns₂, rfl, htn, htask₂⟩ := List.map_eq_cons_iff.mp htask'
  have hlen : (ns₁.map some).length = (ts₁.map jobNode).length := by
    simpa using congrArg List.length htask₁
  rw [List.map_append, List.map_cons] at hnode
  obtain ⟨hnode₁, hnode'⟩ := List.append_inj hnode hlen
  obtain ⟨hn, hnode₂⟩ := List.cons.inj hnode'
  obtain ⟨pool', l', heq, hrep, hkeep⟩ := hp.remove () rfl
  have hnot : t ∉ ts₁ ∧ t ∉ ts₂ := by
    have h' := hnd
    rw [List.nodup_append] at h'
    exact ⟨fun hin => h'.2.2 t hin t (by simp) rfl, (List.nodup_cons.mp h'.2.1).1⟩
  have herase : (ts₁ ++ t :: ts₂).erase t = ts₁ ++ ts₂ := by
    rw [List.erase_append_right _ hnot.1, List.erase_cons_head]
  refine ⟨pool', l', ?_, ns₁ ++ ns₂, ?_, ?_, ?_, fun u hu => ?_⟩
  · rw [← hn, heq, htn]
  · have hl : Function.update (fun _ : Unit => list) () l' = fun _ => l' := by
      funext u
      simp
    have hs : Function.update (fun _ : Unit => ns₁ ++ n :: ns₂) () (ns₁ ++ ns₂)
        = fun _ => ns₁ ++ ns₂ := by
      funext u
      simp
    rw [hl, hs] at hrep
    exact hrep
  · rw [herase, hkeep, List.map_append, List.map_append, htask₁, htask₂]
  · rw [herase, List.map_append, List.map_append, map_update_of_not_mem hnot.1,
      map_update_of_not_mem hnot.2, hnode₁, hnode₂]
  · by_cases hut : u = t
    · subst hut
      simp
    · rw [Function.update_of_ne hut]
      rw [herase] at hu
      refine hnone u fun hin => hu ?_
      simp only [List.mem_append, List.mem_cons] at hin ⊢
      tauto

/-- A descriptor without a node fails the assertion of `task_list_remove_node`. -/
theorem remove_not_mem (h : JobsRep pool list jobNode ts) {t : TaskPtr} (ht : t ∉ ts) :
    taskListRemoveNode pool list (jobNode t) = .error .taskListRemoveNode := by
  obtain ⟨ns, -, -, -, hnone⟩ := h
  rw [hnone t ht]
  rfl

/-- Writing other fields of the descriptors changes nothing. -/
theorem congr (h : JobsRep pool list jobNode ts) {jobNode' : TaskPtr → Option NodePtr}
    (heq : ∀ t, jobNode' t = jobNode t) : JobsRep pool list jobNode' ts := by
  obtain rfl : jobNode' = jobNode := funext heq
  exact h

/-- The walk of `get_task_by_tid` over a segment of the queue. -/
theorem findTask_seg {ns : List NodePtr} {task : TaskPtr → Task} {tid : ℤ} {o : Option NodePtr}
    (hseg : Seg pool.next o ns none) (htask : ns.map pool.task = ts.map some) {n : ℕ}
    (hn : ns.length ≤ n) :
    findTask pool task tid n o = .ok (ts.find? fun t => (task t).tid = tid) := by
  induction ns generalizing o ts n with
  | nil =>
    obtain rfl := hseg
    obtain rfl : ts = [] := by simpa using htask.symm
    cases n <;> rfl
  | cons m ns ih =>
    obtain ⟨rfl, hrest⟩ := hseg
    cases n with
    | zero => simp at hn
    | succ n =>
      cases ts with
      | nil => simp at htask
      | cons t ts =>
        obtain ⟨hm, htask'⟩ := List.cons.inj htask
        have hm' : (pool.nodes m).task = some t := hm
        have hstep := ih hrest htask' (by simpa using hn : ns.length ≤ n)
        simp only [findTask, hm', deref, ok_bind]
        by_cases htid : (task t).tid = tid
        · simp [htid]
        · rw [if_neg htid, List.find?_cons_of_neg (by simpa using htid)]
          exact hstep

/-- **`get_task_by_tid`** finds the first live task with the given tid. -/
theorem findTask_eq (h : JobsRep pool list jobNode ts) (task : TaskPtr → Task) (tid : ℤ) :
    findTask pool task tid maxTaskNum list.head
      = .ok (ts.find? fun t => (task t).tid = tid) := by
  obtain ⟨ns, hp, htask, -, -⟩ := h
  exact findTask_seg (hp.linked ()).forward htask (length_le_maxTaskNum hp ())

end JobsRep

end RealtimeKernel
