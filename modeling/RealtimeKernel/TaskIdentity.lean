import RealtimeKernel.ExitedPartners

/-!
# Tids and the job queue

The tids that a run hands out can be read off its history: the two of the boot and those that
Creates told their callers.  They are the numbers from zero on, so none is used twice, and the job
queue lists the tasks that got one and have not exited, in the order of their creation.
`get_task_by_tid` finds these tasks and no others, and the `job_node` of each leads back to it.
-/

namespace RealtimeKernel

open Lib

/-- The tid that an iteration hands out: the result of a Create, unless it failed. -/
def issued (i : Iter Kernel Trap) : Option ℤ :=
  if i.input.syscall = some .create then
    match i.mid.currentTask with
    | some c =>
      if 0 ≤ toInt32 (i.next.task c).result then some (toInt32 (i.next.task c).result) else none
    | none => none
  else none

/-- The tid of the task whose Exit an iteration handles. -/
def exitedTid (i : Iter Kernel Trap) : Option ℤ :=
  if i.input.syscall = some .exit then i.mid.currentTask.map fun c => (i.mid.task c).tid else none

/-- The tids handed out so far, oldest first; `init_tasks` creates the first two tasks. -/
def issuedTids (h : List (Iter Kernel Trap)) : List ℤ := [0, 1] ++ h.filterMap issued

/-- The tids of the tasks that have exited. -/
def exitedTids (h : List (Iter Kernel Trap)) : List ℤ := h.filterMap exitedTid

/-- The nodes of the job queue, from head to tail. -/
def Kernel.jobNodes (k : Kernel) : List NodePtr :=
  follow k.jobqPool.next maxTaskNum k.jobq.head

/-- The job queue and `get_task_by_tid` identify the tasks of the history. -/
structure Identified (h : List (Iter Kernel Trap)) (k : Kernel) : Prop where
  nodup : (issuedTids h).Nodup
  exited : ∀ v ∈ exitedTids h, v ∈ issuedTids h
  order : k.live.map (fun t => (k.task t).tid)
    = (issuedTids h).filter fun v => v ∉ exitedTids h
  jobNode : ∀ t ∈ k.live, ∃ n ∈ k.jobNodes, (k.task t).jobNode = some n ∧
    (k.jobqPool.nodes n).task = some t
  found : ∀ v ∈ issuedTids h, v ∉ exitedTids h →
    ∃ t ∈ k.live, (k.task t).tid = v ∧ getTaskByTid k v = .ok (some t) ∧
      ∀ u ∈ k.live, (k.task u).tid = v → u = t
  missing : ∀ v, v ∉ issuedTids h ∨ v ∈ exitedTids h → getTaskByTid k v = .ok none

theorem issuedTids_snoc (h : List (Iter Kernel Trap)) (i : Iter Kernel Trap) :
    issuedTids (h ++ [i]) = issuedTids h ++ (issued i).toList := by
  unfold issuedTids
  rw [filterMap_snoc, List.append_assoc]

theorem exitedTids_snoc (h : List (Iter Kernel Trap)) (i : Iter Kernel Trap) :
    exitedTids (h ++ [i]) = exitedTids h ++ (exitedTid i).toList := by
  unfold exitedTids
  rw [filterMap_snoc]

/-- What the history says about the tids, in terms of the counter and the job queue. -/
structure AbsKernel.Numbered (h : List (Iter Kernel Trap)) (a : AbsKernel) : Prop where
  issued : issuedTids h = (List.range a.taskIdCnt.toNat).map Int.ofNat
  exited : ∀ v ∈ exitedTids h, v ∈ issuedTids h
  order : a.jobq.map (fun t => (a.task t).tid)
    = (issuedTids h).filter fun v => v ∉ exitedTids h

namespace AbsKernel

variable {h : List (Iter Kernel Trap)} {img : Image} {i : Iter Kernel Trap} {a a' m : AbsKernel}
  {c : TaskPtr} {trap : Trap}

theorem WellFormed.count_range (h : a.WellFormed) :
    0 ≤ a.taskIdCnt ∧ a.taskIdCnt ≤ maxTaskNum := by
  have hcount := h.count
  have hlen : a.free.length ≤ maxTaskNum := by simpa using h.free_nodup.length_le_card
  omega

theorem Numbered.enters (hn : Numbered h a) (hw : a.WellFormed) (he : Enters a trap c m) :
    Numbered h m := by
  obtain ⟨hj, -, htid, -⟩ := he.traffic
  obtain ⟨-, -, hcount, -⟩ := he.task_free hw
  refine ⟨by rw [hcount]; exact hn.issued, hn.exited, ?_⟩
  rw [hj, ← hn.order]
  exact List.map_congr_left fun t _ => htid t

theorem Numbered.lt (hn : Numbered h a) {v : ℤ} (hv : v ∈ issuedTids h) :
    0 ≤ v ∧ v < a.taskIdCnt := by
  rw [hn.issued, List.mem_map] at hv
  obtain ⟨n, hlt, rfl⟩ := hv
  rw [List.mem_range] at hlt
  constructor
  · exact Int.natCast_nonneg n
  · show (n : ℤ) < a.taskIdCnt
    omega

/-- The tids of the live tasks other than `c` are those other than that of `c`. -/
theorem WellFormed.map_tid_erase (h : a.WellFormed) (hc : c ∈ a.jobq) :
    (a.jobq.erase c).map (fun t => (a.task t).tid)
      = (a.jobq.map fun t => (a.task t).tid).filter fun v => v ≠ (a.task c).tid := by
  rw [h.jobq_nodup.erase_eq_filter c, List.filter_map]
  congr 1
  refine List.filter_congr fun t ht => ?_
  by_cases htc : t = c
  · simp [htc]
  · have htid : (a.task t).tid ≠ (a.task c).tid := fun he => htc (h.tid_inj t ht c hc he)
    simp [htc, htid]

/-- One handler keeps the tids numbered. -/
theorem Numbered.effect (hn : Numbered h m) (hw : m.WellFormed) (hc : m.currentTask = some c)
    (he : Effect img m c i.input a') (hm : Rep i.mid m) (hr : Rep i.next a') :
    Numbered (h ++ [i]) a' := by
  have hcur : i.mid.currentTask = some c := by rw [← hm.currentTask_eq, hc]
  have htold : (i.next.task c).result = (a'.task c).result := by
    rw [hr.task_eq]
    rfl
  have hmap : ∀ ts : List TaskPtr, (∀ t ∈ ts, t ∈ m.jobq ∧ t ∈ a'.jobq) →
      ts.map (fun t => (a'.task t).tid) = ts.map fun t => (m.task t).tid :=
    fun ts hts => List.map_congr_left fun t ht => (he.kept hw (hts t ht).1 (hts t ht).2).2
  obtain ⟨hpos, hmax⟩ := hw.count_range
  cases he.turnover with
  | exited call live jobq free count =>
    have hissued : RealtimeKernel.issued i = none := by simp [RealtimeKernel.issued, call]
    have hexited : exitedTid i = some (m.task c).tid := by
      simp [exitedTid, call, hcur, hm.tid_eq]
    have hin : (m.task c).tid ∈ issuedTids h := by
      have hmem : (m.task c).tid ∈ m.jobq.map fun t => (m.task t).tid :=
        List.mem_map_of_mem live
      rw [hn.order] at hmem
      exact List.mem_of_mem_filter hmem
    refine ⟨?_, fun v hv => ?_, ?_⟩
    · rw [issuedTids_snoc, hissued, count]
      simpa using hn.issued
    · rw [exitedTids_snoc, hexited, List.mem_append] at hv
      rw [issuedTids_snoc, hissued]
      rcases hv with hv | hv
      · simpa using hn.exited v hv
      · rw [List.mem_singleton.mp hv]
        simpa using hin
    · rw [hmap _ fun t ht => ⟨List.mem_of_mem_erase (jobq ▸ ht), ht⟩, jobq,
        hw.map_tid_erase live, hn.order, List.filter_filter, issuedTids_snoc, exitedTids_snoc,
        hissued, hexited]
      simp only [Option.toList_none, List.append_nil, Option.toList_some]
      refine List.filter_congr fun v _ => ?_
      simp [Bool.and_comm]
  | @created t call jobq free count tid told =>
    have hcnt : toInt32 (i.next.task c).result = m.taskIdCnt := by
      rw [htold, told, toInt32_ofInt]
      · omega
      · simp only [maxTaskNum] at hmax
        omega
    have hissued : RealtimeKernel.issued i = some m.taskIdCnt := by
      simp [RealtimeKernel.issued, call, hcur, hcnt, hpos]
    have hexited : exitedTid i = none := by simp [exitedTid, call]
    refine ⟨?_, fun v hv => ?_, ?_⟩
    · have hnat : (m.taskIdCnt + 1).toNat = m.taskIdCnt.toNat + 1 := by omega
      rw [issuedTids_snoc, hissued, count, hnat, List.range_succ, List.map_append, hn.issued]
      simp [hpos]
    · rw [exitedTids_snoc, hexited] at hv
      rw [issuedTids_snoc]
      exact List.mem_append_left _ (hn.exited v (by simpa using hv))
    · have hnew : m.taskIdCnt ∉ exitedTids h := fun hin => by
        have := (hn.lt (hn.exited _ hin)).2
        omega
      rw [jobq, List.map_append, hmap _ fun u hu => ⟨hu, jobq ▸ List.mem_append_left _ hu⟩,
        hn.order, issuedTids_snoc, exitedTids_snoc, hissued, hexited]
      simp [tid, hnew]
  | kept call jobq free count told =>
    have hissued : RealtimeKernel.issued i = none := by
      by_cases hcall : i.input.syscall = some .create
      · have hneg : toInt32 (i.next.task c).result = -1 := by
          rw [htold, told hcall]
          decide
        simp [RealtimeKernel.issued, hcall, hcur, hneg]
      · simp [RealtimeKernel.issued, hcall]
    have hexited : exitedTid i = none := by simp [exitedTid, call]
    refine ⟨?_, fun v hv => ?_, ?_⟩
    · rw [issuedTids_snoc, hissued, count]
      simpa using hn.issued
    · rw [exitedTids_snoc, hexited] at hv
      rw [issuedTids_snoc]
      exact List.mem_append_left _ (hn.exited v (by simpa using hv))
    · rw [hmap _ fun u hu => ⟨jobq ▸ hu, hu⟩, jobq, hn.order, issuedTids_snoc, exitedTids_snoc,
        hissued, hexited]
      simp

/-- `create_task` with a free descriptor appends a task with the next tid. -/
theorem WellFormed.createTask_tids {priority parentTid : ℤ} {func : U64} {o : Option TaskPtr}
    (h : a.WellFormed) (hfree : a.free ≠ [])
    (hc : a.createTask img priority func parentTid = .ok (o, a')) :
    a'.taskIdCnt = a.taskIdCnt + 1 ∧
      a'.jobq.map (fun t => (a'.task t).tid)
        = a.jobq.map (fun t => (a.task t).tid) ++ [a.taskIdCnt] := by
  rcases createTask_eq_ok.mp hc with ⟨hnil, -, -⟩ |
    ⟨t, free, block, used, hcons, -, -, -, -, rfl⟩
  · exact absurd hnil hfree
  · have ht : t ∉ a.jobq := h.free_jobq t (by simp [hcons])
    refine ⟨rfl, ?_⟩
    rw [makeReady_jobq, AbsKernel.addTask, List.map_append]
    congr 1
    · refine List.map_congr_left fun u hu => ?_
      have hut : u ≠ t := fun he => ht (he ▸ hu)
      simp [AbsKernel.setState, hut]
    · simp [AbsKernel.setState, newTask]

/-- The boot hands out the tids 0 and 1. -/
theorem boot_numbered {b : Boot} (hb : boot b = .ok a) : Numbered [] a := by
  have ho := orderly_init b
  obtain ⟨o₁, a₁, o₂, h₁, ho₁, h₂, -⟩ := boot_created hb
  have hfree₀ : (init b).free ≠ [] := List.ne_nil_of_mem (List.mem_finRange 0)
  obtain ⟨hcnt₁, htid₁⟩ := ho.toWellFormed.createTask_tids hfree₀ h₁
  have hzero : (init b).taskIdCnt = 0 := rfl
  have hfree₁ : a₁.free ≠ [] := by
    intro hnil
    have hcount := ho₁.count
    rw [hnil, hcnt₁, hzero] at hcount
    exact absurd hcount (by decide)
  obtain ⟨hcnt₂, htid₂⟩ := ho₁.toWellFormed.createTask_tids hfree₁ h₂
  have hjobq : (init b).jobq = [] := rfl
  rw [hjobq, hzero] at htid₁
  rw [hzero] at hcnt₁
  refine ⟨?_, by simp [exitedTids], ?_⟩
  · rw [hcnt₂, hcnt₁]
    rfl
  · rw [htid₂, htid₁, hcnt₁]
    rfl

end AbsKernel

/-- **The tids of a run are numbered.** -/
theorem Boot.Reaches.numbered {b : Boot} {h : List (Iter Kernel Trap)} {k : Kernel}
    (r : b.Reaches h k) : ∃ a, Rep k a ∧ a.WellFormed ∧ a.Numbered h := by
  obtain ⟨k₀, hk₀, hrun⟩ := r
  refine hrun.history (I := fun h k => ∃ a, Rep k a ∧ a.WellFormed ∧ a.Numbered h)
    (P := fun _ => True) ?_ (fun _ _ => trivial) ?_
  · obtain ⟨a₀, ha₀, ho, -⟩ := AbsKernel.boot_ok b
    obtain ⟨a₁, ha₁, hrep⟩ := Refines.ok_left (y := AbsKernel.boot b) b.kernel_refines hk₀
    obtain rfl : a₀ = a₁ := Except.ok.inj (ha₀.symm.trans ha₁)
    exact ⟨a₀, hrep, ho.toWellFormed, AbsKernel.boot_numbered ha₀⟩
  · rintro h k trap m k' - - ⟨a, hrep, hw, hn⟩ - hm hk'
    obtain ⟨c, m', a', hrepm, hrep', hst⟩ := hrep.iteration b.img hm hk'
    obtain ⟨hwm, hwa⟩ := hst.wellFormed hw
    have hmid := hn.enters hw hst.enters
    exact ⟨a', hrep', hwa, hmid.effect (i := ⟨k, trap, m, k'⟩) hwm hst.enters.current.1 hst.effect
      hrepm hrep'⟩

/-- A `job_node` is the node of the job queue that points back to its task. -/
theorem JobsRep.jobNode_mem {pool : TaskNodePool} {list : TaskList}
    {jobNode : TaskPtr → Option NodePtr} {ts : List TaskPtr} (h : JobsRep pool list jobNode ts)
    {t : TaskPtr} (ht : t ∈ ts) :
    ∃ n ∈ follow pool.next maxTaskNum list.head, jobNode t = some n ∧
      (pool.nodes n).task = some t := by
  obtain ⟨ns, hp, htask, hnode, -⟩ := h
  obtain ⟨ts₁, ts₂, rfl⟩ := List.append_of_mem ht
  rw [List.map_append, List.map_cons] at htask hnode
  obtain ⟨ns₁, ns', rfl, htask₁, htask'⟩ := List.map_eq_append_iff.mp htask
  obtain ⟨n, ns₂, rfl, htn, -⟩ := List.map_eq_cons_iff.mp htask'
  have hlen : (ns₁.map some).length = (ts₁.map jobNode).length := by
    simpa using congrArg List.length htask₁
  rw [List.map_append, List.map_cons] at hnode
  have hn := (List.cons.inj (List.append_inj hnode hlen).2).1
  refine ⟨n, ?_, hn.symm, htn⟩
  rw [(hp.linked ()).forward.follow_eq (length_le_maxTaskNum hp ())]
  simp

/-- **Task lookup and identity.**  After any run the tids handed out are distinct, the job queue
lists the tasks that have not exited in the order of creation, each with a `job_node` that leads
back to it, and `get_task_by_tid` finds just these; an Exit takes the task that makes it out of
the job queue, and no other. -/
theorem task_identity (b : Boot) (h : List (Iter Kernel Trap)) (k : Kernel)
    (r : b.Reaches h k) :
    Identified h k ∧
    ∀ i ∈ h, i.input.syscall = some .exit →
      ∃ c, i.mid.currentTask = some c ∧ c ∈ i.mid.live ∧
        i.next.live = i.mid.live.filter fun t => t ≠ c := by
  obtain ⟨a, hrep, hw, hn⟩ := r.numbered
  have htids : k.live.map (fun t => (k.task t).tid)
      = (issuedTids h).filter fun v => v ∉ exitedTids h := by
    rw [← hn.order, hrep.live_eq]
    exact List.map_congr_left fun t _ => (hrep.tid_eq t).symm
  have hmem : ∀ v, v ∈ k.live.map (fun t => (k.task t).tid) ↔
      v ∈ issuedTids h ∧ v ∉ exitedTids h := fun v => by
    rw [htids]
    simp
  refine ⟨⟨?_, hn.exited, htids, fun t ht => ?_, fun v hv hlive => ?_, fun v hv => ?_⟩,
    fun i hi call => ?_⟩
  · rw [hn.issued]
    exact List.nodup_range.map fun m n hmn => Int.ofNat.inj hmn
  · exact hrep.jobs.jobNode_mem (hrep.live_eq ▸ ht)
  · obtain ⟨t, ht, rfl⟩ := List.mem_map.mp ((hmem v).mpr ⟨hv, hlive⟩)
    have hta : t ∈ a.jobq := hrep.live_eq ▸ ht
    refine ⟨t, ht, rfl, ?_, fun u hu htid => ?_⟩
    · rw [hrep.getTaskByTid_eq, ← hrep.tid_eq, hw.lookup_eq hta]
    · rw [← hrep.tid_eq, ← hrep.tid_eq] at htid
      exact hw.tid_inj u (hrep.live_eq ▸ hu) t hta htid
  · rw [hrep.getTaskByTid_eq]
    cases hl : a.getTaskByTid v with
    | none => rfl
    | some t =>
      have hin : v ∈ k.live.map fun t => (k.task t).tid := by
        rw [← AbsKernel.WellFormed.tid_of_lookup hl, hrep.tid_eq, hrep.live_eq]
        exact List.mem_map_of_mem (AbsKernel.WellFormed.mem_of_lookup hl)
      obtain ⟨hv₁, hv₂⟩ := (hmem v).mp hin
      exact absurd hv (by tauto)
  · obtain ⟨h₁, h₂, rfl⟩ := List.append_of_mem hi
    obtain ⟨k₀, hk₀, hrun⟩ := r
    obtain ⟨hhead, hm, hk', -⟩ := hrun.split rfl
    obtain ⟨a₁, hrep₁, hw₁, -⟩ := Boot.Reaches.numbered ⟨k₀, hk₀, hhead⟩
    obtain ⟨c, m', a', hrepm, hrep', hst⟩ := hrep₁.iteration b.img hm hk'
    refine ⟨c, by rw [← hrepm.currentTask_eq, hst.enters.current.1], ?_⟩
    rw [hrepm.live_eq, hrep'.live_eq]
    cases hst.effect.turnover with
    | exited _ live jobq =>
      refine ⟨live, ?_⟩
      rw [jobq, (hst.wellFormed hw₁).1.jobq_nodup.erase_eq_filter c]
      refine List.filter_congr fun t _ => ?_
      by_cases htc : t = c
      · simp [htc]
      · simp [htc]
    | created call' => exact absurd (call.symm.trans call') (by decide)
    | kept call' => exact absurd call call'

/-- A task is created, its creator exits, and another one is created. -/
theorem task_identity_run : ∃ hist k, zeroBoot.Reaches hist k ∧ issuedTids hist = [0, 1, 2, 3] ∧
    exitedTids hist = [0] ∧ Identified hist k := by
  obtain ⟨hist, k, r, -, hk⟩ := Boot.reaches_of_check zeroBoot
    [svc 1 [5], svc 2 [], svc 3 [], svc 1 [5]]
    (fun h _ => decide (issuedTids h = [0, 1, 2, 3] ∧ exitedTids h = [0])) (by decide +kernel)
  obtain ⟨hissued, hexited⟩ := of_decide_eq_true hk
  exact ⟨hist, k, r, hissued, hexited, (task_identity zeroBoot hist k r).1⟩

end RealtimeKernel
