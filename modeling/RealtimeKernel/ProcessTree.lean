import RealtimeKernel.TaskFates
import RealtimeKernel.TaskIdentity

/-!
# The tree of processes

A task remembers the tid of the task that created it.  The history of a run says who that was for
every tid that was ever handed out, and `MyParentTid` tells a task just this, also when its parent
has exited: tids are not used again, so the tid of a parent stays the name of one task.
-/

namespace RealtimeKernel

open Lib

/-- The tid of the caller of an iteration that hands out a tid. -/
def issuer (i : Iter Kernel Trap) : Option ℤ :=
  match issued i, i.mid.currentTask with
  | some _, some c => some (i.mid.task c).tid
  | _, _ => none

/-- The parents of the tids 0, 1, 2 and so on; `init_tasks` creates the first two. -/
def parents (h : List (Iter Kernel Trap)) : List ℤ := [-1, -1] ++ h.filterMap issuer

/-- The `n`-th ancestor of a tid; `-1` is the parent of the tasks of the boot. -/
def ancestor (ps : List ℤ) : ℕ → ℤ → ℤ
  | 0, tid => tid
  | n + 1, tid => ancestor ps n (if 0 ≤ tid then ps.getD tid.toNat (-1) else -1)

/-- The parents are older than their children. -/
def Older (ps : List ℤ) : Prop := ∀ (n : ℕ) (p : ℤ), ps[n]? = some p → -1 ≤ p ∧ p < n

theorem Older.snoc {ps : List ℤ} (h : Older ps) {p : ℤ} (hp : -1 ≤ p ∧ p < ps.length) :
    Older (ps ++ [p]) := by
  intro n q hq
  rcases Nat.lt_or_ge n ps.length with hn | hn
  · rw [List.getElem?_append_left hn] at hq
    exact h n q hq
  · rw [List.getElem?_append_right hn, List.getElem?_singleton] at hq
    split at hq
    · obtain rfl := Option.some.inj hq
      omega
    · cases hq

/-- Nobody is its own ancestor: every line ends with a task of the boot. -/
theorem Older.ancestor {ps : List ℤ} (h : Older ps) {n : ℕ} {tid : ℤ} (hl : -1 ≤ tid)
    (hu : tid < n) : ancestor ps n tid = -1 := by
  induction n generalizing tid with
  | zero =>
    rw [RealtimeKernel.ancestor]
    omega
  | succ n ih =>
    rw [RealtimeKernel.ancestor]
    split
    · rw [List.getD_eq_getElem?_getD]
      cases hp : ps[tid.toNat]? with
      | none =>
        have hroot : (-1 : ℤ) < n := by omega
        exact ih le_rfl hroot
      | some p =>
        obtain ⟨hlp, hup⟩ := h _ _ hp
        have hlt : p < n := by omega
        exact ih hlp hlt
    · exact ih le_rfl (by omega)

theorem parents_snoc (h : List (Iter Kernel Trap)) (i : Iter Kernel Trap) :
    parents (h ++ [i]) = parents h ++ (issuer i).toList := by
  unfold parents
  rw [filterMap_snoc, List.append_assoc]

/-- What the history says about a tid, it says for ever. -/
theorem parents_append (h l : List (Iter Kernel Trap)) :
    parents (h ++ l) = parents h ++ l.filterMap issuer := by
  unfold parents
  rw [List.filterMap_append, List.append_assoc]

theorem length_issued (h : List (Iter Kernel Trap)) :
    (parents h).length = (issuedTids h).length := by
  have hlen : ∀ i : Iter Kernel Trap, (issuer i).isSome = (issued i).isSome := by
    intro i
    unfold issuer
    split
    · rename_i hi hc
      rw [hi]
      rfl
    · rename_i hno
      cases hi : issued i with
      | none => rfl
      | some v =>
        cases hc : i.mid.currentTask with
        | none => simp [issued, hc] at hi
        | some c => exact (hno v c hi hc).elim
  induction h using List.reverseRecOn with
  | nil => rfl
  | append_singleton h i ih =>
    rw [parents_snoc, issuedTids_snoc, List.length_append, List.length_append, ih]
    congr 1
    have := hlen i
    cases hp : issuer i <;> cases hi : issued i <;> simp_all

theorem issuer_eq {i : Iter Kernel Trap} {p : ℤ} {c : TaskPtr} (hp : issuer i = some p)
    (hc : i.mid.currentTask = some c) : p = (i.mid.task c).tid := by
  unfold issuer at hp
  split at hp
  · rename_i hc'
    rw [hc] at hc'
    obtain rfl := Option.some.inj hc'
    exact (Option.some.inj hp).symm
  · cases hp

namespace AbsKernel

variable {h : List (Iter Kernel Trap)} {img : Image} {i : Iter Kernel Trap} {a a' m : AbsKernel}
  {c t : TaskPtr} {trap : Trap}

/-- The parents that the tasks remember are those of the history. -/
structure Descends (h : List (Iter Kernel Trap)) (a : AbsKernel) : Prop where
  older : Older (parents h)
  live : ∀ t ∈ a.jobq, (parents h)[(a.task t).tid.toNat]? = some (a.task t).parentTid

theorem Numbered.length (hn : Numbered h a) : (parents h).length = a.taskIdCnt.toNat := by
  rw [length_issued, hn.issued]
  simp

/-- A descriptor has a tid that was handed out, or `-1`. -/
theorem WellFormed.tid_range (h : a.WellFormed) (t : TaskPtr) :
    -1 ≤ (a.task t).tid ∧ (a.task t).tid < a.taskIdCnt := by
  obtain ⟨hpos, -⟩ := h.count_range
  by_cases ht : t ∈ a.jobq
  · have := h.live_tid t ht
    omega
  · have := h.dead_tid t ht
    omega

theorem Enters.parentTid (he : Enters a trap c m) (t : TaskPtr) :
    (m.task t).parentTid = (a.task t).parentTid := by
  cases he with
  | @intro a₁ rq hr pop state =>
    have h₁ : (a₁.task t).parentTid = (a.task t).parentTid := by
      cases hr with
      | running => simp
      | blocked => rfl
      | gone => rfl
    rw [← h₁]
    by_cases htc : t = c
    · subst htc
      simp [dispatch, saveContext]
    · rw [dispatch_task_of_ne _ _ _ _ htc]

theorem Descends.enters (hd : Descends h a) (he : Enters a trap c m) : Descends h m := by
  obtain ⟨hj, -, htid, -⟩ := he.traffic
  refine ⟨hd.older, fun t ht => ?_⟩
  rw [htid t, he.parentTid t]
  exact hd.live t (hj ▸ ht)

/-- The parent of a new task is the task that made the Create. -/
theorem Effect.created_parentTid (he : Effect img m c trap a')
    (call : trap.syscall = some .create) {u : TaskPtr} (jobq : a'.jobq = m.jobq ++ [u]) :
    (a'.task u).parentTid = (m.task c).tid := by
  have hno : m.jobq ≠ m.jobq ++ [u] := fun he => by simpa using congrArg List.length he
  cases he with
  | @created t =>
    obtain rfl : t = u := by
      have hj : m.jobq ++ [t] = m.jobq ++ [u] := jobq
      simpa using hj
    simp [addTask, newTask]
  | exited call' => exact absurd (call.symm.trans call') (by decide)
  | ignored | yielded | toldTid | toldParentTid | createFailed | sendNoTask | sendDirect
  | sendQueued | sendFull | receiveBlocked | receiveVanished | received | replyNoTask | replied
  | repliedRunning | awaited | tickIdle | tickWoke => exact absurd jobq hno

/-- **One handler** keeps the tree. -/
theorem Descends.effect (hd : Descends h m) (hn : Numbered h m) (hw : m.WellFormed)
    (hc : m.currentTask = some c) (he : Effect img m c i.input a')
    (hm : Rep i.mid m) (hn' : Numbered (h ++ [i]) a') : Descends (h ++ [i]) a' := by
  have hcur : i.mid.currentTask = some c := by rw [← hm.currentTask_eq, hc]
  have hlen := hn'.length
  rw [parents_snoc, List.length_append, hn.length] at hlen
  obtain ⟨hpos, -⟩ := hw.count_range
  have hold : ∀ t, t ∈ m.jobq → t ∈ a'.jobq →
      (parents (h ++ [i]))[(a'.task t).tid.toNat]? = some (a'.task t).parentTid := by
    intro t ht ht'
    have hat := hd.live t ht
    have hlt := (List.getElem?_eq_some_iff.mp hat).1
    rw [(he.kept hw ht ht').2, he.parentTid hw ht ht', parents_snoc,
      List.getElem?_append_left hlt, hat]
  have hsame : a'.taskIdCnt = m.taskIdCnt → parents (h ++ [i]) = parents h := by
    intro count
    rw [count] at hlen
    have hnil : (issuer i).toList = [] := List.eq_nil_of_length_eq_zero (by omega)
    rw [parents_snoc, hnil, List.append_nil]
  cases he.turnover with
  | exited call live jobq free count =>
    exact ⟨hsame count ▸ hd.older,
      fun t ht => hold t (List.mem_of_mem_erase (jobq ▸ ht)) ht⟩
  | kept call jobq free count told =>
    exact ⟨hsame count ▸ hd.older, fun t ht => hold t (jobq ▸ ht) ht⟩
  | @created u call jobq free count tid told =>
    have hp : issuer i = some (m.task c).tid := by
      cases hp : issuer i with
      | none =>
        rw [hp, count] at hlen
        simp only [Option.toList_none, List.length_nil] at hlen
        omega
      | some p =>
        rw [issuer_eq hp hcur, hm.tid_eq]
    have hsnoc : parents (h ++ [i]) = parents h ++ [(m.task c).tid] := by
      rw [parents_snoc, hp]
      rfl
    have hlength := hn.length
    obtain ⟨hl, hu⟩ := hw.tid_range c
    refine ⟨hsnoc ▸ hd.older.snoc ⟨by omega, by omega⟩, fun t ht => ?_⟩
    rcases List.mem_append.mp (jobq ▸ ht) with ht' | ht'
    · exact hold t ht' ht
    · rw [List.mem_singleton.mp ht', tid, he.created_parentTid call jobq, hsnoc, ← hlength,
        List.getElem?_concat_length]

theorem createTask_root {priority : ℤ} {func : U64} {o : Option TaskPtr}
    (h : ∀ t ∈ a.jobq, (a.task t).parentTid = -1) (hw : a.WellFormed)
    (hc : a.createTask img priority func (-1) = .ok (o, a')) :
    ∀ t ∈ a'.jobq, (a'.task t).parentTid = -1 := by
  rcases createTask_eq_ok.mp hc with ⟨-, -, rfl⟩ |
    ⟨u, free, block, used, hfree, -, -, -, -, rfl⟩
  · exact h
  · intro t ht
    by_cases htu : t = u
    · simp [htu, addTask, newTask]
    · have ht' : t ∈ a.jobq := by simpa [addTask, htu] using ht
      simpa [addTask, htu] using h t ht'

theorem boot_descends {b : Boot} (hb : boot b = .ok a) : Descends [] a := by
  have ho := orderly_init b
  obtain ⟨o₁, a₁, o₂, h₁, ho₁, h₂, hoa⟩ := boot_created hb
  have hnone : ∀ t ∈ (init b).jobq, ((init b).task t).parentTid = -1 := by
    intro t ht
    cases ht
  have hroot := createTask_root (createTask_root hnone ho.toWellFormed h₁) ho₁.toWellFormed h₂
  have hn := boot_numbered hb
  refine ⟨fun n p hp => ?_, fun t ht => ?_⟩
  · match n, hp with
    | 0, hp =>
      obtain rfl : -1 = p := Option.some.inj hp
      exact ⟨le_rfl, by decide⟩
    | 1, hp =>
      obtain rfl : -1 = p := Option.some.inj hp
      exact ⟨le_rfl, by decide⟩
  · obtain ⟨hl, hu⟩ := hoa.live_tid t ht
    have hlen : 2 = a.taskIdCnt.toNat := hn.length
    rw [hroot t ht]
    obtain h₀ | h₀ : (a.task t).tid.toNat = 0 ∨ (a.task t).tid.toNat = 1 := by omega
    · rw [h₀]
      rfl
    · rw [h₀]
      rfl

end AbsKernel

/-- **Along a run the tasks remember their parents.** -/
theorem Boot.Reaches.descends {b : Boot} {h : List (Iter Kernel Trap)} {k : Kernel}
    (r : b.Reaches h k) : ∃ a, Rep k a ∧ a.WellFormed ∧ a.Numbered h ∧ a.Descends h := by
  obtain ⟨k₀, hk₀, hrun⟩ := r
  refine hrun.history
    (I := fun h k => ∃ a, Rep k a ∧ a.WellFormed ∧ a.Numbered h ∧ a.Descends h)
    (P := fun _ => True) ?_ (fun _ _ => trivial) ?_
  · obtain ⟨a₀, ha₀, ho, -⟩ := AbsKernel.boot_ok b
    obtain ⟨a₁, ha₁, hrep⟩ := Refines.ok_left (y := AbsKernel.boot b) b.kernel_refines hk₀
    obtain rfl : a₀ = a₁ := Except.ok.inj (ha₀.symm.trans ha₁)
    exact ⟨a₀, hrep, ho.toWellFormed, AbsKernel.boot_numbered ha₀, AbsKernel.boot_descends ha₀⟩
  · rintro h k trap m k' - - ⟨a, hrep, hw, hn, hd⟩ - hm hk'
    obtain ⟨c, m', a', hrepm, hrep', hst⟩ := hrep.iteration b.img hm hk'
    obtain ⟨hwm, hwa⟩ := hst.wellFormed hw
    have hc := hst.enters.current.1
    have hnm := hn.enters hw hst.enters
    have hdm := hd.enters hst.enters
    have hna := hnm.effect (i := ⟨k, trap, m, k'⟩) hwm hc hst.effect hrepm hrep'
    exact ⟨a', hrep', hwa, hna, hdm.effect (i := ⟨k, trap, m, k'⟩) hnm hwm hc hst.effect hrepm
      hna⟩

/-- A call of `MyParentTid` tells the caller the tid of the task that created it. -/
theorem Boot.Reaches.told_parent {b : Boot} {h : List (Iter Kernel Trap)} {k : Kernel}
    (r : b.Reaches h k) {i : Iter Kernel Trap} (hi : i ∈ h)
    (call : i.input.syscall = some .myParentTid) {c : TaskPtr}
    (hc : i.mid.currentTask = some c) (hlive : c ∈ i.mid.live) :
    (parents h)[(i.mid.task c).tid.toNat]? = some (toInt32 (i.next.task c).result) := by
  obtain ⟨h₁, h₂, rfl⟩ := List.append_of_mem hi
  obtain ⟨k₀, hk₀, hrun⟩ := r
  obtain ⟨hhead, hm, hk', -⟩ := hrun.split rfl
  obtain ⟨a, hrep, hw, hn, hd⟩ := Boot.Reaches.descends ⟨k₀, hk₀, hhead⟩
  obtain ⟨c', m', a', hrepm, hrep', hst⟩ := hrep.iteration b.img hm hk'
  have hcur := hst.enters.current.1
  rw [hrepm.currentTask_eq, hc] at hcur
  obtain rfl := Option.some.inj hcur
  obtain ⟨hwm, -⟩ := hst.wellFormed hw
  have hdm := hd.enters hst.enters
  have hat := hdm.live c (hrepm.live_eq ▸ hlive)
  have hlt := (List.getElem?_eq_some_iff.mp hat).1
  obtain ⟨hl, hu⟩ := hd.older _ _ hat
  have hmax := (hn.enters hw hst.enters).length
  have hcnt := hwm.count_range.2
  simp only [maxTaskNum] at hcnt
  have hres : (i.next.task c).result = ofInt (m'.task c).parentTid := by
    have heq : (i.next.task c).result = (a'.task c).result := by
      rw [hrep'.task_eq]
      rfl
    rw [heq]
    generalize hin : i.input = trap at call
    have he := hst.effect
    rw [hin] at he
    cases he with
    | toldParentTid => simp [AbsKernel.assign, assignResult]
    | _ => simp_all [Trap.syscall]
  rw [hres, toInt32_ofInt (by omega) (by omega), ← hat, ← hrepm.tid_eq, parents_append,
    List.getElem?_append_left hlt]

/-- **The tasks form a tree.**  After any run each live task remembers the tid of the task that
created it, which is what `MyParentTid` told it whenever it asked; parents are older than their
children, so every line of ancestors, from any tid that was ever handed out, ends with a task of the
boot. -/
theorem process_tree (b : Boot) {h : List (Iter Kernel Trap)} {k : Kernel} (r : b.Reaches h k) :
    (parents h).length = (issuedTids h).length ∧ Older (parents h) ∧
      (∀ v ∈ issuedTids h, ancestor (parents h) maxTaskNum v = -1) ∧
      (∀ t ∈ k.live, (parents h)[(k.task t).tid.toNat]? = some (k.task t).parentTid ∧
        ancestor (parents h) maxTaskNum (k.task t).tid = -1) ∧
      ∀ i ∈ h, i.input.syscall = some .myParentTid → ∀ c ∈ i.mid.live,
        i.mid.currentTask = some c →
          (parents h)[(i.mid.task c).tid.toNat]? = some (toInt32 (i.next.task c).result) := by
  obtain ⟨a, hrep, hw, hn, hd⟩ := r.descends
  refine ⟨length_issued h, hd.older, fun v hv => ?_, fun t ht => ?_, fun i hi call c hlive hc =>
    r.told_parent hi call hc hlive⟩
  · obtain ⟨hpos, hlt⟩ := hn.lt hv
    have hmax := hw.count_range.2
    exact hd.older.ancestor (by omega) (by omega)
  have hta : t ∈ a.jobq := hrep.live_eq ▸ ht
  have hparent : (a.task t).parentTid = (k.task t).parentTid := by
    rw [hrep.task_eq]
    rfl
  obtain ⟨hl, hu⟩ := hw.tid_range t
  obtain ⟨-, hmax⟩ := hw.count_range
  rw [← hrep.tid_eq, ← hparent]
  exact ⟨hd.live t hta, hd.older.ancestor hl (by omega)⟩

/-- A task whose parent has exited asks for it. -/
theorem process_tree_run : ∃ h k, zeroBoot.Reaches h k ∧ parents h = [-1, -1, 0, 2] ∧
    exitedTids h = [2, 0] ∧ Older (parents h) ∧
    (∀ t ∈ k.live, ancestor (parents h) maxTaskNum (k.task t).tid = -1) ∧
    ∃ i ∈ h, i.input.syscall = some .myParentTid ∧
      (parents h)[3]? = some (toInt32 (i.next.task 3).result) := by
  obtain ⟨h, k, r, -, hk⟩ := Boot.reaches_of_check zeroBoot
    [svc 1 [6], svc 1 [4], svc 3 [], svc 3 [], svc 12 []]
    (fun h _ => decide (parents h = [-1, -1, 0, 2] ∧ exitedTids h = [2, 0] ∧
      ∃ i ∈ h, i.input.syscall = some .myParentTid ∧ i.mid.currentTask = some 3 ∧
        (3 : TaskPtr) ∈ i.mid.live ∧ (i.mid.task 3).tid = 3)) (by decide +kernel)
  obtain ⟨hparents, hexited, i, hi, call, hc, hlive, htid⟩ := of_decide_eq_true hk
  obtain ⟨-, holder, -, hroot, htold⟩ := process_tree zeroBoot r
  have hasked := htold i hi call 3 hlive hc
  rw [htid] at hasked
  exact ⟨h, k, r, hparents, hexited, holder, fun t ht => (hroot t ht).2, i, hi, call, hasked⟩

end RealtimeKernel
