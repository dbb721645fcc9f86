import Mathlib.Data.List.TakeWhile
import RealtimeKernel.RoundRobin

/-!
# Waiting for a turn

A ready task that is not activated is passed by tasks of its priority that were ahead of it in the
ready queue, each of them once and in their order: a task that ran, blocked or exited comes back
behind it.  All other tasks that run in the meantime have a higher priority.
-/

namespace RealtimeKernel

open Lib

/-- The tasks of priority `p` that the iterations activate, in order. -/
def passing (p : ℤ) (w : List (Iter Kernel Trap)) : List TaskPtr :=
  w.filterMap fun i => i.mid.currentTask.filter fun c => (i.mid.task c).priority = p

/-- The tasks ahead of `t` in the ready queue of its priority. -/
def Kernel.ahead (k : Kernel) (t : TaskPtr) : List TaskPtr :=
  (k.ready (k.task t).prio).takeWhile (· ≠ t)

/-- What is added behind an element does not come before it. -/
theorem takeWhile_ne_append {α : Type} [DecidableEq α] {t : α} {l : List α} (ht : t ∈ l)
    (l' : List α) : (l ++ l').takeWhile (· ≠ t) = l.takeWhile (· ≠ t) := by
  induction l with
  | nil => cases ht
  | cons u l ih =>
    rw [List.cons_append, List.takeWhile_cons, List.takeWhile_cons]
    by_cases hu : u = t
    · simp [hu]
    · rcases List.mem_cons.mp ht with rfl | ht
      · exact absurd rfl hu
      · rw [ih ht]

namespace AbsKernel

variable {a a' m : AbsKernel} {img : Image} {c t : TaskPtr} {trap : Trap} {o : Option TaskPtr}

def ahead (a : AbsKernel) (t : TaskPtr) : List TaskPtr :=
  (a.readyq (a.task t).prio).takeWhile (· ≠ t)

theorem Consistent.mem_readyq (h : a.Consistent) (ht : (a.task t).state = .ready) :
    t ∈ a.readyq (a.task t).prio := by
  have hocc := h.ready t
  rw [if_pos ht] at hocc
  obtain ⟨q, hq⟩ := (occurs_pos_iff a.readyq t).mp (by omega)
  rwa [h.ready_prio q t hq]

/-- The tasks ahead are ready tasks of the same priority, each of them once. -/
theorem Consistent.ahead_nodup (h : a.Consistent) (t : TaskPtr) : (a.ahead t).Nodup := by
  refine List.Nodup.sublist (List.takeWhile_sublist _) (List.nodup_iff_count_le_one.mpr fun u => ?_)
  have hle := count_le_occurs a.readyq (a.task t).prio u
  have hocc := h.ready u
  split at hocc <;> omega

theorem self_notMem_ahead : t ∉ a.ahead t := by
  intro ht
  simpa using List.mem_takeWhile_imp ht

/-- A task that becomes ready goes behind. -/
theorem Wakes.ahead (hw : Wakes a o a') (h : a.Consistent) (ht : (a.task t).state = .ready) :
    a'.ahead t = a.ahead t := by
  have hmem := h.mem_readyq ht
  unfold AbsKernel.ahead
  rw [hw.prio t ht, hw.queue]
  cases o with
  | none => rfl
  | some u =>
    show (pushAt a.readyq (a'.task u).prio u (a.task t).prio).takeWhile _ = _
    by_cases hp : (a.task t).prio = (a'.task u).prio
    · rw [pushAt, hp, Function.update_self]
      exact takeWhile_ne_append (hp ▸ hmem) [u]
    · rw [pushAt, Function.update_of_ne hp]

/-- The task that is activated was ahead of `t`, or it has a higher priority. -/
theorem dispatch_ahead {rq : Fin taskPriorityMax → List TaskPtr} (h : a.Orderly)
    (pop : popHighest a.readyq = some (c, rq)) (ht : (a.task t).state = .ready) (hct : c ≠ t) :
    (a.task t).priority ≤ (a.task c).priority ∧
      (if (a.task c).priority = (a.task t).priority then [c] else []) ++
        (a.dispatch c rq trap).ahead t = a.ahead t := by
  obtain ⟨p, rest, hp, hhigh, rfl⟩ := popHighest_eq_some.mp pop
  have hcp : (a.task c).prio = p := h.ready_prio p c (by simp [hp])
  have htm := h.toConsistent.mem_readyq ht
  have hle : (a.task t).prio ≤ p := by
    by_contra hlt
    rw [hhigh _ (not_le.mp hlt)] at htm
    cases htm
  rw [← Task.prio_val (h.prio t), ← Task.prio_val (h.prio c), hcp]
  refine ⟨by exact_mod_cast hle, ?_⟩
  have hprio : ((a.dispatch c (Function.update a.readyq p rest) trap).task t).prio =
      (a.task t).prio := by
    rw [dispatch_task_of_ne _ _ _ _ hct.symm]
  unfold AbsKernel.ahead
  rw [hprio]
  show _ ++ (Function.update a.readyq p rest _).takeWhile _ = _
  by_cases he : p = (a.task t).prio
  · rw [if_pos (by rw [he]), ← he, Function.update_self, hp, List.takeWhile_cons,
      if_pos (by simpa using hct)]
    rfl
  · have hne : ¬ ((p : ℕ) : ℤ) = ((a.task t).prio : ℕ) := fun hv =>
      he (Fin.ext (by exact_mod_cast hv))
    rw [if_neg hne, Function.update_of_ne fun hv => he hv.symm]
    rfl

/-- **One iteration** in which `t` is not activated. -/
theorem Step.ahead (hst : Step img a trap c m a') (h : a.Orderly) (hok : m.ReplyOk trap)
    (ht : (a.task t).state = .ready) (hct : c ≠ t) :
    (a'.task t).state = .ready ∧ (a'.task t).priority = (a.task t).priority ∧
      (a.task t).priority ≤ (m.task c).priority ∧
      (if (m.task c).priority = (a.task t).priority then [c] else []) ++ a'.ahead t =
        a.ahead t := by
  obtain ⟨hom, hoa⟩ := hst.orderly h hok
  obtain ⟨hc, hrun, hx, -⟩ := hst.enters.current
  obtain ⟨o, hw, -⟩ := hst.effect.wakes hom hc hrun hx hok
  cases hst.enters with
  | @intro a₁ rq hr pop state =>
    have ho₁ := h.requeue hr
    have ht₁ : (a₁.task t).state = .ready := (hr.wakes.ready t).mpr (Or.inl ht)
    have htm : ((a₁.dispatch c rq trap).task t) = a₁.task t :=
      dispatch_task_of_ne _ _ _ _ hct.symm
    have hcm : ((a₁.dispatch c rq trap).task c).priority = (a₁.task c).priority := by
      simp [dispatch, saveContext]
    obtain ⟨hle, happ⟩ : _ ∧ _ ++ (a₁.dispatch c rq trap).ahead t = _ :=
      dispatch_ahead ho₁ pop ht₁ hct
    have ht₂ : ((a₁.dispatch c rq trap).task t).state = .ready := by rw [htm, ht₁]
    have hprio : (a'.task t).prio = ((a₁.dispatch c rq trap).task t).prio := hw.prio t ht₂
    rw [hcm, ← hr.priority t, ← hr.wakes.ahead h.toConsistent ht,
      hw.ahead hom.toConsistent ht₂]
    refine ⟨(hw.ready t).mpr (Or.inl ht₂), ?_, hle, happ⟩
    rw [← Task.prio_val (hoa.prio t), ← Task.prio_val (ho₁.prio t), hprio, htm]

end AbsKernel

theorem Rep.ahead_eq {k : Kernel} {a : AbsKernel} (h : Rep k a) (t : TaskPtr) :
    a.ahead t = k.ahead t := by
  have hprio : (a.task t).prio = (k.task t).prio := by
    simp only [Task.prio, h.priority_eq]
  rw [AbsKernel.ahead, Kernel.ahead, h.ready_eq, hprio]

/-- **A ready task waits for its turn.**  From any reachable state, as long as a ready task is not
activated it stays ready, only tasks of its own or a higher priority run, and those of its own
priority are the ones ahead of it in the ready queue, at most 63, each once and in order. -/
theorem bounded_waiting (b : Boot) {h w : List (Iter Kernel Trap)} {k k' : Kernel}
    (r : b.Reaches h k) (run : (kmainLoop b.img).Run k w k')
    (hok : ∀ i ∈ h ++ w, i.mid.ReplyOk i.input) {t : TaskPtr} (ht : (k.task t).state = .ready)
    (hw : ∀ i ∈ w, i.mid.currentTask ≠ some t) :
    (k'.task t).state = .ready ∧
      (∀ i ∈ w, ∃ c, i.mid.currentTask = some c ∧
        (k.task t).priority ≤ (i.mid.task c).priority) ∧
      passing (k.task t).priority w ++ k'.ahead t = k.ahead t ∧
      (k.ahead t).Nodup ∧ (k.ahead t).length < taskPoolSize := by
  obtain ⟨a, hrep, ho, -⟩ := r.inOrder fun i hi => hok i (List.mem_append_left _ hi)
  have hlen : (k.ahead t).Nodup ∧ (k.ahead t).length < taskPoolSize := by
    rw [← hrep.ahead_eq]
    have hnodup := ho.toConsistent.ahead_nodup t
    refine ⟨hnodup, ?_⟩
    have hcons := (List.nodup_cons.mpr ⟨AbsKernel.self_notMem_ahead, hnodup⟩).length_le_card
    rw [Fintype.card_fin, List.length_cons] at hcons
    omega
  have hrun := run.history
    (I := fun w k' => ∃ a', Rep k' a' ∧ a'.Orderly ∧ (k'.task t).state = .ready ∧
      (k'.task t).priority = (k.task t).priority ∧
      (∀ i ∈ w, ∃ c, i.mid.currentTask = some c ∧
        (k.task t).priority ≤ (i.mid.task c).priority) ∧
      passing (k.task t).priority w ++ k'.ahead t = k.ahead t)
    (P := fun i => i.mid.ReplyOk i.input ∧ i.mid.currentTask ≠ some t)
    ⟨a, hrep, ho, ht, rfl, by simp, rfl⟩
    (fun i hi => ⟨hok i (List.mem_append_right _ hi), hw i hi⟩) ?_
  · obtain ⟨-, -, -, hready, -, hhigh, happ⟩ := hrun
    exact ⟨hready, hhigh, happ, hlen⟩
  · rintro w k₁ trap m k₂ - - ⟨a₁, hrep₁, ho₁, ht₁, hprio₁, hhigh, happ⟩ ⟨hreply, hne⟩ hm hk₂
    obtain ⟨c, m', a₂, hrepm, hrep₂, hst⟩ := hrep₁.iteration b.img hm hk₂
    have hcur : m.currentTask = some c := by
      rw [← hrepm.currentTask_eq]
      exact hst.enters.current.1
    have hct : c ≠ t := by
      rintro rfl
      exact hne hcur
    have hreply' := hrepm.replyOk hreply
    have ht₁' : (a₁.task t).state = .ready := by rw [hrep₁.state_eq, ht₁]
    obtain ⟨ht₂, hprio₂, hle, hahead⟩ := hst.ahead ho₁ hreply' ht₁' hct
    rw [hrep₂.priority_eq, hrep₁.priority_eq, hprio₁] at hprio₂
    rw [hrep₁.priority_eq, hrepm.priority_eq, hprio₁] at hle
    rw [hrepm.priority_eq, hrep₁.priority_eq, hprio₁, hrep₁.ahead_eq, hrep₂.ahead_eq] at hahead
    refine ⟨a₂, hrep₂, (hst.orderly ho₁ hreply').2, by rw [← hrep₂.state_eq, ht₂], hprio₂, ?_, ?_⟩
    · intro i hi
      rcases List.mem_append.mp hi with hi | hi
      · exact hhigh i hi
      · rw [List.mem_singleton.mp hi]
        exact ⟨c, hcur, hle⟩
    · rw [← happ, ← hahead, ← List.append_assoc, passing, passing, List.filterMap_append]
      congr 2
      simp only [List.filterMap_cons, List.filterMap_nil, hcur, Option.filter_some]
      by_cases he : (m.task c).priority = (k.task t).priority
      · simp [he]
      · simp [he]

/-- Task 0 is ahead of task 3 and passes it when it yields. -/
theorem bounded_waiting_run : ∃ h w k k', zeroBoot.Reaches h k ∧
    (kmainLoop zeroBoot.img).Run k w k' ∧ k.ahead 3 = [0] ∧ w.length = 1 ∧
    passing (k.task 3).priority w ++ k'.ahead 3 = k.ahead 3 := by
  obtain ⟨h, k, r, -, hk⟩ := Boot.reaches_of_check zeroBoot [svc 1 [5], svc 1 [5]]
    (fun h k => decide ((∀ i ∈ h, i.mid.ReplyOk i.input) ∧ (k.task 3).state = .ready ∧
      k.ahead 3 = [0]) && returns ((kmainLoop zeroBoot.img).exec k [svc 2 []]) fun (w, _) =>
        decide (w.length = 1 ∧ ∀ i ∈ w, i.mid.ReplyOk i.input ∧ i.mid.currentTask ≠ some 3))
    (by decide +kernel)
  obtain ⟨hk, hw⟩ := Bool.and_eq_true_iff.mp hk
  obtain ⟨hok, ht, hahead⟩ := of_decide_eq_true hk
  obtain ⟨⟨w, k'⟩, hexec, hw⟩ := returns_iff.mp hw
  obtain ⟨hlen, hw⟩ := of_decide_eq_true hw
  obtain ⟨run, -⟩ := Loop.run_of_exec hexec
  have hwait := bounded_waiting zeroBoot r run
    (fun i hi => (List.mem_append.mp hi).elim (hok i) fun hi => (hw i hi).1) ht
    fun i hi => (hw i hi).2
  exact ⟨h, w, k, k', r, run, hahead, hlen, hwait.2.2.1⟩

end RealtimeKernel
