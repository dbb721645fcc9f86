import RealtimeKernel.SchedulerConsistency

/-!
# Rings of senders

While tasks reply only to tasks that wait for a reply, and no task sends to itself, the rings hold
the tids of live tasks in state `WATISEND`, each once over all rings.  The running task is in no
ring and no task is in its own, so a ring holds at most 62 tids when a sender is registered, and
the 63 usable slots of a ring of capacity 64 always suffice.
-/

namespace RealtimeKernel

open Lib

namespace AbsKernel

/-- No ring holds the tid of its own task. -/
def NoSelf (a : AbsKernel) : Prop := ∀ r ∈ a.jobq, ofInt (a.task r).tid ∉ a.rings r

/-- A Send does not name the task that makes it. -/
def SendOk (a : AbsKernel) (trap : Trap) : Prop :=
  trap.syscall = some .send → ∀ c, a.currentTask = some c →
    a.getTaskByTid (toInt32 (trap.x 0)) ≠ some c

variable {a a' m : AbsKernel} {img : Image} {c : TaskPtr} {trap : Trap}

/-- Rings that lose entries or are emptied, over the same live tasks or new ones. -/
theorem NoSelf.mono (h : a.NoSelf)
    (hr : ∀ r ∈ a'.jobq, (r ∈ a.jobq ∧ (a'.task r).tid = (a.task r).tid ∧
      ∀ e ∈ a'.rings r, e ∈ a.rings r) ∨ a'.rings r = []) : a'.NoSelf := by
  intro r hrj hin
  rcases hr r hrj with ⟨hj, htid, hsub⟩ | hnil
  · exact h r hj (htid ▸ hsub _ hin)
  · simp [hnil] at hin

theorem NoSelf.enters (h : a.NoSelf) (he : Enters a trap c m) : m.NoSelf := by
  cases he with
  | @intro a₁ rq hr pop state =>
    have h₁ : a₁.NoSelf := by
      cases hr with
      | running => exact h.mono fun r hj => Or.inl ⟨hj, by simp, by simp [rings]⟩
      | blocked => exact h
      | gone => exact h
    refine h₁.mono fun r hj => Or.inl ⟨hj, ?_, ?_⟩
    · by_cases hrc : r = c
      · subst hrc
        simp [dispatch, saveContext]
      · simp [dispatch, hrc]
    · by_cases hrc : r = c
      · subst hrc
        simp [rings, dispatch, saveContext]
      · simp [rings, dispatch, hrc]

theorem NoSelf.effect (h : a.NoSelf) (ho : a.Orderly) (hc : a.currentTask = some c)
    (hrun : (a.task c).state = .running) (hx : (a.task c).x = trap.x) (hsend : a.SendOk trap)
    (he : Effect img a c trap a') : a'.NoSelf := by
  cases he with
  | ignored => exact h
  | yielded => exact h
  | toldTid => exact h.mono fun r hj => Or.inl ⟨hj, by simp, by simp [rings]⟩
  | toldParentTid => exact h.mono fun r hj => Or.inl ⟨hj, by simp, by simp [rings]⟩
  | @created t free block used call hfree alloc room push =>
    refine h.mono fun r hj => ?_
    by_cases hrt : r = t
    · subst hrt
      exact Or.inr (by simp [rings, addTask, newTask, taskInit])
    · left
      have hj' : r ∈ a.jobq := by simpa [addTask, hrt] using hj
      exact ⟨hj', by simp [addTask, hrt], by simp [rings, addTask, hrt]⟩
  | createFailed => exact h.mono fun r hj => Or.inl ⟨hj, by simp, by simp [rings]⟩
  | exited =>
    refine h.mono fun r hj => ?_
    obtain ⟨hrc, hj'⟩ := ho.jobq_nodup.mem_erase_iff.mp hj
    exact Or.inl ⟨hj', by simp [removed, hrc], by simp [rings, removed, hrc]⟩
  | sendNoTask => exact h.mono fun r hj => Or.inl ⟨hj, by simp, by simp [rings]⟩
  | sendDirect => exact h.mono fun r hj => Or.inl ⟨hj, by simp, by simp [rings]⟩
  | @sendQueued r call lookup state room =>
    have hlive : c ∈ a.jobq := ho.live_of_state (by rw [hrun]; decide)
    have hrj : r ∈ a.jobq := WellFormed.mem_of_lookup lookup
    have hcr : c ≠ r := fun he => hsend call c hc (hx ▸ he ▸ lookup)
    intro u hu hin
    rw [setState_tid, modify_field a r _ Task.tid rfl] at hin
    by_cases hur : u = r
    · subst hur
      have hring : ((a.modify u fun _ => (registerSender (a.task u) (a.task c).tid).2).setState c
          .watisend).rings u = a.rings u ++ [ofInt (a.task c).tid] := by
        simp [rings, registerSender_contents (ho.ring u) room]
      rw [hring, List.mem_append, List.mem_singleton] at hin
      rcases hin with hin | heq
      · exact h u hrj hin
      · exact hcr (ho.ofInt_tid_inj hrj hlive heq).symm
    · refine h u hu ?_
      simpa [rings, hur] using hin
  | sendFull => exact h.mono fun r hj => Or.inl ⟨hj, by simp, by simp [rings]⟩
  | receiveBlocked => exact h.mono fun r hj => Or.inl ⟨hj, by simp, by simp [rings]⟩
  | receiveVanished call nonempty lookup =>
    obtain ⟨s, -, -, hl, -⟩ := ho.toRings.nextSender ho.toWellFormed nonempty
    rw [lookup] at hl
    cases hl
  | @received s call nonempty lookup state =>
    obtain ⟨s', -, hring, -, -⟩ := ho.toRings.nextSender ho.toWellFormed nonempty
    refine h.mono fun r hj => Or.inl ⟨hj, ?_, ?_⟩
    · rw [setState_tid, assign_tid, setMem_task, (task_nextSender a c r).1]
    · by_cases hrc : r = c
      · subst hrc
        intro e he
        rw [hring]
        refine List.mem_cons_of_mem _ ?_
        simpa [rings] using he
      · simp [rings, hrc]
  | replyNoTask => exact h.mono fun r hj => Or.inl ⟨hj, by simp, by simp [rings]⟩
  | replied => exact h.mono fun r hj => Or.inl ⟨hj, by simp, by simp [rings]⟩
  | repliedRunning => exact h.mono fun r hj => Or.inl ⟨hj, by simp, by simp [rings]⟩
  | awaited =>
    refine h.mono fun r hj => Or.inl ⟨hj, setState_tid a c _ r, fun e he => ?_⟩
    rwa [show ∀ b : AbsKernel, b.rings r = (b.task r).senders.contents from fun _ => rfl,
      setState_senders] at he
  | tickIdle => exact h
  | tickWoke => exact h.mono fun r hj => Or.inl ⟨hj, by simp, by simp [rings]⟩

/-- **A ring without its own task has room for the running task.** -/
theorem Orderly.ring_room (ho : a.Orderly) (hrun : (a.task c).state = .running) {r : TaskPtr}
    (hr : r ∈ a.jobq) (hcr : c ≠ r) (hself : ofInt (a.task r).tid ∉ a.rings r) :
    (a.task r).senders.used + 1 < 64 := by
  have hlive : c ∈ a.jobq := ho.live_of_state (by rw [hrun]; decide)
  have hnd : (a.rings r).Nodup := List.nodup_iff_count_le_one.mpr fun e =>
    (count_le_occurs a.rings r e).trans (ho.once e)
  have hsub : a.rings r ⊆ ((a.jobq.erase c).erase r).map fun s => ofInt (a.task s).tid := by
    intro e he
    obtain ⟨s, hsj, rfl, hst⟩ := ho.sender r e he
    have hsc : s ≠ c := by
      rintro rfl
      rw [hrun] at hst
      cases hst
    have hsr : s ≠ r := by
      rintro rfl
      exact hself he
    refine List.mem_map_of_mem ?_
    exact (ho.jobq_nodup.erase c).mem_erase_iff.mpr
      ⟨hsr, ho.jobq_nodup.mem_erase_iff.mpr ⟨hsc, hsj⟩⟩
  have hlen := (List.subperm_of_subset hnd hsub).length_le
  have hrc : r ∈ a.jobq.erase c := ho.jobq_nodup.mem_erase_iff.mpr ⟨hcr.symm, hr⟩
  have hpos : 0 < (a.jobq.erase c).length := List.length_pos_of_mem hrc
  rw [List.length_map, List.length_erase_of_mem hrc, List.length_erase_of_mem hlive] at hlen
  rw [List.length_erase_of_mem hlive] at hpos
  have hcap := ho.jobq_room
  have hused : (a.rings r).length = (a.task r).senders.used := Queue.contents_length
  simp only [maxTaskNum] at hcap
  omega

theorem Reaches.noSelf {b : Boot} {h : List (Iter AbsKernel Trap)} (r : Reaches b h a)
    (hok : ∀ i ∈ h, i.mid.ReplyOk i.input) (hsend : ∀ i ∈ h, i.mid.SendOk i.input) :
    a.NoSelf := by
  obtain ⟨a₀, ha₀, hrun⟩ := r
  obtain ⟨a₁, ha₁, ho, hfresh⟩ := boot_ok b
  obtain rfl : a₀ = a₁ := Except.ok.inj (ha₀.symm.trans ha₁)
  refine (hrun.invariant (I := fun a => a.Orderly ∧ a.NoSelf)
    (P := fun i => i.mid.ReplyOk i.input ∧ i.mid.SendOk i.input) ⟨ho, ?_⟩
    (fun i hi => ⟨hok i hi, hsend i hi⟩) ?_).2
  · intro r _ hin
    simp [hfresh.ring] at hin
  · intro s trap m s' hs hP hm hs'
    obtain ⟨c, hst⟩ := step_of_body b.img hm hs'
    obtain ⟨hom, hos⟩ := hst.orderly hs.1 hP.1
    obtain ⟨hc, hr, hx, -⟩ := hst.enters.current
    exact ⟨hos, (hs.2.enters hst.enters).effect hom hc hr hx hP.2 hst.effect⟩

end AbsKernel

/-- A Send does not name the task that makes it. -/
def Kernel.SendOk (k : Kernel) (trap : Trap) : Prop :=
  trap.syscall = some .send → ∀ c, k.currentTask = some c →
    getTaskByTid k (toInt32 (trap.x 0)) ≠ .ok (some c)

instance (k : Kernel) (trap : Trap) : Decidable (k.SendOk trap) :=
  inferInstanceAs (Decidable (_ → ∀ _, _ → ¬ _))

theorem Rep.sendOk {k : Kernel} {a : AbsKernel} (h : Rep k a) {trap : Trap}
    (hok : k.SendOk trap) : a.SendOk trap := by
  intro hcall c hc hl
  rw [h.currentTask_eq] at hc
  exact hok hcall c hc (by rw [h.getTaskByTid_eq, hl])

/-- The rings of the live tasks hold live tasks in state `WATISEND`, each once over all rings, and
the ring of a task that waits for a message is empty. -/
structure SenderRings (k : Kernel) : Prop where
  sender : ∀ r ∈ k.live, ∀ e ∈ k.ring r,
    ∃ s ∈ k.live, e = ofInt (k.task s).tid ∧ (k.task s).state = .watisend
  nodup : ∀ r ∈ k.live, (k.ring r).Nodup
  disjoint : ∀ r ∈ k.live, ∀ r' ∈ k.live, r ≠ r' → (k.ring r).Disjoint (k.ring r')
  waiting : ∀ r ∈ k.live, (k.task r).state = .waitreceive → k.ring r = []

theorem Rep.senderRings {k : Kernel} {a : AbsKernel} (h : Rep k a) (ho : a.Orderly) :
    SenderRings k := by
  refine ⟨fun r _ e he => ?_, fun r _ => ?_, fun r _ r' _ hne => ?_, fun r _ hs => ?_⟩
  · rw [← h.ring_eq] at he
    obtain ⟨s, hsj, rfl, hst⟩ := ho.sender r e he
    exact ⟨s, h.live_eq ▸ hsj, by rw [h.tid_eq], by rw [← h.state_eq]; exact hst⟩
  · rw [← h.ring_eq]
    exact List.nodup_iff_count_le_one.mpr fun e =>
      (count_le_occurs a.rings r e).trans (ho.once e)
  · rw [← h.ring_eq, ← h.ring_eq]
    intro e he he'
    exact hne (eq_of_occurs_le_one (ho.once e) he he')
  · rw [← h.ring_eq]
    exact ho.waiting r (by rw [h.state_eq]; exact hs)

/-- **The rings of senders.**  In every run in which Replies name tasks in state `WATIREPLY` and
no task sends to itself, the rings are as `SenderRings` says, at the loop heads and when a trap is
handled.  A Send that is to be queued finds room in the ring, and a Receive finds the task of the
tid it takes from its ring. -/
theorem sender_rings (b : Boot) (h : List (Iter Kernel Trap)) (k : Kernel)
    (r : b.Reaches h k) (hreply : ∀ i ∈ h, i.mid.ReplyOk i.input)
    (hsend : ∀ i ∈ h, i.mid.SendOk i.input) :
    SenderRings k ∧
    ∀ trap m c, enterTrap k trap = .ok m → m.currentTask = some c →
      SenderRings m ∧
      (trap.syscall = some .send → m.SendOk trap →
        ∀ r, getTaskByTid m (toInt32 ((m.task c).x 0)) = .ok (some r) →
          (registerSender (m.task r) (m.task c).tid).1 = true) ∧
      (trap.syscall = some .receive → queueIsEmpty (m.task c).senders = false →
        ∃ s, getTaskByTid m (nextSender (m.task c)).1 = .ok (some s)) := by
  obtain ⟨h', a, r', hka, hh, hreply', ho⟩ := r.orderly hreply
  have hsend' : ∀ j ∈ h', j.mid.SendOk j.input :=
    Loop.forall_of_forall₂ hh hsend fun i j hij hi => hij.input ▸ hij.mid.sendOk hi
  refine ⟨hka.senderRings ho, fun trap m c hm hcur => ?_⟩
  obtain ⟨a', ha', hrep⟩ := (hka.enterTrap trap).ok_left hm
  obtain ⟨c', hent⟩ := AbsKernel.enterTrap_enters.mp ha'
  obtain ⟨hc, hrun, hx, -⟩ := hent.current
  obtain rfl : c = c' := by
    rw [hrep.currentTask_eq, hcur] at hc
    exact Option.some.inj hc
  have hom := ho.enters hent
  have hself := (r'.noSelf hreply' hsend').enters hent
  refine ⟨hrep.senderRings hom, fun hcall hok r hr => ?_, fun hcall hne => ?_⟩
  · have hl : a'.getTaskByTid (toInt32 ((m.task c).x 0)) = some r := by
      have := hrep.getTaskByTid_eq (toInt32 ((m.task c).x 0))
      rw [hr] at this
      exact (Except.ok.inj this).symm
    have hxm : (m.task c).x = trap.x := by rw [← hrep.x_eq, hx]
    have hcr : c ≠ r := by
      rintro rfl
      exact (hrep.sendOk hok) hcall c hc (hxm ▸ hl)
    have hrj := AbsKernel.WellFormed.mem_of_lookup hl
    have hroom := hom.ring_room hrun hrj hcr (hself r hrj)
    have hring : (m.task r).senders.Ring := by
      have := hom.ring r
      rwa [hrep.task_eq] at this
    have hused : (a'.task r).senders = (m.task r).senders := by
      rw [hrep.task_eq]
      rfl
    rw [hused] at hroom
    refine (Queue.push_fst hring.ok _).mpr ?_
    rw [hring.capacity]
    exact hroom
  · have hsenders : (a'.task c).senders = (m.task c).senders := by
      rw [hrep.task_eq]
      rfl
    obtain ⟨s, -, -, hl, -⟩ := hom.toRings.nextSender hom.toWellFormed (c := c)
      (by rw [hsenders]; exact hne)
    refine ⟨s, ?_⟩
    rw [hrep.getTaskByTid_eq, ← hl]
    simp only [nextSender, hsenders]

/-- A run in which a Send is queued. -/
theorem sender_rings_run :
    ∃ hist k, zeroBoot.Reaches hist k ∧ k.ring 1 = [0] ∧ SenderRings k := by
  obtain ⟨hist, k, r, -, hk⟩ := Boot.reaches_of_check zeroBoot
    [svc 1 [7, 0], svc 21 [0], svc 21 [1]]
    (fun h k => decide (k.ring 1 = [0] ∧ (∀ i ∈ h, i.mid.ReplyOk i.input) ∧
      ∀ i ∈ h, i.mid.SendOk i.input)) (by decide +kernel)
  obtain ⟨hring, hreply, hsend⟩ := of_decide_eq_true hk
  exact ⟨hist, k, r, hring, (sender_rings zeroBoot hist k r hreply hsend).1⟩

end RealtimeKernel
