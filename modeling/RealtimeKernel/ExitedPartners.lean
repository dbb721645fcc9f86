import RealtimeKernel.Traffic

/-!
# Tasks whose partner has exited

`remove_current_task` wakes nobody.  A task whose Send is queued with the task that exits, or whose
message that task has received, stays blocked for ever.  Nothing else separates a blocked sender
from its partner: in a run none of whose Exits strands a sender, every sender that waits to be
received is in the ring of a live task, and every sender that waits for its reply was received by a
live task.
-/

namespace RealtimeKernel

open Lib

/-- Every blocked sender has a live partner. -/
structure Attended (h : List (Iter Kernel Trap)) (k : Kernel) : Prop where
  send : ∀ s ∈ k.live, (k.task s).state = .watisend →
    ∃ r ∈ k.live, ofInt (k.task s).tid ∈ k.ring r
  reply : ∀ s ∈ k.live, (k.task s).state = .watireply → ∃ r ∈ k.live, receivedBy h s = some r

/-- No live task waits for the task `c` alone. -/
structure Unneeded (h : List (Iter Kernel Trap)) (k : Kernel) (c : TaskPtr) : Prop where
  send : ∀ s ∈ k.live, (k.task s).state = .watisend →
    ∃ r ∈ k.live, r ≠ c ∧ ofInt (k.task s).tid ∈ k.ring r
  reply : ∀ s ∈ k.live, (k.task s).state = .watireply → receivedBy h s ≠ some c

namespace AbsKernel

variable {a a' m : AbsKernel} {img : Image} {c s : TaskPtr} {trap : Trap}

/-- `Attended` without pointers, given who received the message of each sender. -/
structure Attended (by' : TaskPtr → Option TaskPtr) (a : AbsKernel) : Prop where
  send : ∀ s ∈ a.jobq, (a.task s).state = .watisend →
    ∃ r ∈ a.jobq, ofInt (a.task s).tid ∈ a.rings r
  reply : ∀ s ∈ a.jobq, (a.task s).state = .watireply → ∃ r ∈ a.jobq, by' s = some r

/-- The rings of tasks that are not live are empty. -/
def DeadRings (a : AbsKernel) : Prop := ∀ t, t ∉ a.jobq → a.rings t = []

theorem Attended.enters {by' : TaskPtr → Option TaskPtr} (h : a.Attended by')
    (he : Enters a trap c m) : m.Attended by' := by
  obtain ⟨hj, hrings, htid, hstate⟩ := he.traffic
  refine ⟨fun s hs hw => ?_, fun s hs hw => ?_⟩
  · rw [hj] at hs ⊢
    rw [hrings, htid]
    exact h.send s hs ((hstate s).resolve_right (fun hno => hno (Or.inl hw)) ▸ hw)
  · rw [hj] at hs ⊢
    exact h.reply s hs ((hstate s).resolve_right (fun hno => hno (Or.inr hw)) ▸ hw)

theorem DeadRings.enters (h : a.DeadRings) (he : Enters a trap c m) : m.DeadRings := by
  obtain ⟨hj, hrings, -, -⟩ := he.traffic
  intro t ht
  rw [hrings]
  exact h t (hj ▸ ht)

theorem DeadRings.traffic (h : a.DeadRings) (hw : a.WellFormed) (ht : Traffic a c trap a') :
    a'.DeadRings := by
  intro t hdead
  cases ht with
  | quiet still =>
    rw [still.rings t fun _ => hdead]
    exact h t fun hj => hdead (still.live t hj)
  | exited call live jobq ring rings dead state =>
    by_cases htc : t = c
    · rw [htc, ring]
    · rw [rings t htc]
      refine h t fun hj => hdead ?_
      rw [jobq]
      exact hw.jobq_nodup.mem_erase_iff.mpr ⟨htc, hj⟩
  | direct call lookup wait jobq rings =>
    rw [rings]
    exact h t (jobq ▸ hdead)
  | @queued r call lookup jobq ring rings =>
    have htr : t ≠ r := by
      rintro rfl
      exact hdead (jobq ▸ WellFormed.mem_of_lookup lookup)
    rw [rings t htr]
    exact h t (jobq ▸ hdead)
  | vanished call jobq ring gone rings =>
    by_cases htc : t = c
    · subst htc
      rw [h t (jobq ▸ hdead)] at ring
      cases ring
    · rw [rings t htc]
      exact h t (jobq ▸ hdead)
  | received call jobq ring lookup rings =>
    by_cases htc : t = c
    · subst htc
      rw [h t (jobq ▸ hdead)] at ring
      cases ring
    · rw [rings t htc]
      exact h t (jobq ▸ hdead)
  | replied call lookup jobq rings =>
    rw [rings]
    exact h t (jobq ▸ hdead)

end AbsKernel

namespace Rep

variable {h : List (Iter Kernel Trap)} {k : Kernel} {a : AbsKernel}

theorem attended_iff (hr : Rep k a) : Attended h k ↔ a.Attended (receivedBy h) := by
  constructor
  · rintro ⟨h₁, h₂⟩
    refine ⟨fun s hs hw => ?_, fun s hs hw => ?_⟩
    · obtain ⟨r, hrj, hin⟩ := h₁ s (by rwa [hr.live_eq]) (by rwa [← hr.state_eq])
      exact ⟨r, by rwa [← hr.live_eq], by rwa [hr.ring_eq, hr.tid_eq]⟩
    · obtain ⟨r, hrj, hin⟩ := h₂ s (by rwa [hr.live_eq]) (by rwa [← hr.state_eq])
      exact ⟨r, by rwa [← hr.live_eq], hin⟩
  · rintro ⟨h₁, h₂⟩
    refine ⟨fun s hs hw => ?_, fun s hs hw => ?_⟩
    · obtain ⟨r, hrj, hin⟩ := h₁ s (by rwa [← hr.live_eq]) (by rwa [hr.state_eq])
      exact ⟨r, by rwa [hr.live_eq], by rwa [← hr.ring_eq, ← hr.tid_eq]⟩
    · obtain ⟨r, hrj, hin⟩ := h₂ s (by rwa [← hr.live_eq]) (by rwa [hr.state_eq])
      exact ⟨r, by rwa [hr.live_eq], hin⟩

end Rep

section Step

variable {h : List (Iter Kernel Trap)} {i : Iter Kernel Trap} {m a' : AbsKernel}
  {c : TaskPtr}

/-- A task in transit was live before. -/
theorem AbsKernel.Traffic.old (ht : AbsKernel.Traffic m c i.input a') (hw : m.WellFormed)
    {s : TaskPtr} (hs : s ∈ a'.jobq) (hst : (a'.task s).state.inTransit) : s ∈ m.jobq := by
  cases ht with
  | quiet still =>
    rcases still.new s hs with hsm | ⟨-, -, hready⟩
    · exact hsm
    · exact absurd hst (AbsKernel.not_inTransit_of_eq hready (by decide))
  | exited _ _ jobq =>
    rw [jobq] at hs
    exact (hw.jobq_nodup.mem_erase_iff.mp hs).2
  | direct _ _ _ jobq => exact jobq ▸ hs
  | queued _ _ jobq => exact jobq ▸ hs
  | vanished _ jobq => exact jobq ▸ hs
  | received _ jobq => exact jobq ▸ hs
  | replied _ _ jobq => exact jobq ▸ hs

/-- A task stays live unless it exits. -/
theorem AbsKernel.Traffic.live (ht : AbsKernel.Traffic m c i.input a') (hw : m.WellFormed)
    {r : TaskPtr} (hr : r ∈ m.jobq) (hexit : i.input.syscall = some .exit → r ≠ c) :
    r ∈ a'.jobq := by
  cases ht with
  | quiet still => exact still.live r hr
  | exited call _ jobq =>
    rw [jobq]
    exact hw.jobq_nodup.mem_erase_iff.mpr ⟨hexit call, hr⟩
  | direct _ _ _ jobq => exact jobq ▸ hr
  | queued _ _ jobq => exact jobq ▸ hr
  | vanished _ jobq => exact jobq ▸ hr
  | received _ jobq => exact jobq ▸ hr
  | replied _ _ jobq => exact jobq ▸ hr

/-- A task that takes a message from its ring is live. -/
theorem AbsKernel.Traffic.receiver_live (ht : AbsKernel.Traffic m c i.input a') (hd : m.DeadRings)
    (call : i.input.syscall = some .receive) {s : TaskPtr} (before : (m.task s).state ≠ .watireply)
    (after : (a'.task s).state = .watireply) : c ∈ m.jobq := by
  have hno : ∀ {p : Syscall}, i.input.syscall = some p → p ≠ .receive → False := fun hp hne =>
    hne (Option.some.inj (hp.symm.trans call))
  cases ht with
  | quiet still => exact absurd ((still.state (Or.inr after)).2 ▸ after) before
  | vanished _ _ _ _ _ state => exact absurd (state s ▸ after) before
  | received _ _ ring =>
    by_contra hdead
    rw [hd c hdead] at ring
    cases ring
  | exited hcall => exact (hno hcall (by decide)).elim
  | direct hcall => exact (hno hcall (by decide)).elim
  | queued hcall => exact (hno hcall (by decide)).elim
  | replied hcall => exact (hno hcall (by decide)).elim

/-- Whose message was received goes on having a live receiver. -/
theorem AbsKernel.Attended.traffic_reply (hat : m.Attended (receivedBy h)) (hw : m.WellFormed)
    (hd : m.DeadRings) (hc : m.currentTask = some c) (hx : (m.task c).x = i.input.x)
    (hm : Rep i.mid m) (hn : Rep i.next a') (ht : AbsKernel.Traffic m c i.input a')
    (hexit : i.input.syscall = some .exit → Unneeded h i.mid c) {s : TaskPtr} (hs : s ∈ a'.jobq)
    (hst : (a'.task s).state = .watireply) :
    ∃ r ∈ a'.jobq, receivedBy (h ++ [i]) s = some r := by
  have hsm : s ∈ m.jobq := ht.old hw hs (Or.inr hst)
  by_cases before : (m.task s).state = .watireply
  · obtain ⟨r, hr, hin⟩ := hat.reply s hsm before
    have before' : (i.mid.task s).state = .watireply := by rwa [← hm.state_eq]
    refine ⟨r, ht.live hw hr ?_, ?_⟩
    · rintro call rfl
      exact (hexit call).reply s (by rwa [hm.live_eq]) before' hin
    · rw [receivedBy_snoc_of_waiting before']
      exact hin
  · obtain ⟨r, hdelivery, hr⟩ := ht.delivery_eq hm hn hc hx before hst
    refine ⟨r, ?_, ?_⟩
    · rcases hr with ⟨call, -, lookup⟩ | ⟨call, rfl⟩
      · apply ht.live hw (AbsKernel.WellFormed.mem_of_lookup lookup)
        rw [call]
        exact fun hsend => by cases hsend
      · apply ht.live hw (ht.receiver_live hd call before hst)
        rw [call]
        exact fun hreceive => by cases hreceive
    · rw [receivedBy_snoc, hdelivery]
      exact if_pos rfl

/-- Who waits in a ring goes on waiting in the ring of a live task. -/
theorem AbsKernel.Attended.traffic_send (hat : m.Attended (receivedBy h)) (hw : m.WellFormed)
    (hm : Rep i.mid m) (htid : ∀ t ∈ m.jobq, t ∈ a'.jobq → (a'.task t).tid = (m.task t).tid)
    (ht : AbsKernel.Traffic m c i.input a')
    (hexit : i.input.syscall = some .exit → Unneeded h i.mid c) {s : TaskPtr} (hs : s ∈ a'.jobq)
    (hst : (a'.task s).state = .watisend) :
    ∃ r ∈ a'.jobq, ofInt (a'.task s).tid ∈ a'.rings r := by
  have hsm : s ∈ m.jobq := ht.old hw hs (Or.inl hst)
  rw [htid s hsm hs]
  cases ht with
  | quiet still =>
    obtain ⟨r, hr, hin⟩ := hat.send s hsm ((still.state (Or.inl hst)).2 ▸ hst)
    refine ⟨r, still.live r hr, ?_⟩
    rw [still.rings r fun hf => absurd hr (hw.free_jobq r hf)]
    exact hin
  | exited call live jobq ring rings dead state =>
    have hmem : ∀ {t}, t ∈ a'.jobq ↔ t ≠ c ∧ t ∈ m.jobq := by
      rw [jobq]
      exact hw.jobq_nodup.mem_erase_iff
    rw [state s (hmem.mp hs).1, hm.state_eq] at hst
    obtain ⟨r, hr, hrc, hin⟩ := (hexit call).send s (by rwa [hm.live_eq]) hst
    refine ⟨r, hmem.mpr ⟨hrc, by rwa [← hm.live_eq]⟩, ?_⟩
    rw [rings r hrc, hm.ring_eq, hm.tid_eq]
    exact hin
  | @direct r call lookup wait jobq rings sender receiver state =>
    have hsc : s ≠ c := by
      rintro rfl
      rw [sender] at hst
      cases hst
    have hsr : s ≠ r := by
      rintro rfl
      rw [receiver] at hst
      cases hst
    rw [state s hsc hsr] at hst
    obtain ⟨r', hr', hin⟩ := hat.send s hsm hst
    exact ⟨r', jobq ▸ hr', by rw [rings]; exact hin⟩
  | @queued r call lookup jobq ring rings sender state =>
    by_cases hsc : s = c
    · exact ⟨r, jobq ▸ AbsKernel.WellFormed.mem_of_lookup lookup, by simp [ring, hsc]⟩
    · rw [state s hsc] at hst
      obtain ⟨r', hr', hin⟩ := hat.send s hsm hst
      refine ⟨r', jobq ▸ hr', ?_⟩
      by_cases hrr : r' = r
      · subst hrr
        rw [ring]
        exact List.mem_append_left _ hin
      · rw [rings r' hrr]
        exact hin
  | @vanished e call jobq ring gone rings state =>
    rw [state s] at hst
    obtain ⟨r', hr', hin⟩ := hat.send s hsm hst
    refine ⟨r', jobq ▸ hr', ?_⟩
    by_cases hrc : r' = c
    · subst hrc
      rw [ring, List.mem_cons] at hin
      refine hin.resolve_left fun he => ?_
      rw [← he, hw.lookup_ofInt hsm] at gone
      cases gone
    · rw [rings r' hrc]
      exact hin
  | @received s₀ e call jobq ring lookup rings before sender state =>
    have hss : s ≠ s₀ := by
      rintro rfl
      rw [sender] at hst
      cases hst
    rw [state s hss] at hst
    obtain ⟨r', hr', hin⟩ := hat.send s hsm hst
    refine ⟨r', jobq ▸ hr', ?_⟩
    by_cases hrc : r' = c
    · subst hrc
      rw [ring, List.mem_cons] at hin
      refine hin.resolve_left fun he => hss ?_
      rw [← he, hw.lookup_ofInt hsm] at lookup
      exact Option.some.inj lookup
    · rw [rings r' hrc]
      exact hin
  | @replied s₀ call lookup jobq rings ready state =>
    have hss : s ≠ s₀ := by
      rintro rfl
      rw [ready] at hst
      cases hst
    rw [state s hss] at hst
    obtain ⟨r', hr', hin⟩ := hat.send s hsm hst
    exact ⟨r', jobq ▸ hr', by rw [rings]; exact hin⟩

/-- A handler other than that of Exit leaves every blocked sender with its live partner, and so
does an Exit of a task that nobody waits for. -/
theorem AbsKernel.Attended.traffic (hat : m.Attended (receivedBy h)) (hw : m.WellFormed)
    (hd : m.DeadRings) (hc : m.currentTask = some c) (hx : (m.task c).x = i.input.x)
    (hm : Rep i.mid m) (hn : Rep i.next a')
    (htid : ∀ t ∈ m.jobq, t ∈ a'.jobq → (a'.task t).tid = (m.task t).tid)
    (ht : AbsKernel.Traffic m c i.input a')
    (hexit : i.input.syscall = some .exit → Unneeded h i.mid c) :
    a'.Attended (receivedBy (h ++ [i])) where
  send _ hs hst := hat.traffic_send hw hm htid ht hexit hs hst
  reply _ hs hst := hat.traffic_reply hw hd hc hx hm hn ht hexit hs hst

/-- After an Exit every blocked sender has a live partner only if nobody waited for the task. -/
theorem AbsKernel.Traffic.unneeded (hw : m.WellFormed) (hrun : (m.task c).state = .running)
    (hm : Rep i.mid m) (htid : ∀ t ∈ m.jobq, t ∈ a'.jobq → (a'.task t).tid = (m.task t).tid)
    (ht : AbsKernel.Traffic m c i.input a') (call : i.input.syscall = some .exit)
    (hat : a'.Attended (receivedBy (h ++ [i]))) : Unneeded h i.mid c := by
  have hno : ∀ {p : Syscall}, i.input.syscall = some p → p ≠ .exit → False := fun hp hne =>
    hne (Option.some.inj (hp.symm.trans call))
  cases ht with
  | exited _ live jobq ring rings dead state =>
    have hmem : ∀ {t}, t ∈ a'.jobq ↔ t ≠ c ∧ t ∈ m.jobq := by
      rw [jobq]
      exact hw.jobq_nodup.mem_erase_iff
    have hback : ∀ s ∈ i.mid.live, (i.mid.task s).state ≠ .running →
        s ∈ a'.jobq ∧ (a'.task s).state = (i.mid.task s).state := by
      intro s hs hst
      have hsc : s ≠ c := by
        rintro rfl
        exact hst (by rw [← hm.state_eq]; exact hrun)
      exact ⟨hmem.mpr ⟨hsc, by rwa [← hm.live_eq]⟩, by rw [state s hsc, hm.state_eq]⟩
    refine ⟨fun s hs hst => ?_, fun s hs hst hin => ?_⟩
    · obtain ⟨hsj, heq⟩ := hback s hs (by rw [hst]; decide)
      obtain ⟨r, hr, hin⟩ := hat.send s hsj (heq.trans hst)
      obtain ⟨hrc, hrm⟩ := hmem.mp hr
      refine ⟨r, by rwa [hm.live_eq], hrc, ?_⟩
      rw [← hm.ring_eq, ← rings r hrc, ← hm.tid_eq, ← htid s (hmem.mp hsj).2 hsj]
      exact hin
    · obtain ⟨hsj, heq⟩ := hback s hs (by rw [hst]; decide)
      obtain ⟨r, hr, hr'⟩ := hat.reply s hsj (heq.trans hst)
      rw [receivedBy_snoc_of_waiting hst] at hr'
      obtain rfl : c = r := Option.some.inj (hin.symm.trans hr')
      exact (hmem.mp hr).1 rfl
  | quiet still => exact absurd call still.call
  | direct hcall => exact (hno hcall (by decide)).elim
  | queued hcall => exact (hno hcall (by decide)).elim
  | vanished hcall => exact (hno hcall (by decide)).elim
  | received hcall => exact (hno hcall (by decide)).elim
  | replied hcall => exact (hno hcall (by decide)).elim

end Step

/-- The Exits of the history strand nobody. -/
def ExitsUnneeded (h : List (Iter Kernel Trap)) : Prop :=
  ∀ h₁ i, h₁ ++ [i] <+: h → i.input.syscall = some .exit →
    ∀ c, i.mid.currentTask = some c → Unneeded h₁ i.mid c

/-- **While no Exit strands a sender, every blocked sender has a live partner.** -/
theorem Boot.Reaches.attended {b : Boot} {h : List (Iter Kernel Trap)} {k : Kernel}
    (r : b.Reaches h k) (hexits : ExitsUnneeded h) : Attended h k := by
  obtain ⟨k₀, hk₀, hrun⟩ := r
  have hmain : ∃ a, Rep k a ∧ a.WellFormed ∧ a.DeadRings ∧
      (ExitsUnneeded h → a.Attended (receivedBy h)) := by
    refine hrun.history (I := fun h k => ∃ a, Rep k a ∧ a.WellFormed ∧ a.DeadRings ∧
      (ExitsUnneeded h → a.Attended (receivedBy h))) (P := fun _ => True) ?_
      (fun _ _ => trivial) ?_
    · obtain ⟨a₀, ha₀, ho, hfresh⟩ := AbsKernel.boot_ok b
      obtain ⟨a₁, ha₁, hrep⟩ := Refines.ok_left (y := AbsKernel.boot b) b.kernel_refines hk₀
      obtain rfl : a₀ = a₁ := Except.ok.inj (ha₀.symm.trans ha₁)
      have hno : ∀ s, ¬ (a₀.task s).state.inTransit := fun s => by
        rcases hfresh.state s with hs | hs
        · exact AbsKernel.not_inTransit_of_eq hs (by decide)
        · exact AbsKernel.not_inTransit_of_eq hs (by decide)
      exact ⟨a₀, hrep, ho.toWellFormed, fun t _ => hfresh.ring t, fun _ =>
        ⟨fun s _ hs => absurd (Or.inl hs) (hno s), fun s _ hs => absurd (Or.inr hs) (hno s)⟩⟩
    · rintro h k trap m k' - - ⟨a, hrep, hw, hd, hat⟩ - hm hk'
      obtain ⟨c, m', a', hrepm, hrep', hst⟩ := hrep.iteration b.img hm hk'
      obtain ⟨hwm, hwa⟩ := hst.wellFormed hw
      obtain ⟨hc, hrun', hx, -⟩ := hst.enters.current
      have ht := hst.effect.traffic hwm hc hrun'
      have hdm := hd.enters hst.enters
      refine ⟨a', hrep', hwa, hdm.traffic hwm ht, fun hun => ?_⟩
      have hat := (hat fun h₁ i hpre => hun h₁ i (hpre.trans (List.prefix_append _ _))).enters
        hst.enters
      exact hat.traffic (i := ⟨k, trap, m, k'⟩) hwm hdm hc hx hrepm hrep'
        (fun t htm hta => (hst.effect.kept hwm htm hta).2) ht
        fun hcall => hun h _ List.prefix_rfl hcall c (by rw [← hrepm.currentTask_eq, hc])
  obtain ⟨a, hrep, -, -, hat⟩ := hmain
  exact hrep.attended_iff.mpr (hat hexits)

/-- **Blocked senders and Exits.**  Along a run every blocked sender has a live partner at every
loop head, just when no Exit of the run leaves behind a sender that waits for the task alone. -/
theorem attended_iff_exits_unneeded (b : Boot) (h : List (Iter Kernel Trap)) (k : Kernel)
    (r : b.Reaches h k) :
    (∀ h₁ k₁, h₁ <+: h → b.Reaches h₁ k₁ → Attended h₁ k₁) ↔ ExitsUnneeded h := by
  constructor
  · rintro hall h₁ i hpre call c hc
    obtain ⟨h₂, rfl⟩ := hpre
    obtain ⟨k₀, hk₀, hrun⟩ := r
    obtain ⟨hhead, hm, hk', hnext⟩ := hrun.split
      (show h₁ ++ [i] ++ h₂ = h₁ ++ i :: h₂ by simp)
    have hat := hall (h₁ ++ [i]) i.next (List.prefix_append _ _) ⟨k₀, hk₀, hnext⟩
    obtain ⟨h', a, r', hka, -⟩ := Boot.Reaches.abs ⟨k₀, hk₀, hhead⟩
    obtain ⟨c', m', a', hrepm, hrep', hst⟩ := hka.iteration b.img hm hk'
    obtain ⟨hwm, -⟩ := hst.wellFormed r'.wellFormed
    obtain ⟨hc', hrun', -, -⟩ := hst.enters.current
    obtain rfl : c = c' := by
      rw [hrepm.currentTask_eq, hc] at hc'
      exact Option.some.inj hc'
    exact AbsKernel.Traffic.unneeded hwm hrun' hrepm
      (fun t htm hta => (hst.effect.kept hwm htm hta).2) (hst.effect.traffic hwm hc' hrun') call
      (hrep'.attended_iff.mp hat)
  · rintro hexits h₁ k₁ hpre r₁
    exact r₁.attended fun h₂ i hpre' => hexits h₂ i (hpre'.trans hpre)

/-- A Send waits in the ring of a live task. -/
theorem attended_run : ∃ hist k, zeroBoot.Reaches hist k ∧
    (k.task 0).state = .watisend ∧ Attended hist k := by
  obtain ⟨hist, k, r, hmap, hk⟩ := Boot.reaches_of_check zeroBoot
    [svc 21 [1]]
    (fun _ k => decide ((k.task 0).state = .watisend)) (by decide +kernel)
  refine ⟨hist, k, r, of_decide_eq_true hk,
    (attended_iff_exits_unneeded zeroBoot hist k r).mpr (fun h₁ i hpre call => ?_) hist k
      List.prefix_rfl r⟩
  have hin : i.input ∈ hist.map Iter.input :=
    List.mem_map_of_mem (hpre.subset (List.mem_append_right _ (List.mem_singleton_self i)))
  rw [hmap, List.mem_singleton] at hin
  rw [hin] at call
  exact absurd call (by decide +kernel)

/-- A task sends to another that exits: it stays in state `WATISEND` and in no ring. -/
theorem exit_strands_sender : ∃ hist k, zeroBoot.Reaches hist k ∧
    hist.map Iter.input = [svc 21 [1], svc 3 []] ∧ k.live = [0] ∧
    (k.task 0).state = .watisend ∧ k.ring 0 = [] ∧ ¬ Attended hist k := by
  obtain ⟨hist, k, r, hmap, hk⟩ := Boot.reaches_of_check zeroBoot
    [svc 21 [1], svc 3 []]
    (fun _ k => decide (k.live = [0] ∧ (k.task 0).state = .watisend ∧ k.ring 0 = []))
    (by decide +kernel)
  obtain ⟨hlive, hst, hring⟩ := of_decide_eq_true hk
  refine ⟨hist, k, r, hmap, hlive, hst, hring, fun hat => ?_⟩
  obtain ⟨u, hu, hin⟩ := hat.send 0 (by simp [hlive]) hst
  rw [hlive, List.mem_singleton] at hu
  rw [hu, hring] at hin
  cases hin

end RealtimeKernel
