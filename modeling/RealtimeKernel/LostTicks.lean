import RealtimeKernel.ClockNotifier
import RealtimeKernel.DelayPool

/-!
# Ticks that the clock server never sees

The kernel does not record an interrupt that finds nobody to wake.  So the counter of the clock
server follows the interrupts that have woken the notifier, and not those that came while the
notifier was on its way between two calls of AwaitEvent, or while another task had waited longer.
The runs are those in which neither task is resumed with a stale result in its `x0`.
-/

namespace RealtimeKernel

open Lib

variable {b : Boot} {img : Image} {f : ServerFrame} {msg₀ : ClockServerMsg}
  {server notifier c t t' : TaskPtr} {h₀ h p : List (Iter Kernel Trap)} {i₀ i : Iter Kernel Trap}
  {k : Kernel} {σ σ' : ServerTask} {ν ν' : NotifierAt} {a m a' : AbsKernel} {trap : Trap}

/-! ### The notifier is made -/

/-- The task is made in this iteration. -/
structure Makes (i : Iter Kernel Trap) (t : TaskPtr) : Prop where
  made : t ∈ i.next.live
  new : t ∉ i.mid.live

/-- A new task is ready, and it is a child of the task that trapped. -/
theorem AbsKernel.Effect.made (he : AbsKernel.Effect img a c trap a') (ht : t ∈ a'.jobq)
    (hnot : t ∉ a.jobq) :
    (a'.task t).state = .ready ∧ (a'.task t).parentTid = (a.task c).tid := by
  cases he with
  | @created u free block used call hfree alloc room push =>
    obtain rfl : t = u := by
      rcases List.mem_append.mp ht with ht | ht
      · exact absurd ht hnot
      · exact List.mem_singleton.mp ht
    constructor
    · rw [assign_state, makeReady_task, setState_state, if_pos rfl]
    · simp [addTask, newTask]
  | exited => exact absurd (List.mem_of_mem_erase ht) hnot
  | _ => exact absurd ht hnot

theorem EntersLoop.notifying (start : EntersLoop server h₀ i₀) (makes : Makes i₀ notifier)
    (h : HandlerStep img i₀ c m a') :
    Notifying server notifier (h₀ ++ [i₀]) (serverStart msg₀) .start a' := by
  obtain rfl : c = server := by
    have hcur := h.current_eq.symm.trans start.current
    exact Option.some.inj hcur
  have hlive : notifier ∈ a'.jobq := by
    rw [← h.next.live_eq]
    exact makes.made
  have hnew : notifier ∉ m.jobq := by
    rw [← h.mid.live_eq]
    exact makes.new
  have hcj : c ∈ m.jobq := h.orderly.live_of_state (by rw [h.running]; decide)
  obtain ⟨-, htid, -, -⟩ := h.keeps hcj fun _ => by
    rw [start.call]
    decide
  obtain ⟨hready, hparent⟩ := h.effect.made hlive hnew
  refine ⟨hlive, ?_, ⟨?_, ?_⟩, List.not_mem_nil, fun tid msg he => by cases he⟩
  · rintro rfl
    exact hnew hcj
  · rw [hready]
    rfl
  · rw [htid]
    exact hparent

/-! ### Along a run -/

/-- **Along a run every wakeup of the notifier becomes a tick**, which is counted or on its way. -/
theorem Boot.Reaches.notifying (r : b.Reaches (h₀ ++ [i₀] ++ h) k)
    (start : EntersLoop server h₀ i₀) (makes : Makes i₀ notifier)
    (hserver : serverTask f server msg₀ h = some σ) (hnotifier : notifierTask notifier h = some ν)
    (hsx : X0Intact server h) (hnx : X0Intact notifier h)
    (hcivil : Along (fun p i => Civil f server (h₀ ++ [i₀] ++ p) i) h)
    (hticking : Along (fun p i => Ticking f server notifier (h₀ ++ [i₀] ++ p) i) h) :
    ∃ a, Rep k a ∧ a.Orderly ∧ Serving f msg₀ server (h₀ ++ [i₀] ++ h) σ a ∧
      Notifying server notifier (h₀ ++ [i₀] ++ h) σ ν a ∧
      h.countP (wakes notifier) = ticked σ ν (a.task notifier).tid := by
  induction h using List.reverseRecOn generalizing k σ ν with
  | nil =>
    obtain rfl := Option.some.inj hserver
    obtain rfl := Option.some.inj hnotifier
    rw [List.append_nil] at r ⊢
    obtain ⟨c, m, a', hst, ho', rfl⟩ := start.first r
    exact ⟨a', hst.next, ho', start.serving hst f msg₀, start.notifying makes hst, rfl⟩
  | append_singleton h i ih =>
    rw [← List.append_assoc] at r ⊢
    obtain ⟨r₀, hm, hk, rfl⟩ := r.unsnoc
    rw [serverTask_snoc hsx] at hserver
    rw [notifierTask_snoc hnx] at hnotifier
    obtain ⟨σ₀, hserver₀, hstep⟩ := Option.bind_eq_some_iff.mp hserver
    obtain ⟨ν₀, hnotifier₀, hnstep⟩ := Option.bind_eq_some_iff.mp hnotifier
    obtain ⟨hcivil₀, hi⟩ := along_snoc.mp hcivil
    obtain ⟨hticking₀, hti⟩ := along_snoc.mp hticking
    obtain ⟨a, hka, ho, hs, hn, hcount⟩ := ih r₀ hserver₀ hnotifier₀ hsx.left hnx.left hcivil₀
      hticking₀
    obtain ⟨c, m, a', hent, hst, ho', hsm⟩ := hs.iteration hka ho hm hk hi hstep
    have hnm := hn.enters ho hent
    obtain ⟨hn', hticked⟩ := hnm.step hsm hst hi hti hstep hnstep
    refine ⟨a', hst.next, ho', (hsm.step hst hi hstep).1, hn', ?_⟩
    obtain ⟨-, -, htids, -⟩ := hent.traffic
    rw [List.countP_append, hcount, hticked, htids, List.countP_singleton]

/-! ### Interrupts of timer 1 -/

/-- An interrupt of timer 1 is handled. -/
def timerInterrupt (i : Iter Kernel Trap) : Bool :=
  match i.input.cause with
  | .irq intid _ _ => decide (intid = waitTimer1)
  | .sync _ => false

theorem timerInterrupt_iff :
    timerInterrupt i = true ↔ ∃ chi clo, i.input.cause = .irq waitTimer1 chi clo := by
  unfold timerInterrupt
  cases hc : i.input.cause with
  | sync esr => simp
  | irq intid chi clo => simp

theorem wakes_iff : wakes notifier i = true ↔
    (i.mid.task notifier).state = .awatievent ∧ (i.next.task notifier).state = .ready :=
  decide_eq_true_iff

/-- Only an interrupt of timer 1 wakes the notifier. -/
theorem HandlerStep.timerInterrupt_of_wakes (h : HandlerStep img i c m a')
    (hlive : notifier ∈ m.jobq) (hwakes : wakes notifier i = true) : timerInterrupt i = true := by
  obtain ⟨hwait, hready⟩ := wakes_iff.mp hwakes
  rw [← h.mid.state_eq] at hwait
  rw [← h.next.state_eq] at hready
  have hne : notifier ≠ c := by
    rintro rfl
    rw [h.running] at hwait
    cases hwait
  cases h.fate hlive hne with
  | stays state =>
    rw [state, hwait] at hready
    cases hready
  | woken cause => exact timerInterrupt_iff.mpr ⟨_, _, cause⟩
  | handed call lookup was =>
    rw [hwait] at was
    cases was
  | picked call ring was =>
    rw [hwait] at was
    cases was
  | answered call lookup was =>
    rw [hwait] at was
    cases was

/-- At most one task has waited longest. -/
theorem LongestWaiting.unique {j : Fin numInterrupt} (ht : LongestWaiting h k j t)
    (ht' : LongestWaiting h k j t') : t = t' := by
  by_contra hne
  have hprio := le_antisymm (ht.highest t' ht'.waits) (ht'.highest t ht.waits)
  obtain ⟨l₁, l₂, hl, hnot, hlater⟩ := ht.earliest
  obtain ⟨l₁', l₂', hl', hnot', hlater'⟩ := ht'.earliest
  have hin := hlater t' (Ne.symm hne) ht'.waits hprio
  exact not_mem_after hl hl' hnot hnot' hin (hlater' t hne ht.waits hprio.symm)

/-- **An interrupt of timer 1 wakes the task that has waited longest for it.** -/
theorem HandlerStep.wakes_iff_longestWaiting (h : HandlerStep img i c m a')
    (hw : m.Awaiting (awaitCalls p)) (hk : handleCurrentException img i.mid i.input = .ok i.next)
    (ht : timerInterrupt i = true) : wakes t i = true ↔ LongestWaiting p i.mid timer1 t := by
  obtain ⟨chi, clo, cause⟩ := timerInterrupt_iff.mp ht
  have hk' : handleExceptionWith irqHandlers img i.mid i.input = .ok i.next := by
    have hloop := congrFun (congrFun (congrArg Loop.handle (kmainLoopWith_irqHandlers img)) i.mid)
      i.input
    exact hloop.trans hk
  obtain ⟨a₁, hnext, hout⟩ := h.mid.outcome h.current h.running hk'
  rw [wakes_iff, ← h.mid.state_eq, ← hnext.state_eq]
  cases hout with
  | call sync => exact absurd cause (sync _ _ _)
  | @signal j chi' clo' clocks cause' signal =>
    obtain rfl : j = timer1 := by
      rw [cause] at cause'
      injection cause' with hid
      exact Fin.ext hid.symm
    cases signal with
    | idle empty =>
      constructor
      · rintro ⟨hwait, hready⟩
        have hsame : (m.task t).state = .ready := hready
        rw [hwait] at hsame
        cases hsame
      · intro hlong
        obtain ⟨hstate, hlast⟩ := h.mid.waitsOn_iff.mp hlong.waits
        have hin := hw.mem_iff.mpr ⟨hstate, hlast, rfl⟩
        rw [empty] at hin
        cases hin
    | @woke u q pop =>
      have hlong := h.mid.longestWaiting h.orderly hw pop
      rw [AbsKernel.makeReady_task, AbsKernel.setState_state]
      constructor
      · rintro ⟨hwait, hready⟩
        by_cases htu : t = u
        · rw [htu]
          exact hlong
        · rw [if_neg htu] at hready
          have hsame : (m.task t).state = .ready := hready
          rw [hwait] at hsame
          cases hsame
      · intro hlong'
        obtain rfl := hlong'.unique hlong
        exact ⟨(h.mid.waitsOn_iff.mp hlong'.waits).1, if_pos rfl⟩

theorem countP_timerInterrupt
    (hw : ∀ i ∈ h, wakes notifier i = true → timerInterrupt i = true) :
    h.countP timerInterrupt = h.countP (wakes notifier) +
      h.countP fun i => timerInterrupt i && !wakes notifier i := by
  induction h with
  | nil => rfl
  | cons i h ih =>
    have hi := hw i List.mem_cons_self
    have hrest := ih fun j hj => hw j (List.mem_cons_of_mem _ hj)
    rw [List.countP_cons, List.countP_cons, List.countP_cons, hrest]
    cases hwi : wakes notifier i with
    | false => simp [Nat.add_assoc]
    | true =>
      simp [hi hwi]
      omega

/-! ### The balance -/

/-- A run of the server and its notifier on the kernel, from the Create with which the server makes
the notifier.  No resume of either of them after an interrupt changes its `x0`. -/
structure ClockRun (b : Boot) (f : ServerFrame) (msg₀ : ClockServerMsg) (server notifier : TaskPtr)
    (h₀ : List (Iter Kernel Trap)) (i₀ : Iter Kernel Trap) (h : List (Iter Kernel Trap))
    (k : Kernel) (σ : ServerTask) (ν : NotifierAt) : Prop where
  reaches : b.Reaches (h₀ ++ [i₀] ++ h) k
  start : EntersLoop server h₀ i₀
  makes : Makes i₀ notifier
  serves : serverTask f server msg₀ h = some σ
  notifies : notifierTask notifier h = some ν
  serverIntact : X0Intact server h
  notifierIntact : X0Intact notifier h
  civil : Along (fun p i => Civil f server (h₀ ++ [i₀] ++ p) i) h
  ticking : Along (fun p i => Ticking f server notifier (h₀ ++ [i₀] ++ p) i) h

/-- The notifier calls AwaitEvent for the first time. -/
structure FirstAwait (notifier : TaskPtr) (h : List (Iter Kernel Trap)) (i : Iter Kernel Trap) :
    Prop where
  before : ∀ j ∈ h, j.mid.currentTask = some notifier → j.input.syscall ≠ some .awaitEvent
  current : i.mid.currentTask = some notifier
  call : i.input.syscall = some .awaitEvent

/-- Until then the notifier is not blocked. -/
theorem notifierTask_before (hν : notifierTask notifier h = some ν) (hx : X0Intact notifier h)
    (hno : ∀ j ∈ h, j.mid.currentTask = some notifier → j.input.syscall ≠ some .awaitEvent) :
    ν = .start ∨ ∃ tid, ν = .await tid := by
  induction h using List.reverseRecOn generalizing ν with
  | nil => exact Or.inl (Option.some.inj hν).symm
  | append_singleton h i ih =>
    rw [notifierTask_snoc hx] at hν
    obtain ⟨ν₀, hν₀, hstep⟩ := Option.bind_eq_some_iff.mp hν
    have hi := hno i (by simp)
    unfold notifierStep at hstep
    rcases ih hν₀ hx.left fun j hj => hno j (List.mem_append_left _ hj) with rfl | ⟨tid, rfl⟩
    · split at hstep
      · split at hstep
        · exact Or.inl (Option.some.inj hstep).symm
        · obtain ⟨-, hν⟩ := Option.ite_none_right_eq_some.mp hstep
          exact Or.inr ⟨_, (Option.some.inj hν).symm⟩
      · exact Or.inl (Option.some.inj hstep).symm
    · split at hstep
      · rename_i hcur
        split at hstep
        · exact Or.inr ⟨tid, (Option.some.inj hstep).symm⟩
        · obtain ⟨⟨hcall, -⟩, -⟩ := Option.ite_none_right_eq_some.mp hstep
          exact absurd hcall (hi hcur)
      · exact Or.inr ⟨tid, (Option.some.inj hstep).symm⟩

theorem notifierTask_prefix {q : List (Iter Kernel Trap)}
    (htask : notifierTask notifier (p ++ i :: q) = some ν) :
    ∃ ν₁, notifierTask notifier p = some ν₁ := by
  unfold notifierTask at htask ⊢
  rw [follow_append] at htask
  obtain ⟨ν₁, h₁, -⟩ := Option.bind_eq_some_iff.mp htask
  exact ⟨ν₁, h₁⟩

/-- What a kernel state is has one representation for the irq queues. -/
theorem Rep.awaiting {calls : List (TaskPtr × ℤ)} {a₁ a₂ : AbsKernel} (h₁ : Rep k a₁)
    (h₂ : Rep k a₂) (hw : a₁.Awaiting calls) : a₂.Awaiting calls := by
  have htask : a₂.task = a₁.task := funext fun t => by rw [h₁.task_eq, h₂.task_eq]
  intro i p
  have hi := hw i p
  rw [← h₁.waiters_eq] at hi
  rw [← h₂.waiters_eq, hi]
  unfold AbsKernel.awaitsAt
  rw [htask]

/-- Every iteration of a run, with the notifier when the trap is handled. -/
theorem ClockRun.handles (run : ClockRun b f msg₀ server notifier h₀ i₀ h k σ ν)
    {q : List (Iter Kernel Trap)} (hh : h = p ++ i :: q) :
    ∃ σ₁ ν₁ c m a', notifierTask notifier p = some ν₁ ∧ HandlerStep b.img i c m a' ∧
      Notifying server notifier (h₀ ++ [i₀] ++ p) σ₁ ν₁ m ∧
      m.Awaiting (awaitCalls (h₀ ++ [i₀] ++ p)) ∧
      handleCurrentException b.img i.mid i.input = .ok i.next := by
  obtain ⟨r, start, makes, hserver, hnotifier, hsx, hnx, hcivil, hticking⟩ := run
  have hreplies := r.replies start hserver hsx hcivil
  subst hh
  obtain ⟨σ₁, σ₂, hserver₁, hstep⟩ := serverTask_prefix hserver hsx
  obtain ⟨ν₁, hnotifier₁⟩ := notifierTask_prefix hnotifier
  obtain ⟨k₀, hk₀, hrun⟩ := r
  obtain ⟨r₀, hm, hk, -⟩ := hrun.split
      (show h₀ ++ [i₀] ++ (p ++ i :: q) = (h₀ ++ [i₀] ++ p) ++ i :: q by simp)
  obtain ⟨a, hka, ho, hs, hn, -⟩ := Boot.Reaches.notifying ⟨k₀, hk₀, r₀⟩ start makes hserver₁
    hnotifier₁ hsx.left hnx.left hcivil.left hticking.left
  obtain ⟨c, m, a', hent, hst, -⟩ := hs.iteration hka ho hm hk (hcivil p i q rfl) hstep
  have r₁ : (kmainLoopWith irqHandlers b.img).Run k₀ (h₀ ++ [i₀] ++ p) i.head := by
    rw [kmainLoopWith_irqHandlers]
    exact r₀
  obtain ⟨a₁, hka₁, ho₁, hw₁⟩ := awaiting_run hk₀ r₁ fun j hj =>
    hreplies j (by
      rw [← List.append_assoc]
      exact List.mem_append_left _ hj)
  obtain ⟨c₁, m₁, hrm₁, -, -, hwm₁⟩ := hka₁.awaiting_enters ho₁ hw₁ hm
  exact ⟨σ₁, ν₁, c, m, a', hnotifier₁, hst, hn.enters ho hent, hrm₁.awaiting hst.mid hwm₁, hk⟩

instance (f : ServerFrame) (server notifier : TaskPtr) (p : List (Iter Kernel Trap))
    (i : Iter Kernel Trap) : Decidable (Ticking f server notifier p i) :=
  decidable_of_iff (_ ∧ _) ⟨fun h => ⟨h.1, h.2⟩, fun h => ⟨h.intact, h.others⟩⟩

instance (notifier : TaskPtr) (h : List (Iter Kernel Trap)) (i : Iter Kernel Trap) :
    Decidable (FirstAwait notifier h i) :=
  decidable_of_iff (_ ∧ _ ∧ _)
    ⟨fun h => ⟨h.1, h.2.1, h.2.2⟩, fun h => ⟨h.before, h.current, h.call⟩⟩

/-- The traps are those of a run in which task 2 is the notifier and its first AwaitEvent is the
fourth. -/
def checkTicks (traps : List Trap)
    (p : List (Iter Kernel Trap) → Kernel → ServerTask → NotifierAt → Bool) : Bool :=
  zeroBoot.check traps fun h k =>
    match h with
    | i₀ :: i :: j :: i₁ :: h₂ =>
      i₀.next.live.contains 2 && !i₀.mid.live.contains 2 &&
      decide (EntersLoop 0 [] i₀ ∧ FirstAwait 2 [i, j] i₁ ∧
        X0Intact 0 ([i, j] ++ i₁ :: h₂) ∧ X0Intact 2 ([i, j] ++ i₁ :: h₂) ∧
        Along (fun p i => Civil exampleFrame 0 ([] ++ [i₀] ++ p) i) ([i, j] ++ i₁ :: h₂) ∧
        Along (fun p i => Ticking exampleFrame 0 2 ([] ++ [i₀] ++ p) i) ([i, j] ++ i₁ :: h₂)) &&
      (serverTask exampleFrame 0 ⟨0, 0⟩ ([i, j] ++ i₁ :: h₂)).any fun σ =>
        (notifierTask 2 ([i, j] ++ i₁ :: h₂)).any fun ν => p h₂ k σ ν
    | _ => false

theorem clockRun_of_check (traps : List Trap)
    (p : List (Iter Kernel Trap) → Kernel → ServerTask → NotifierAt → Bool)
    (hp : checkTicks traps p = true) :
    ∃ h₁ h₂ i₀ i₁ k σ ν, ClockRun zeroBoot exampleFrame ⟨0, 0⟩ 0 2 [] i₀ (h₁ ++ i₁ :: h₂) k σ ν ∧
      FirstAwait 2 h₁ i₁ ∧ p h₂ k σ ν = true := by
  obtain ⟨hist, k, r, -, hk⟩ := Boot.reaches_of_check zeroBoot traps _ hp
  split at hk
  · rename_i i₀ i j i₁ h₂
    obtain ⟨hpre, hany⟩ := Bool.and_eq_true_iff.mp hk
    obtain ⟨hmade, hpre⟩ := Bool.and_eq_true_iff.mp hpre
    obtain ⟨hstart, hfirst, hsx, hnx, hcivil, hticking⟩ := of_decide_eq_true hpre
    have hmakes : Makes i₀ 2 := by
      simp only [Bool.and_eq_true, Bool.not_eq_true', List.contains_eq_mem, decide_eq_true_eq,
        decide_eq_false_iff_not] at hmade
      exact ⟨hmade.1, hmade.2⟩
    obtain ⟨σ, hσ, hany⟩ := (Option.any_eq_true _ _).mp hany
    obtain ⟨ν, hν, hp⟩ := (Option.any_eq_true _ _).mp hany
    exact ⟨[i, j], h₂, i₀, i₁, k, σ, ν, ⟨r, hstart, hmakes, hσ, hν, hsx, hnx, hcivil,
      hticking⟩, hfirst, hp⟩
  · cases hk

/-- The server receives, the notifier asks for its parent and awaits the timer. -/
def awaitTraps : List Trap := [svc 1 [4], svc 22 [0x100, 0x200, 8], svc 12 [], svc 31 [97]]

end RealtimeKernel
