import RealtimeKernel.ClockArithmetic
import RealtimeKernel.ClockSystem

/-!
# The delay queue and its pool

`clock_server` does not test what `memory_pool_allocate` returns.  The pool suffices: in every run
of the server on the kernel the delay queue holds at most one node for a live client, which is
blocked until the server replies to it, and there are fewer tasks than chunks.  But an interrupt
just before a Reply can leave a stale result in place of the tid of the client, which then is out of
the queue and waits for ever.
-/

namespace RealtimeKernel

open Lib

variable {b : Boot} {img : Image} {f : ServerFrame} {msg₀ : ClockServerMsg} {server c : TaskPtr}
  {h₀ h p : List (Iter Kernel Trap)} {i₀ i : Iter Kernel Trap} {k : Kernel} {σ σ' : ServerTask}
  {a m a' : AbsKernel}

/-! ### Runs of the server -/

/-- The server makes the call of Create after which it enters its loop. -/
structure EntersLoop (server : TaskPtr) (h₀ : List (Iter Kernel Trap)) (i₀ : Iter Kernel Trap) :
    Prop where
  replies : ∀ i ∈ h₀ ++ [i₀], i.mid.ReplyOk i.input
  current : i₀.mid.currentTask = some server
  call : i₀.input.syscall = some .create

theorem HandlerStep.of_iteration (hr : Rep i.head a) (ho : a.Orderly)
    (hm : enterTrap i.head i.input = .ok i.mid)
    (hk : handleCurrentException img i.mid i.input = .ok i.next)
    (hok : ∀ m c, Rep i.mid m → AbsKernel.Enters a i.input c m → m.ReplyOk i.input) :
    ∃ c m a', AbsKernel.Enters a i.input c m ∧ HandlerStep img i c m a' ∧ a'.Orderly := by
  obtain ⟨c, m, a', hrm, hrn, hst⟩ := hr.iteration img hm hk
  have hreply := hok m c hrm hst.enters
  obtain ⟨hom, ho'⟩ := hst.orderly ho hreply
  obtain ⟨hc, hrun, hx, hmem⟩ := hst.enters.current
  exact ⟨c, m, a', hst.enters, ⟨hrm, hrn, hom, hc, hrun, hx, hmem, hreply, hst.effect⟩, ho'⟩

/-- The server serves once its Create has returned. -/
theorem EntersLoop.serving (start : EntersLoop server h₀ i₀) (h : HandlerStep img i₀ c m a')
    (f : ServerFrame) (msg₀ : ClockServerMsg) :
    Serving f msg₀ server (h₀ ++ [i₀]) (serverStart msg₀) a' := by
  obtain rfl : c = server := by
    have hcur := h.current_eq.symm.trans start.current
    exact Option.some.inj hcur
  have hdeed := h.deed
  rw [start.call] at hdeed
  obtain ⟨v, hv⟩ := hdeed
  have hlive : c ∈ m.jobq := h.orderly.live_of_state (by rw [h.running]; decide)
  obtain ⟨hlive', -⟩ := h.keeps hlive fun _ => by
    rw [start.call]
    decide
  refine ⟨hlive', ?_, .nil, stepwise_nil, List.nodup_nil, fun tid htid => ?_,
    fun tid msg he => by cases he⟩
  · show (a'.task c).state.beforeReady = false
    rw [hv]
    show (m.task c).state.beforeReady = false
    rw [h.running]
    rfl
  · cases htid

/-- The iteration after a state in which the server serves. -/
theorem Serving.iteration (hs : Serving f msg₀ server p σ a) (hr : Rep i.head a) (ho : a.Orderly)
    (hm : enterTrap i.head i.input = .ok i.mid)
    (hk : handleCurrentException img i.mid i.input = .ok i.next) (hcivil : Civil f server p i)
    (hstep : serverStep f server false i σ = some σ') :
    ∃ c m a', AbsKernel.Enters a i.input c m ∧ HandlerStep img i c m a' ∧ a'.Orderly ∧
      Serving f msg₀ server p σ m := by
  obtain ⟨c, m, a', hent, hst, ho'⟩ := HandlerStep.of_iteration hr ho hm hk fun m c hrm hent =>
    (hs.enters ho hent).mid_replyOk (ho.enters hent).toWellFormed hrm hcivil hstep
  exact ⟨c, m, a', hent, hst, ho', hs.enters ho hent⟩

/-- The iteration in which the server enters its loop. -/
theorem EntersLoop.first (start : EntersLoop server h₀ i₀) (r : b.Reaches (h₀ ++ [i₀]) k) :
    ∃ c m a', HandlerStep b.img i₀ c m a' ∧ a'.Orderly ∧ k = i₀.next := by
  obtain ⟨r₀, hm, hk, hnext⟩ := r.unsnoc
  obtain ⟨h', a, -, hka, -, -, ho⟩ := r₀.orderly fun i hi =>
    start.replies i (List.mem_append_left _ hi)
  obtain ⟨c, m, a', -, hst, ho'⟩ := HandlerStep.of_iteration hka ho hm hk fun m c hrm _ =>
    hrm.replyOk (start.replies i₀ (by simp))
  exact ⟨c, m, a', hst, ho', hnext⟩

/-- **Along a run the server serves.** -/
theorem Boot.Reaches.serving (r : b.Reaches (h₀ ++ [i₀] ++ h) k) (start : EntersLoop server h₀ i₀)
    (htask : serverTask f server msg₀ h = some σ) (hx : X0Intact server h)
    (hcivil : Along (fun p i => Civil f server (h₀ ++ [i₀] ++ p) i) h) :
    ∃ a, Rep k a ∧ a.Orderly ∧ Serving f msg₀ server (h₀ ++ [i₀] ++ h) σ a := by
  induction h using List.reverseRecOn generalizing k σ with
  | nil =>
    obtain rfl := Option.some.inj htask
    rw [List.append_nil] at r ⊢
    obtain ⟨c, m, a', hst, ho', rfl⟩ := start.first r
    exact ⟨a', hst.next, ho', start.serving hst f msg₀⟩
  | append_singleton h i ih =>
    rw [← List.append_assoc] at r ⊢
    obtain ⟨r₀, hm, hk, rfl⟩ := r.unsnoc
    rw [serverTask_snoc hx] at htask
    obtain ⟨σ₀, htask₀, hstep⟩ := Option.bind_eq_some_iff.mp htask
    obtain ⟨hcivil₀, hi⟩ := along_snoc.mp hcivil
    obtain ⟨a, hka, ho, hs⟩ := ih r₀ htask₀ hx.left hcivil₀
    obtain ⟨c, m, a', -, hst, ho', hsm⟩ := hs.iteration hka ho hm hk hi hstep
    exact ⟨a', hst.next, ho', (hsm.step hst hi hstep).1⟩

theorem HandlerStep.kernel_replyOk (h : HandlerStep img i c m a') : i.mid.ReplyOk i.input := by
  intro call s lookup
  rw [h.mid.getTaskByTid_eq] at lookup
  rw [← h.mid.state_eq]
  exact h.replyOk call s (Except.ok.inj lookup)

theorem serverTask_prefix {q : List (Iter Kernel Trap)}
    (htask : serverTask f server msg₀ (p ++ i :: q) = some σ) (hx : X0Intact server (p ++ i :: q)) :
    ∃ σ₁ σ₂, serverTask f server msg₀ p = some σ₁ ∧ serverStep f server false i σ₁ = some σ₂ := by
  have hsplit : p ++ i :: q = (p ++ [i]) ++ q := by simp
  rw [hsplit] at htask hx
  unfold serverTask at htask
  rw [follow_append] at htask
  obtain ⟨σ₂, h₂, -⟩ := Option.bind_eq_some_iff.mp htask
  have htask₂ : serverTask f server msg₀ (p ++ [i]) = some σ₂ := h₂
  rw [serverTask_snoc hx.left] at htask₂
  obtain ⟨σ₁, h₁, hstep⟩ := Option.bind_eq_some_iff.mp htask₂
  exact ⟨σ₁, σ₂, h₁, hstep⟩

/-- Every Reply of the run is to a task that waits for one. -/
theorem Boot.Reaches.replies (r : b.Reaches (h₀ ++ [i₀] ++ h) k) (start : EntersLoop server h₀ i₀)
    (htask : serverTask f server msg₀ h = some σ) (hx : X0Intact server h)
    (hcivil : Along (fun p i => Civil f server (h₀ ++ [i₀] ++ p) i) h) :
    ∀ i ∈ h₀ ++ [i₀] ++ h, i.mid.ReplyOk i.input := by
  intro i hi
  rcases List.mem_append.mp hi with hi | hi
  · exact start.replies i hi
  · obtain ⟨p, q, rfl⟩ := List.append_of_mem hi
    obtain ⟨σ₁, σ₂, htask₁, hstep⟩ := serverTask_prefix htask hx
    obtain ⟨k₀, hk₀, hrun⟩ := r
    obtain ⟨r₀, hm, hk, -⟩ := hrun.split
      (show h₀ ++ [i₀] ++ (p ++ i :: q) = (h₀ ++ [i₀] ++ p) ++ i :: q by simp)
    obtain ⟨a, hka, ho, hs⟩ := Boot.Reaches.serving ⟨k₀, hk₀, r₀⟩ start htask₁ hx.left hcivil.left
    obtain ⟨c, m, a', -, hst, -⟩ := hs.iteration hka ho hm hk (hcivil p i q rfl) hstep
    exact hst.kernel_replyOk

/-! ### The pool -/

/-- The server runs, each node of its delay queue is for another live client that waits for the
server's reply, and `size` and the unused chunks add up to the pool. -/
structure PoolSuffices (server : TaskPtr) (p : List (Iter Kernel Trap)) (k : Kernel)
    (σ : ServerTask) : Prop where
  runs : σ.place ≠ .stopped
  nodup : ((delayEntries σ.vars).map Prod.fst).Nodup
  waits : ∀ tid ∈ (delayEntries σ.vars).map Prod.fst, ∃ t ∈ k.live, (k.task t).tid = tid ∧
    (k.task t).state = .watireply ∧ receivedBy p t = some server
  size : σ.vars.delayQueue.size.toNat = (delayEntries σ.vars).length
  total : σ.vars.memoryPool.unusedTop + σ.vars.delayQueue.size.toNat = memoryPoolChunks

theorem Serving.poolSuffices (hs : Serving f msg₀ server p σ a) (hr : Rep k a) :
    PoolSuffices server p k σ := by
  obtain ⟨clock, hrep, hc, -⟩ := ClockServer.onSchedule hs.run hs.legal
  have hentries := hrep.delayEntries_eq
  have hperm := hc.perm.map Prod.fst
  obtain ⟨-, nodes, hl, ha, hq⟩ := hrep
  have htotal := ha.total
  have hlen : (delayEntries σ.vars).length = nodes.length := by
    rw [hentries, ← hq, List.length_map]
  have hsize : σ.vars.delayQueue.size.toNat = nodes.length := by
    rw [hl.size, BitVec.toNat_ofNat]
    apply Nat.mod_eq_of_lt
    simp only [memoryPoolChunks] at htotal
    omega
  refine ⟨?_, ?_, fun tid htid => ?_, hsize.trans hlen.symm, ?_⟩
  · intro he
    have hplace := hs.place
    rw [he] at hplace
    exact hplace
  · rw [hentries]
    exact hperm.nodup_iff.mpr hc.nodup
  · rw [hentries] at htid
    obtain ⟨t, ht, htid, hwait, hby⟩ := hs.owes tid (List.mem_append_left _ (hperm.mem_iff.mp htid))
    refine ⟨t, ?_, ?_, ?_, hby⟩
    · rw [hr.live_eq]
      exact ht
    · rw [← hr.tid_eq]
      exact htid
    · rw [← hr.state_eq]
      exact hwait
  · rw [hsize]
    exact htotal

instance (f : ServerFrame) (server : TaskPtr) (p : List (Iter Kernel Trap)) (i : Iter Kernel Trap) :
    Decidable (Civil f server p i) :=
  decidable_of_iff (_ ∧ _) ⟨fun h => ⟨h.1, h.2⟩, fun h => ⟨h.reply, h.message⟩⟩

instance (server : TaskPtr) (h₀ : List (Iter Kernel Trap)) (i₀ : Iter Kernel Trap) :
    Decidable (EntersLoop server h₀ i₀) :=
  decidable_of_iff (_ ∧ _ ∧ _)
    ⟨fun h => ⟨h.1, h.2.1, h.2.2⟩, fun h => ⟨h.replies, h.current, h.call⟩⟩

def exampleFrame : ServerFrame := ⟨0x100, 0x200, by unfold Apart; decide⟩

/-- The server, task 0, has created tasks 2 to 8, and task 8 waits in Receive.  Task 2 calls `Delay`
for one tick, task 3 sends the tick, and the server replies to it. -/
def strandedTraps : List Trap :=
  let message (action ticks : U32) := store32 (store32 (fun _ => 0) 0x300 action) 0x304 ticks
  List.replicate 6 (svc 1 [4]) ++ [svc 1 [6], svc 22 [0x500, 0x600, 8],
    svc 22 [0x100, 0x200, 8], { svc 21 [0, 0x300, 8, 0x300, 8] with mem := message 2 1 },
    svc 22 [0x100, 0x200, 8], svc 21 [0, 0x300, 8, 0x300, 8], svc 23 [3, 0x300, 8]]

end RealtimeKernel
