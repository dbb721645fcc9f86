import RealtimeKernel.MessageDelivery
import RealtimeKernel.Lib.Copies

/-!
# Every Receive and every Send, over a run

The call rule follows one system call from its trap to its return.  With it, and with the backlogs
of the rings, a whole run delivers every message once, to each task in the order of the Sends, and
every Send that returns a length was received once and replied to once.
-/

namespace RealtimeKernel

open Lib

/-- The call that `t` made in iteration `i` returns `v`: it has not trapped in the iterations `q`
since, and is resumed next with `v` in `x0`. -/
structure CallReturns (k : Kernel) (t : TaskPtr) (i : Iter Kernel Trap)
    (q : List (Iter Kernel Trap)) (v : U64) : Prop where
  trapped : i.mid.currentTask = some t
  since : ∀ j ∈ q, j.mid.currentTask ≠ some t
  resumed : ∃ k₁ k₂, schedule k = .ok (some t, k₁) ∧ activate k₁ t = .ok k₂ ∧ (k₂.task t).x 0 = v

/-- Messages are delivered exactly once, and to each task in the order of their Sends. -/
structure DeliversOnce (h : List (Iter Kernel Trap)) (k : Kernel) : Prop where
  order : ∀ r, h.filterMap (deliveredTo r) <+: h.filterMap (acceptedFor r)
  reported : ∀ r, (∀ i ∈ h, ∀ d, handoverTo r i = some d → d.WordApart) →
    h.filterMap (reportedTo r) <+: (h.filterMap (acceptedFor r)).map Message.sender
  bytes : ∀ i ∈ h, ∀ r d, handoverTo r i = some d → d.Unspoiled → ∀ n < d.len.toNat,
    i.next.mem (Addr.offset d.buffer.msg n) = i.mid.mem (Addr.offset d.message.args.msg n)
  receive : ∀ p i q r v, h = p ++ i :: q → CallReturns k r i q v →
    i.input.syscall = some .receive → ∃ d, (i :: q).filterMap (handoverTo r) = [d] ∧
      d.buffer = getReceiveArgs (i.mid.task r) ∧ toInt32 v = d.len
  send : ∀ p i q s v, h = p ++ i :: q → CallReturns k s i q v → i.input.syscall = some .send →
    0 ≤ toInt32 v → ∃ r n, target i.mid i.input = some r ∧
      (i :: q).filterMap (stageOf s) = [.received r (i.mid.message s), .replied n] ∧
      toInt32 v = min n (toInt32 (i.mid.message s).args.replyLen)

/-! ### One call -/

/-- The call rule: what holds once the trap of `i` has been handled, and is kept while its task does
not trap again, holds where the run has arrived. -/
theorem Boot.Reaches.call {b : Boot} {p q : List (Iter Kernel Trap)} {i : Iter Kernel Trap}
    {k : Kernel} (r : b.Reaches (p ++ i :: q) k)
    (hreply : ∀ j ∈ p ++ i :: q, j.mid.ReplyOk j.input) {t : TaskPtr}
    (ht : i.mid.currentTask = some t) (hsince : ∀ j ∈ q, j.mid.currentTask ≠ some t)
    {I : List (Iter Kernel Trap) → AbsKernel → Prop}
    (start : ∀ m a', AbsKernel.Handled b.img i m t a' → t ∈ a'.jobq ∧ I [i] a')
    (enter : ∀ l a trap c m, I l a → a.Orderly → AbsKernel.Enters a trap c m → I l m)
    (step : ∀ l j m c a', I l m → AbsKernel.Handled b.img j m c a' → t ∈ m.jobq → t ≠ c →
      t ∈ a'.jobq ∧ I (l ++ [j]) a') :
    ∃ a, Rep k a ∧ a.Orderly ∧ t ∈ a.jobq ∧ I (i :: q) a := by
  induction q using List.reverseRecOn generalizing k with
  | nil =>
    obtain ⟨hhead, hm, hn, rfl⟩ := r.unsnoc
    obtain ⟨a, hrep, ho, -⟩ := hhead.accounted fun j hj => hreply j (List.mem_append_left _ hj)
    obtain ⟨c, m, a', -, hh⟩ := hrep.handled ho (hreply i (by simp)) hm hn
    obtain rfl : c = t := Option.some.inj (hh.current_mid.symm.trans ht)
    obtain ⟨hlive, hI⟩ := start m a' hh
    exact ⟨a', hh.next, hh.after, hlive, hI⟩
  | append_singleton q j ih =>
    have hlist : p ++ i :: (q ++ [j]) = (p ++ i :: q) ++ [j] := by simp
    rw [hlist] at r hreply
    obtain ⟨hhead, hm, hn, rfl⟩ := r.unsnoc
    obtain ⟨a, hrep, ho, hlive, hI⟩ := ih hhead
      (fun j' hj => hreply j' (List.mem_append_left _ hj))
      fun j' hj => hsince j' (List.mem_append_left _ hj)
    obtain ⟨c, m, a', hent, hh⟩ := hrep.handled ho (hreply j (by simp)) hm hn
    have htc : t ≠ c := by
      rintro rfl
      exact hsince j (by simp) hh.current_mid
    obtain ⟨hjobq, -⟩ := hent.traffic
    obtain ⟨hlive', hI'⟩ := step _ j m c a' (enter _ _ _ _ _ hI ho hent) hh (hjobq ▸ hlive) htc
    exact ⟨a', hh.next, hh.after, hlive', hI'⟩

/-- The task of a call that returns is scheduled and resumed without pointers too. -/
theorem CallReturns.abs {k : Kernel} {t : TaskPtr} {i : Iter Kernel Trap}
    {q : List (Iter Kernel Trap)} {v : U64} (hv : CallReturns k t i q v) {a : AbsKernel}
    (hr : Rep k a) : ∃ a₁ a₂, a.schedule = .ok (some t, a₁) ∧ a₁.activate t = .ok a₂ ∧
      (a₂.task t).x 0 = v := by
  obtain ⟨k₁, k₂, hs, ha, hx⟩ := hv.resumed
  obtain ⟨⟨o, a₁⟩, hs', ho, hrep₁⟩ := hr.schedule.ok_left hs
  obtain rfl : some t = o := ho
  obtain ⟨a₂, ha', hrep₂⟩ := (hrep₁.activate t).ok_left ha
  refine ⟨a₁, a₂, hs', ha', ?_⟩
  rw [hrep₂.x_eq]
  exact hx

section Call

variable {b : Boot} {p q : List (Iter Kernel Trap)} {i : Iter Kernel Trap} {k : Kernel}
  {t : TaskPtr} {v : U64}

theorem Handover.len_range (d : Handover) : -2 ^ 31 ≤ d.len ∧ d.len < 2 ^ 31 := by
  have h₁ := toInt32_range d.message.args.msgLen
  have h₂ := toInt32_range d.buffer.msgLen
  unfold Handover.len
  omega

/-- **A Receive that returns** was handed one message and returns its length. -/
theorem Boot.Reaches.receive_returns (r : b.Reaches (p ++ i :: q) k)
    (hreply : ∀ j ∈ p ++ i :: q, j.mid.ReplyOk j.input) (hv : CallReturns k t i q v)
    (call : i.input.syscall = some .receive) :
    ∃ d, (i :: q).filterMap (handoverTo t) = [d] ∧ d.buffer = getReceiveArgs (i.mid.task t) ∧
      toInt32 v = d.len := by
  have hexit : t = t → i.input.syscall ≠ some .exit := fun _ => by
    rw [call]
    decide
  obtain ⟨a, hrep, ho, hlive, hI⟩ := r.call hreply hv.trapped hv.since
    (I := fun l a => AbsKernel.Receiving l (getReceiveArgs (i.mid.task t)) a t)
    (fun m a' hh => ⟨hh.effect.live hh.orderly.toWellFormed hh.live hexit, hh.receiving call⟩)
    (fun l a trap c m hI ho he => hI.enters ho he)
    (fun l j m c a' hI hh ht htc => by
      have hevent : (m.task t).state ≠ .awatievent := by
        cases hI with
        | waits state =>
          rw [state]
          decide
        | done once args returning => exact returning.not_awaiting
      obtain ⟨hlive, hto⟩ := hh.mailTo ht htc hevent
      exact ⟨hlive, hI.step hh hto (hh.kept ht hlive)⟩)
  obtain ⟨a₁, a₂, hs, ha, hx⟩ := hv.abs hrep
  cases hI with
  | waits state =>
    have hno := ho.scheduled hs
    rw [state] at hno
    cases hno
  | @done d once args returning =>
    refine ⟨d, once, args, ?_⟩
    rw [← hx, returning.resumed hs ha]
    exact toInt32_ofInt d.len_range.1 d.len_range.2

/-- **A Send that returns a length** was received by the task it names and then replied to, once
each, and returns the length of the reply. -/
theorem Boot.Reaches.send_returns (r : b.Reaches (p ++ i :: q) k)
    (hreply : ∀ j ∈ p ++ i :: q, j.mid.ReplyOk j.input) (hv : CallReturns k t i q v)
    (call : i.input.syscall = some .send) (hpos : 0 ≤ toInt32 v) :
    ∃ r n, target i.mid i.input = some r ∧
      (i :: q).filterMap (stageOf t) = [.received r (i.mid.message t), .replied n] ∧
      toInt32 v = min n (toInt32 (i.mid.message t).args.replyLen) := by
  have hexit : t = t → i.input.syscall ≠ some .exit := fun _ => by
    rw [call]
    decide
  obtain ⟨a, hrep, ho, hlive, hI⟩ := r.call hreply hv.trapped hv.since
    (I := fun l a => (∃ w : ℤ, (w = -1 ∨ w = -2) ∧ a.Returning t (ofInt w)) ∨
      ∃ r, target i.mid i.input = some r ∧ AbsKernel.Sending l (i.mid.message t) r a t)
    (fun m a' hh => ⟨hh.effect.live hh.orderly.toWellFormed hh.live hexit, hh.sending call⟩)
    (fun l a trap c m hI ho he => hI.imp
      (fun ⟨w, hw, hret⟩ => ⟨w, hw, hret.enters ho he⟩)
      fun ⟨r, hr, hs⟩ => ⟨r, hr, hs.enters ho he⟩)
    (fun l j m c a' hI hh ht htc => by
      have hevent : (m.task t).state ≠ .awatievent := by
        rcases hI with ⟨w, -, hret⟩ | ⟨r, -, hs⟩
        · exact hret.not_awaiting
        · cases hs with
          | queued state =>
            rw [state]
            decide
          | received state =>
            rw [state]
            decide
          | replied range once returning => exact returning.not_awaiting
      obtain ⟨hlive, hto⟩ := hh.mailTo ht htc hevent
      refine ⟨hlive, hI.imp (fun ⟨w, hw, hret⟩ => ⟨w, hw, (hret.step hto).1⟩) ?_⟩
      exact fun ⟨r, hr, hs⟩ => ⟨r, hr, hs.step hh ht htc hto (hh.kept ht hlive)⟩)
  obtain ⟨a₁, a₂, hs, ha, hx⟩ := hv.abs hrep
  have hblocked : ∀ {u : TaskState}, (a.task t).state = u → u.beforeReady = false := by
    rintro u rfl
    exact ho.scheduled hs
  rcases hI with ⟨w, hw, hret⟩ | ⟨r, hr, hsend⟩
  · -- the Send was refused
    rw [← hx, hret.resumed hs ha] at hpos
    rcases hw with rfl | rfl
    · exact absurd hpos (by decide)
    · exact absurd hpos (by decide)
  · cases hsend with
    | queued state => cases hblocked state
    | received state => cases hblocked state
    | @replied n range once returning =>
      refine ⟨r, n, hr, once, ?_⟩
      have hlen := toInt32_range (i.mid.message t).args.replyLen
      rw [← hx, returning.resumed hs ha]
      exact toInt32_ofInt (by omega) (by omega)

end Call

/-! ### All messages of a run -/

section Run

variable {b : Boot} {h : List (Iter Kernel Trap)} {k : Kernel} {i : Iter Kernel Trap} {r : TaskPtr}

/-- Every iteration of a run is handled by the task that made the trap, in a state in which the
tasks that wait for a message have room for it. -/
theorem Boot.Reaches.handled (hr : b.Reaches h k) (hreply : ∀ i ∈ h, i.mid.ReplyOk i.input)
    (hlen : ∀ i ∈ h, i.input.LengthsOk) (hi : i ∈ h) :
    ∃ m c a', AbsKernel.Handled b.img i m c a' ∧ m.RoomOk := by
  have hroom : ∀ {h : List (Iter Kernel Trap)} {k : Kernel}, b.Reaches h k →
      (∀ i ∈ h, i.mid.ReplyOk i.input ∧ i.input.LengthsOk) →
      ∃ a, Rep k a ∧ a.Orderly ∧ a.RoomOk := by
    rintro h k ⟨k₀, hk₀, hrun⟩ hok
    refine hrun.history (I := fun _ k => ∃ a, Rep k a ∧ a.Orderly ∧ a.RoomOk)
      (P := fun i => i.mid.ReplyOk i.input ∧ i.input.LengthsOk) ?_ hok ?_
    · obtain ⟨a₀, ha₀, ho, hfresh⟩ := AbsKernel.boot_ok b
      obtain ⟨a₁, ha₁, hrep⟩ := Refines.ok_left (y := AbsKernel.boot b) b.kernel_refines hk₀
      obtain rfl : a₀ = a₁ := Except.ok.inj (ha₀.symm.trans ha₁)
      refine ⟨a₀, hrep, ho, fun t _ hst => ?_⟩
      rcases hfresh.state t with hs | hs
      · rw [hs] at hst
        cases hst
      · rw [hs] at hst
        cases hst
    · rintro h k trap m k' - - ⟨a, hrep, ho, hroom⟩ ⟨hreply, hlen⟩ hm hk'
      obtain ⟨c, m', a', hent, hh⟩ := Rep.handled (i := ⟨k, trap, m, k'⟩) hrep ho hreply hm hk'
      exact ⟨a', hh.next, hh.after,
        (hroom.enters ho hent).step hh (hh.mid.replyOk hreply) hlen⟩
  obtain ⟨p, q, rfl⟩ := List.append_of_mem hi
  obtain ⟨k₀, hk₀, hrun⟩ := hr
  obtain ⟨hhead, hm, hn, -⟩ := hrun.split rfl
  have hp : ∀ j ∈ p, j ∈ p ++ i :: q := fun j hj => List.mem_append_left _ hj
  obtain ⟨a, hrep, ho, hroom⟩ := hroom ⟨k₀, hk₀, hhead⟩
    fun j hj => ⟨hreply j (hp j hj), hlen j (hp j hj)⟩
  obtain ⟨c, m, a', hent, hh⟩ := hrep.handled ho (hreply i hi) hm hn
  exact ⟨m, c, a', hh, hroom.enters ho hent⟩

/-- A message that is delivered has a length that is not negative. -/
theorem Boot.Reaches.message_ok (hr : b.Reaches h k) (hreply : ∀ i ∈ h, i.mid.ReplyOk i.input)
    (hlen : ∀ i ∈ h, i.input.LengthsOk) {msg : Message}
    (hmsg : msg ∈ h.filterMap (deliveredTo r)) : 0 ≤ toInt32 msg.args.msgLen := by
  obtain ⟨a, -, -, hacc⟩ := hr.accounted hreply
  obtain ⟨j, hj, hsent⟩ := List.mem_filterMap.mp ((hacc.isPrefix r).subset hmsg)
  obtain ⟨m, c, a', hh, -⟩ := hr.handled hreply hlen hj
  unfold acceptedFor at hsent
  obtain ⟨⟨s, t⟩, hst, hsome⟩ := Option.bind_eq_some_iff.mp hsent
  obtain ⟨call, hcur, -⟩ := target_of_accepted hst
  obtain rfl : s = c := Option.some.inj (hcur.symm.trans hh.current_mid)
  split at hsome
  · obtain rfl := Option.some.inj hsome
    show 0 ≤ toInt32 ((j.mid.task s).x 2)
    rw [← hh.mid.x_eq, hh.x]
    exact ((hlen j hj).send call).1
  · cases hsome

/-- The word of the tid reads back as the tid of the sender, when the buffer is apart from it. -/
theorem AbsKernel.Handled.reported {m a' : AbsKernel} {c : TaskPtr}
    (hh : AbsKernel.Handled b.img i m c a') {d : Handover} (hd : handoverTo r i = some d)
    (hpos : 0 ≤ d.len) (hapart : d.WordApart) :
    loadInt i.next.mem d.buffer.tid = d.message.sender := by
  obtain ⟨hmem, htid⟩ := hh.handed hd
  have hn : toUsize d.len = d.len.toNat := toUsize_of_nonneg hpos d.len_range.2
  rw [hmem, hn]
  unfold loadInt memcpy
  rw [load32_congr (m := storeInt i.mid.mem d.buffer.tid d.message.sender)]
  · unfold storeInt
    rw [load32_store32, BitVec.toInt_ofInt]
    simp only [maxTaskNum] at htid
    apply Int.bmod_eq_of_le
    · omega
    · omega
  · intro n hn
    exact copyBytes_of_ne _ _ _ fun j hj => hapart n hn j hj

/-- The buffer holds the bytes of the message, when none is written to before it is read. -/
theorem AbsKernel.Handled.bytes {m a' : AbsKernel} {c : TaskPtr}
    (hh : AbsKernel.Handled b.img i m c a') {d : Handover} (hd : handoverTo r i = some d)
    (hpos : 0 ≤ d.len) (hapart : d.Unspoiled) {n : ℕ} (hn : n < d.len.toNat) :
    i.next.mem (Addr.offset d.buffer.msg n) = i.mid.mem (Addr.offset d.message.args.msg n) := by
  obtain ⟨hmem, -⟩ := hh.handed hd
  have hlen : toUsize d.len = d.len.toNat := toUsize_of_nonneg hpos d.len_range.2
  have hrange := d.len_range
  rw [hmem, hlen]
  have hund : Undisturbed (storeInt i.mid.mem d.buffer.tid d.message.sender) d.buffer.msg
      d.message.args.msg d.len.toNat := fun n hn j hj heq => absurd heq (hapart.2 n hn j hj)
  unfold memcpy
  rw [(copyBytes_faithful_iff _ _ _ (by omega)).mpr hund n hn]
  exact store32_of_ne _ _ _ fun j hj => hapart.1 n hn j hj

end Run

/-- **Messages are delivered exactly once**, to each task in the order of their Sends, in every run
in which Replies name tasks in state `WATIREPLY` and no length is negative.  A tid is found in its
word when the buffer does not overlap the word, and the bytes of a message in its buffer when none
of them is written to before it is read. -/
theorem messages_exactly_once (b : Boot) (h : List (Iter Kernel Trap)) (k : Kernel)
    (r : b.Reaches h k) (hreply : ∀ i ∈ h, i.mid.ReplyOk i.input)
    (hlen : ∀ i ∈ h, i.input.LengthsOk) : DeliversOnce h k := by
  obtain ⟨a, -, -, hacc⟩ := r.accounted hreply
  have hpos : ∀ i ∈ h, ∀ t d, handoverTo t i = some d → 0 ≤ d.len := by
    intro i hi t d hd
    obtain ⟨m, c, a', hh, hroom⟩ := r.handled hreply hlen hi
    have hbuffer := hh.buffer_ok hroom (hlen i hi) hd
    obtain ⟨msg, hmsg, rfl⟩ := Option.map_eq_some_iff.mp hd
    exact le_min (r.message_ok hreply hlen (List.mem_filterMap.mpr ⟨i, hi, hmsg⟩)) hbuffer
  constructor
  · exact hacc.isPrefix
  · intro t hapart
    have hsame : h.filterMap (reportedTo t) = (h.filterMap (deliveredTo t)).map Message.sender := by
      rw [List.map_filterMap]
      apply List.filterMap_congr
      intro i hi
      unfold reportedTo
      cases hmsg : deliveredTo t i with
      | none =>
        rw [handoverTo_of_none hmsg]
        rfl
      | some msg =>
        have hd := handoverTo_of_some hmsg
        obtain ⟨m, c, a', hh, -⟩ := r.handled hreply hlen hi
        rw [hd, Option.map_some, Option.map_some,
          hh.reported hd (hpos i hi t _ hd) (hapart i hi _ hd)]
    rw [hsame]
    exact (hacc.isPrefix t).map Message.sender
  · intro i hi t d hd hapart n hn
    obtain ⟨m, c, a', hh, -⟩ := r.handled hreply hlen hi
    exact hh.bytes hd (hpos i hi t d hd) hapart hn
  · rintro p i q t v rfl hv call
    exact r.receive_returns hreply hv call
  · rintro p i q t v rfl hv call hpos
    exact r.send_returns hreply hv call hpos

instance (trap : Trap) : Decidable trap.LengthsOk :=
  decidable_of_iff ((trap.syscall = some .send → 0 ≤ toInt32 (trap.x 2) ∧ 0 ≤ toInt32 (trap.x 4)) ∧
      (trap.syscall = some .receive → 0 ≤ toInt32 (trap.x 2)) ∧
      (trap.syscall = some .reply → 0 ≤ toInt32 (trap.x 2)))
    ⟨fun ⟨h₁, h₂, h₃⟩ => ⟨h₁, h₂, h₃⟩, fun ⟨h₁, h₂, h₃⟩ => ⟨h₁, h₂, h₃⟩⟩

/-- The first task receives a message of the idle task and replies to it. -/
theorem messages_exactly_once_run : ∃ hist k, zeroBoot.Reaches hist k ∧
    hist.map Iter.input = [svc 22 [0x100, 0x200, 4], svc 21 [0, 0x300, 4, 0x400, 8],
      svc 23 [1, 0x200, 8]] ∧
    (hist.filterMap (deliveredTo 0)).map Message.sender = [1] ∧ DeliversOnce hist k := by
  obtain ⟨hist, k, r, hmap, hk⟩ := Boot.reaches_of_check zeroBoot
    [svc 22 [0x100, 0x200, 4], svc 21 [0, 0x300, 4, 0x400, 8], svc 23 [1, 0x200, 8]]
    (fun h _ => decide ((h.filterMap (deliveredTo 0)).map Message.sender = [1] ∧
      (∀ i ∈ h, i.mid.ReplyOk i.input) ∧ ∀ i ∈ h, i.input.LengthsOk)) (by decide +kernel)
  obtain ⟨hdel, hreply, hlen⟩ := of_decide_eq_true hk
  exact ⟨hist, k, r, hmap, hdel, messages_exactly_once zeroBoot hist k r hreply hlen⟩

/-- The message lies in the word for the tid, and the buffer overlaps both: the receiver finds the
tid of no task that sent to it, and not the byte that was sent. -/
theorem tid_and_message_overwritten : ∃ hist k, zeroBoot.Reaches hist k ∧
    hist.map Iter.input = [svc 22 [0x200, 0x201, 4], svc 21 [0, 0x200, 4, 0x400, 8]] ∧
    (∀ i ∈ hist, i.mid.ReplyOk i.input) ∧ (∀ i ∈ hist, i.mid.SendOk i.input) ∧
    (∀ i ∈ hist, i.input.LengthsOk) ∧
    (hist.filterMap (acceptedFor 0)).map Message.sender = [1] ∧
    hist.filterMap (reportedTo 0) = [0x01010101] ∧
    ¬ hist.filterMap (reportedTo 0) <+: (hist.filterMap (acceptedFor 0)).map Message.sender ∧
    ∃ i ∈ hist, (handoverTo 0 i).any (fun d => decide (d.len = 4 ∧
      i.next.mem (Addr.offset d.buffer.msg 0) ≠
        i.mid.mem (Addr.offset d.message.args.msg 0))) = true := by
  obtain ⟨hist, k, r, hmap, hk⟩ := Boot.reaches_of_check zeroBoot
    [svc 22 [0x200, 0x201, 4], svc 21 [0, 0x200, 4, 0x400, 8]]
    (fun h _ => decide ((∀ i ∈ h, i.mid.ReplyOk i.input) ∧ (∀ i ∈ h, i.mid.SendOk i.input) ∧
      (∀ i ∈ h, i.input.LengthsOk) ∧ (h.filterMap (acceptedFor 0)).map Message.sender = [1] ∧
      h.filterMap (reportedTo 0) = [0x01010101] ∧
      ∃ i ∈ h, (handoverTo 0 i).any (fun d => decide (d.len = 4 ∧
        i.next.mem (Addr.offset d.buffer.msg 0) ≠
          i.mid.mem (Addr.offset d.message.args.msg 0))) = true)) (by decide +kernel)
  obtain ⟨hreply, hsend, hlen, hacc, hrep, hbytes⟩ := of_decide_eq_true hk
  refine ⟨hist, k, r, hmap, hreply, hsend, hlen, hacc, hrep, ?_, hbytes⟩
  rw [hrep, hacc]
  decide

end RealtimeKernel
