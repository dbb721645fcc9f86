import RealtimeKernel.MessageOrder

/-!
# Messages are delivered exactly once

`handoverTo r` reads off an iteration the message that it delivers to `r` and the buffer it goes to,
`stageOf s` what it does for the Send that `s` is blocked in.  A Receive that returns was handed one
message, and a Send that returns a length was received by the task it names and then replied to,
once each.  What a Receive finds in its buffer is the message, and in its word the tid of the
sender, as long as these places do not overlap.
-/

namespace RealtimeKernel

open Lib

/-- A message on its way into the buffer of a Receive. -/
structure Handover where
  message : Message
  buffer : ReceiveArgs

namespace Handover

/-- The number of bytes that the buffer and the message have room for. -/
def len (d : Handover) : ℤ := min (toInt32 d.message.args.msgLen) (toInt32 d.buffer.msgLen)

/-- The word for the tid and the buffer do not overlap. -/
def WordApart (d : Handover) : Prop := Apart d.buffer.tid 4 d.buffer.msg d.len.toNat

/-- No byte of the message is written to before it is read: it does not overlap the word for the
tid, and no byte of it lies at a smaller offset of the buffer. -/
def Unspoiled (d : Handover) : Prop :=
  Apart d.message.args.msg d.len.toNat d.buffer.tid 4 ∧
    ∀ n < d.len.toNat, ∀ j < n, Addr.offset d.message.args.msg n ≠ Addr.offset d.buffer.msg j

end Handover

/-- The message that an iteration delivers to `r`, with the buffer. -/
def handoverTo (r : TaskPtr) (i : Iter Kernel Trap) : Option Handover :=
  (deliveredTo r i).map fun msg => ⟨msg, getReceiveArgs (i.mid.task r)⟩

/-- The tid that `r` finds with the message an iteration delivers to it. -/
def reportedTo (r : TaskPtr) (i : Iter Kernel Trap) : Option ℤ :=
  (handoverTo r i).map fun d => loadInt i.next.mem d.buffer.tid

/-- What can happen to a blocked Send. -/
inductive Stage
  | received (r : TaskPtr) (message : Message)
  | replied (len : ℤ)

/-- What an iteration does for the Send of `s`. -/
def stageOf (s : TaskPtr) (i : Iter Kernel Trap) : Option Stage :=
  if i.input.syscall = some .reply then
    if target i.mid i.input = some s then some (.replied (toInt32 (i.input.x 2))) else none
  else (delivery i).bind fun p =>
    if p.1 = s then some (.received p.2 (i.mid.message p.1)) else none

/-- The lengths that a system call is given are not negative. -/
structure Trap.LengthsOk (trap : Trap) : Prop where
  send : trap.syscall = some .send → 0 ≤ toInt32 (trap.x 2) ∧ 0 ≤ toInt32 (trap.x 4)
  receive : trap.syscall = some .receive → 0 ≤ toInt32 (trap.x 2)
  reply : trap.syscall = some .reply → 0 ≤ toInt32 (trap.x 2)

theorem actualLen_eq_min (n m : ℤ) : actualLen n m = min n m := by
  unfold actualLen
  split
  · omega
  · omega

section Iterations

variable {i : Iter Kernel Trap} {r s t : TaskPtr}

theorem handoverTo_of_none (h : deliveredTo r i = none) : handoverTo r i = none := by
  unfold handoverTo
  rw [h]
  rfl

theorem handoverTo_of_some {msg : Message} (h : deliveredTo r i = some msg) :
    handoverTo r i = some ⟨msg, getReceiveArgs (i.mid.task r)⟩ := by
  unfold handoverTo
  rw [h]
  rfl

theorem stageOf_reply (call : i.input.syscall = some .reply) :
    stageOf s i = if target i.mid i.input = some s then
      some (.replied (toInt32 (i.input.x 2))) else none := if_pos call

theorem stageOf_delivery (call : i.input.syscall ≠ some .reply) (h : delivery i = some (s, r)) :
    stageOf t i = if s = t then some (.received r (i.mid.message s)) else none := by
  unfold stageOf
  rw [if_neg call, h]
  rfl

theorem stageOf_none (call : i.input.syscall ≠ some .reply) (h : delivery i = none) :
    stageOf t i = none := by
  unfold stageOf
  rw [if_neg call, h]
  rfl

/-- A Send that is accepted names its receiver. -/
theorem target_of_accepted (h : accepted i = some (s, r)) :
    i.input.syscall = some .send ∧ i.mid.currentTask = some s ∧ target i.mid i.input = some r := by
  unfold accepted at h
  split at h
  · rename_i call
    split at h
    · rename_i c hc
      split at h
      · obtain ⟨r', hr', heq⟩ := Option.map_eq_some_iff.mp h
        obtain ⟨rfl, rfl⟩ := Prod.mk.inj heq
        exact ⟨call, hc, hr'⟩
      · cases h
    · cases h
  · cases h

end Iterations

namespace AbsKernel

variable {h l : List (Iter Kernel Trap)} {i : Iter Kernel Trap} {a a' m : AbsKernel} {img : Image}
  {c r s t : TaskPtr} {trap : Trap}

/-! ### What an iteration means for one task -/

/-- What the handler of an iteration, run for another task `c`, means for the messages of `t`. -/
inductive MailTo (i : Iter Kernel Trap) (m : AbsKernel) (c : TaskPtr) (a' : AbsKernel)
    (t : TaskPtr) : Prop
  | nothing (state : (a'.task t).state = (m.task t).state) (passing : a'.passing t = m.passing t)
      (delivered : deliveredTo t i = none) (stage : stageOf t i = none)
  | handed (wait : (m.task t).state = .waitreceive) (ready : (a'.task t).state = .ready)
      (handed : m.Handed c t a') (delivered : deliveredTo t i = some (i.mid.message c))
  | taken (wait : (m.task t).state = .watisend) (now : (a'.task t).state = .watireply)
      (ring : c ∈ m.jobq ∧ ofInt (m.task t).tid ∈ m.rings c)
      (stage : stageOf t i = some (.received c (i.mid.message t)))
  | replied (wait : (m.task t).state = .watireply) (ready : (a'.task t).state = .ready)
      (passed : a'.passing t = some (ofInt (m.repliedLen c t)))
      (stage : stageOf t i = some (.replied (toInt32 (i.input.x 2))))

theorem Handled.mailTo (hh : Handled img i m c a') (ht : t ∈ m.jobq) (htc : t ≠ c)
    (hevent : (m.task t).state ≠ .awatievent) : t ∈ a'.jobq ∧ MailTo i m c a' t := by
  have htarget : target i.mid i.input = m.getTaskByTid (toInt32 ((m.task c).x 0)) := by
    rw [hh.mid.target_eq, ← hh.x]
  have hsend : ∀ {p}, accepted i = some p → i.input.syscall ≠ some .reply := by
    intro p hp
    rw [(target_of_accepted (s := p.1) (r := p.2) hp).1]
    decide
  cases hh.mail with
  | quiet acc del call rings stays =>
    obtain ⟨hlive, hstate, hpass⟩ := stays t ht htc (by simp) hevent
    refine ⟨hlive, .nothing hstate hpass (deliveredTo_of_none del) ?_⟩
    by_cases hreply : i.input.syscall = some .reply
    · rw [stageOf_reply hreply, htarget]
      exact if_neg fun hl => htc ((call.resolve_left (not_not.mpr hreply)) t hl)
    · exact stageOf_none hreply del
  | @direct r acc del live jobq ring rings wait ready sender handed stays =>
    refine ⟨jobq ▸ ht, ?_⟩
    by_cases hrt : r = t
    · subst hrt
      exact .handed wait ready handed (by rw [deliveredTo_of_some del, if_pos rfl])
    · obtain ⟨-, hstate, hpass⟩ := stays t ht htc (fun he => hrt (Option.some.inj he)) hevent
      refine .nothing hstate hpass ?_ ?_
      · rw [deliveredTo_of_some del, if_neg hrt]
      · rw [stageOf_delivery (hsend acc) del, if_neg fun he => htc he.symm]
  | queued acc del live jobq ring rings sender stays =>
    obtain ⟨-, hstate, hpass⟩ := stays t ht htc (by simp) hevent
    exact ⟨jobq ▸ ht,
      .nothing hstate hpass (deliveredTo_of_none del) (stageOf_none (hsend acc) del)⟩
  | @taken s call acc del live jobq ring rings wait now running handed passing stays =>
    have hcall : i.input.syscall ≠ some .reply := by
      rw [call]
      decide
    refine ⟨jobq ▸ ht, ?_⟩
    by_cases hst : s = t
    · subst hst
      refine .taken wait now ⟨live.2, ?_⟩ (by rw [stageOf_delivery hcall del, if_pos rfl])
      rw [ring]
      exact List.mem_cons_self
    · obtain ⟨-, hstate, hpass⟩ := stays t ht htc (fun he => hst (Option.some.inj he)) hevent
      refine .nothing hstate hpass ?_ ?_
      · rw [deliveredTo_of_some del, if_neg fun he => htc he.symm]
      · rw [stageOf_delivery hcall del, if_neg hst]
  | @replied s call acc del lookup jobq rings wait ready passed stays =>
    refine ⟨jobq ▸ ht, ?_⟩
    by_cases hst : s = t
    · subst hst
      refine .replied wait ready passed ?_
      rw [stageOf_reply call, htarget, lookup, if_pos rfl]
    · obtain ⟨-, hstate, hpass⟩ := stays t ht htc (fun he => hst (Option.some.inj he)) hevent
      refine .nothing hstate hpass (deliveredTo_of_none del) ?_
      rw [stageOf_reply call, htarget, lookup]
      exact if_neg fun he => hst (Option.some.inj he)

/-- A sender that waits is put in no further ring. -/
theorem Handled.ring_mem (hh : Handled img i m c a') (hs : s ∈ m.jobq) (hsc : s ≠ c)
    (ht : t ∈ a'.jobq) (hin : ofInt (m.task s).tid ∈ a'.rings t) :
    t ∈ m.jobq ∧ ofInt (m.task s).tid ∈ m.rings t := by
  cases hh.mail with
  | quiet acc del call rings =>
    rcases rings t ht with ⟨htm, hring⟩ | ⟨-, hring⟩
    · exact ⟨htm, hring ▸ hin⟩
    · rw [hring] at hin
      cases hin
  | direct acc del live jobq ring rings => exact ⟨jobq ▸ ht, rings ▸ hin⟩
  | @queued r acc del live jobq ring rings =>
    refine ⟨jobq ▸ ht, ?_⟩
    by_cases htr : t = r
    · subst htr
      rw [ring, List.mem_append, List.mem_singleton] at hin
      exact hin.resolve_right fun he => hsc (hh.orderly.ofInt_tid_inj hs hh.live he)
    · exact rings t htr ▸ hin
  | taken call acc del live jobq ring rings =>
    refine ⟨jobq ▸ ht, ?_⟩
    by_cases htc : t = c
    · subst htc
      rw [ring]
      exact List.mem_cons_of_mem _ hin
    · exact rings t htc ▸ hin
  | replied call acc del lookup jobq rings => exact ⟨jobq ▸ ht, rings ▸ hin⟩

/-! ### A task that is to return -/

/-- `t` can run, and will be given `v` when it does. -/
structure Returning (a : AbsKernel) (t : TaskPtr) (v : U64) : Prop where
  able : (a.task t).state = .ready ∨ (a.task t).state = .running
  passed : a.passing t = some v

theorem Returning.not_awaiting {v : U64} (hr : a.Returning t v) :
    (a.task t).state ≠ .awatievent := by
  rcases hr.able with hs | hs
  · rw [hs]
    decide
  · rw [hs]
    decide

theorem Returning.enters {v : U64} (hr : a.Returning t v) (ho : a.Orderly)
    (he : Enters a trap c m) : m.Returning t v := by
  obtain ⟨-, hpass, hbefore, -⟩ := he.keeps ho t
  refine ⟨?_, hpass.trans hr.passed⟩
  have hfalse : (m.task t).state.beforeReady = false := by
    rw [hbefore]
    rcases hr.able with hs | hs
    · rw [hs]
      rfl
    · rw [hs]
      rfl
  cases hst : (m.task t).state with
  | ready => exact Or.inl rfl
  | running => exact Or.inr rfl
  | _ =>
    rw [hst] at hfalse
    cases hfalse

theorem Returning.step {v : U64} (hr : m.Returning t v) (hmail : MailTo i m c a' t) :
    a'.Returning t v ∧ deliveredTo t i = none ∧ stageOf t i = none := by
  have hno : ∀ {u : TaskState}, (m.task t).state = u → u ≠ .ready → u ≠ .running → False := by
    intro u hu h₁ h₂
    have hable := hr.able
    rw [hu] at hable
    exact hable.elim h₁ h₂
  cases hmail with
  | nothing hstate hpass hdel hstage =>
    exact ⟨⟨hstate ▸ hr.able, hpass.trans hr.passed⟩, hdel, hstage⟩
  | handed wait => exact (hno wait (by decide) (by decide)).elim
  | taken wait => exact (hno wait (by decide) (by decide)).elim
  | replied wait => exact (hno wait (by decide) (by decide)).elim

/-! ### From a Receive to its return -/

/-- Where the Receive of `t` with the given buffer is after the iterations `l`, the first of them
its own. -/
inductive Receiving (l : List (Iter Kernel Trap)) (buffer : ReceiveArgs) (a : AbsKernel)
    (t : TaskPtr) : Prop
  | waits (state : (a.task t).state = .waitreceive) (args : getReceiveArgs (a.task t) = buffer)
      (none : l.filterMap (handoverTo t) = [])
  | done {d : Handover} (once : l.filterMap (handoverTo t) = [d]) (args : d.buffer = buffer)
      (returning : a.Returning t (ofInt d.len))

theorem Receiving.enters {buffer : ReceiveArgs} (hr : Receiving l buffer a t) (ho : a.Orderly)
    (he : Enters a trap c m) : Receiving l buffer m t := by
  cases hr with
  | waits state args none =>
    obtain ⟨-, hstate, hx⟩ := he.blocked ho (t := t) (by rw [state]; rfl)
    refine .waits (hstate.trans state) ?_ none
    rw [← args]
    simp only [getReceiveArgs, hx]
  | done once args returning => exact .done once args (returning.enters ho he)

theorem handoverTo_eq (hh : Handled img i m c a') {u : TaskPtr}
    (hd : deliveredTo t i = some (i.mid.message u)) {buffer : ReceiveArgs}
    (args : getReceiveArgs (m.task t) = buffer) :
    ∃ d : Handover, handoverTo t i = some d ∧ d.buffer = buffer ∧ d.len = m.deliveredLen u t := by
  have hargs : getReceiveArgs (i.mid.task t) = buffer := by
    rw [← args]
    unfold getReceiveArgs
    rw [hh.mid.x_eq]
  refine ⟨_, handoverTo_of_some hd, hargs, ?_⟩
  unfold Handover.len AbsKernel.deliveredLen Core.message getSendArgs getReceiveArgs
  rw [actualLen_eq_min, hh.mid.x_eq, hh.mid.x_eq]

theorem Receiving.step {buffer : ReceiveArgs} (hr : Receiving l buffer m t)
    (hh : Handled img i m c a') (hto : MailTo i m c a' t)
    (hkept : (a'.task t).x = (m.task t).x ∧ (a'.task t).tid = (m.task t).tid) :
    Receiving (l ++ [i]) buffer a' t := by
  cases hr with
  | waits state args none =>
    cases hto with
    | nothing hstate hpass hdel =>
      refine .waits (hstate.trans state) ?_ ?_
      · rw [← args]
        simp only [getReceiveArgs, hkept.1]
      · rw [filterMap_snoc, none, handoverTo_of_none hdel]
        rfl
    | handed wait ready handed hdel =>
      obtain ⟨d, hd, hargs, hlen⟩ := handoverTo_eq hh hdel args
      refine .done (d := d) ?_ hargs ⟨Or.inl ready, ?_⟩
      · rw [filterMap_snoc, none, hd]
        rfl
      · rw [hlen]
        exact handed.passed
    | taken wait =>
      rw [state] at wait
      cases wait
    | replied wait =>
      rw [state] at wait
      cases wait
  | done once args returning =>
    obtain ⟨hret, hdel, -⟩ := returning.step hto
    refine .done ?_ args hret
    rw [filterMap_snoc, once, handoverTo_of_none hdel]
    rfl

/-- The Receive itself either takes a message from the ring or blocks. -/
theorem Handled.receiving (hh : Handled img i m c a') (call : i.input.syscall = some .receive) :
    Receiving [i] (getReceiveArgs (i.mid.task c)) a' c := by
  have hargs : getReceiveArgs (m.task c) = getReceiveArgs (i.mid.task c) := by
    unfold getReceiveArgs
    rw [hh.mid.x_eq]
  have hnot : ∀ {p}, accepted i ≠ some p := by
    intro p hp
    have hsend := (target_of_accepted (s := p.1) (r := p.2) hp).1
    rw [call] at hsend
    cases hsend
  cases hh.mail with
  | quiet acc del _ rings stays =>
    have hdeed := hh.effect.deed hh.orderly hh.current hh.running
    rw [call] at hdeed
    cases hdeed with
    | blocked ring =>
      refine .waits ?_ ?_ ?_
      · rw [setState_state, if_pos rfl]
      · rw [← hargs]
        unfold getReceiveArgs
        rw [setState_x]
      · rw [List.filterMap_cons, handoverTo_of_none (deliveredTo_of_none del)]
        rfl
    | @received s live state ring =>
      have hsc := hh.ne_of_state state (by decide)
      have hst := (stays s live hsc (by simp) (by rw [state]; decide)).2.1
      rw [setState_state, if_pos rfl, state] at hst
      cases hst
  | direct acc => exact absurd acc hnot
  | queued acc => exact absurd acc hnot
  | @taken s _ acc del live jobq ring rings wait now running handed =>
    obtain ⟨d, hd, hbuf, hlen⟩ := handoverTo_eq (t := c) (u := s) hh
      (by rw [deliveredTo_of_some del, if_pos rfl]) hargs
    refine .done (d := d) ?_ hbuf ⟨Or.inr running, ?_⟩
    · rw [List.filterMap_cons, hd]
      rfl
    · rw [hlen]
      exact handed.passed
  | replied hcall =>
    rw [call] at hcall
    cases hcall

/-! ### From a Send to its return -/

/-- Where the accepted Send of `s` to `r` is after the iterations `l`, its own the first. -/
inductive Sending (l : List (Iter Kernel Trap)) (msg : Message) (r : TaskPtr) (a : AbsKernel)
    (s : TaskPtr) : Prop
  | queued (state : (a.task s).state = .watisend) (message : a.message s = msg)
      (rings : ∀ t ∈ a.jobq, ofInt (a.task s).tid ∈ a.rings t → t = r)
      (none : l.filterMap (stageOf s) = [])
  | received (state : (a.task s).state = .watireply) (message : a.message s = msg)
      (once : l.filterMap (stageOf s) = [.received r msg])
  | replied {n : ℤ} (range : -2 ^ 31 ≤ n ∧ n < 2 ^ 31)
      (once : l.filterMap (stageOf s) = [.received r msg, .replied n])
      (returning : a.Returning s (ofInt (min n (toInt32 msg.args.replyLen))))

theorem message_congr {b : AbsKernel} (hx : (b.task s).x = (a.task s).x)
    (htid : (b.task s).tid = (a.task s).tid) : b.message s = a.message s := by
  simp only [Core.message, getSendArgs, hx, htid]

theorem Sending.enters {msg : Message} (hs : Sending l msg r a s) (ho : a.Orderly)
    (he : Enters a trap c m) : Sending l msg r m s := by
  obtain ⟨hjobq, hrings, htid, -⟩ := he.traffic
  cases hs with
  | queued state message rings none =>
    obtain ⟨-, hstate, hx⟩ := he.blocked ho (t := s) (by rw [state]; rfl)
    refine .queued (hstate.trans state) ((message_congr hx (htid s)).trans message) ?_ none
    rw [hjobq, hrings, htid s]
    exact rings
  | received state message once =>
    obtain ⟨-, hstate, hx⟩ := he.blocked ho (t := s) (by rw [state]; rfl)
    exact .received (hstate.trans state) ((message_congr hx (htid s)).trans message) once
  | replied range once returning => exact .replied range once (returning.enters ho he)

theorem Sending.step {msg : Message} (hs : Sending l msg r m s) (hh : Handled img i m c a')
    (hsm : s ∈ m.jobq) (hsc : s ≠ c) (hto : MailTo i m c a' s)
    (hkept : (a'.task s).x = (m.task s).x ∧ (a'.task s).tid = (m.task s).tid) :
    Sending (l ++ [i]) msg r a' s := by
  have hmessage : a'.message s = m.message s := message_congr hkept.1 hkept.2
  cases hs with
  | queued state message rings none =>
    cases hto with
    | nothing hstate hpass hdel hstage =>
      refine .queued (hstate.trans state) (hmessage.trans message) (fun t ht hin => ?_) ?_
      · rw [hkept.2] at hin
        obtain ⟨htm, hin'⟩ := hh.ring_mem hsm hsc ht hin
        exact rings t htm hin'
      · rw [filterMap_snoc, none, hstage]
        rfl
    | taken wait now ring hstage =>
      obtain rfl := rings c ring.1 ring.2
      refine .received now (hmessage.trans message) ?_
      rw [filterMap_snoc, none, hstage, ← message, hh.message]
      rfl
    | handed wait =>
      rw [state] at wait
      cases wait
    | replied wait =>
      rw [state] at wait
      cases wait
  | received state message once =>
    cases hto with
    | nothing hstate hpass hdel hstage =>
      refine .received (hstate.trans state) (hmessage.trans message) ?_
      rw [filterMap_snoc, once, hstage]
      rfl
    | replied wait ready passed hstage =>
      refine .replied (n := toInt32 (i.input.x 2)) (toInt32_range _) ?_ ⟨Or.inl ready, ?_⟩
      · rw [filterMap_snoc, once, hstage]
        rfl
      · rw [passed, ← message, ← hh.x]
        unfold repliedLen
        rw [actualLen_eq_min]
        rfl
    | handed wait =>
      rw [state] at wait
      cases wait
    | taken wait =>
      rw [state] at wait
      cases wait
  | replied range once returning =>
    obtain ⟨hret, -, hstage⟩ := returning.step hto
    refine .replied range ?_ hret
    rw [filterMap_snoc, once, hstage]
    rfl

/-- A Send is refused, or on its way to the task that it names. -/
theorem Handled.sending (hh : Handled img i m c a') (call : i.input.syscall = some .send) :
    (∃ v : ℤ, (v = -1 ∨ v = -2) ∧ a'.Returning c (ofInt v)) ∨
      ∃ r, target i.mid i.input = some r ∧ Sending [i] (i.mid.message c) r a' c := by
  have hreply : i.input.syscall ≠ some .reply := by
    rw [call]
    decide
  cases hh.mail with
  | quiet acc del _ rings stays =>
    left
    have hno : ∀ {r}, m.getTaskByTid (toInt32 ((m.task c).x 0)) = some r →
        ¬ (a'.task c).state.inTransit := by
      intro r hl hst
      have hsome := accepted_eq_some call hh.current_mid (r := r) (hh.next.state_eq c ▸ hst)
        (by rw [hh.mid.target_eq, ← hh.x]; exact hl)
      rw [acc] at hsome
      cases hsome
    have hdeed := hh.effect.deed hh.orderly hh.current hh.running
    rw [call] at hdeed
    cases hdeed with
    | noTask lookup =>
      refine ⟨-1, Or.inl rfl, Or.inr ?_, ?_⟩
      · rw [assign_state]
        exact hh.running
      · rw [passing_assign, if_pos rfl]
    | full lookup =>
      refine ⟨-2, Or.inr rfl, Or.inr ?_, ?_⟩
      · rw [assign_state]
        exact hh.running
      · rw [passing_assign, if_pos rfl]
    | direct lookup =>
      refine (hno lookup (Or.inr ?_)).elim
      rw [setState_state, if_pos rfl]
    | queued lookup =>
      refine (hno lookup (Or.inl ?_)).elim
      rw [setState_state, if_pos rfl]
  | @direct r acc del live jobq ring rings wait ready sender handed =>
    obtain ⟨hkx, hkt⟩ := hh.kept hh.live (jobq ▸ hh.live)
    refine Or.inr ⟨r, (target_of_accepted acc).2.2, .received sender ?_ ?_⟩
    · exact (message_congr hkx hkt).trans (hh.message c).symm
    · rw [List.filterMap_cons, stageOf_delivery hreply del, if_pos rfl]
      rfl
  | @queued r acc del live jobq ring rings sender =>
    obtain ⟨hkx, hkt⟩ := hh.kept hh.live (jobq ▸ hh.live)
    refine Or.inr ⟨r, (target_of_accepted acc).2.2, .queued sender ?_ (fun t ht hin => ?_) ?_⟩
    · exact (message_congr hkx hkt).trans (hh.message c).symm
    · by_contra htr
      rw [rings t htr, hkt] at hin
      -- the running task is in no ring
      obtain ⟨u, hu, htid, hst⟩ := hh.orderly.sender t _ hin
      obtain rfl := hh.orderly.ofInt_tid_inj hh.live hu htid
      exact hh.ne_of_state hst (by decide) rfl
    · rw [List.filterMap_cons, stageOf_none hreply del]
      rfl
  | taken hcall =>
    rw [call] at hcall
    cases hcall
  | replied hcall =>
    rw [call] at hcall
    cases hcall

/-! ### Where a message goes -/

/-- What a delivery leaves in the memory. -/
theorem Handled.handed (hh : Handled img i m c a') {d : Handover} (hd : handoverTo r i = some d) :
    i.next.mem = memcpy (storeInt i.mid.mem d.buffer.tid d.message.sender) d.buffer.msg
      d.message.args.msg (toUsize d.len) ∧
    0 ≤ d.message.sender ∧ d.message.sender < maxTaskNum := by
  obtain ⟨msg, hmsg, rfl⟩ := Option.map_eq_some_iff.mp hd
  have hfrom : ∀ {s t}, delivery i = some (s, t) → s ∈ m.jobq → m.Handed s t a' →
      i.next.mem = memcpy (storeInt i.mid.mem (getReceiveArgs (i.mid.task r)).tid msg.sender)
        (getReceiveArgs (i.mid.task r)).msg msg.args.msg
        (toUsize (Handover.len ⟨msg, getReceiveArgs (i.mid.task r)⟩)) ∧
      0 ≤ msg.sender ∧ msg.sender < maxTaskNum := by
    intro s t hst hs hhanded
    rw [deliveredTo_of_some hst] at hmsg
    split at hmsg
    · rename_i htr
      subst htr
      obtain rfl := Option.some.inj hmsg
      have htid := hh.orderly.toWellFormed.tid_lt hs
      refine ⟨?_, ?_⟩
      · rw [← hh.next.mem_eq, hhanded.mem, hh.message]
        unfold delivered copied Handover.len Core.message getSendArgs getReceiveArgs
        rw [← hh.mid.mem_eq, ← hh.mid.x_eq, actualLen_eq_min]
      · rw [hh.message]
        exact htid
    · cases hmsg
  cases hh.mail with
  | quiet acc del =>
    rw [deliveredTo_of_none del] at hmsg
    cases hmsg
  | direct acc del live jobq ring rings wait ready sender handed => exact hfrom del hh.live handed
  | queued acc del =>
    rw [deliveredTo_of_none del] at hmsg
    cases hmsg
  | taken call acc del live jobq ring rings wait now running handed => exact hfrom del live.1 handed
  | replied call acc del =>
    rw [deliveredTo_of_none del] at hmsg
    cases hmsg

/-- The tasks that wait for a message have room for it. -/
def RoomOk (a : AbsKernel) : Prop :=
  ∀ t ∈ a.jobq, (a.task t).state = .waitreceive → 0 ≤ toInt32 ((a.task t).x 2)

theorem RoomOk.enters (hr : a.RoomOk) (ho : a.Orderly) (he : Enters a trap c m) : m.RoomOk := by
  intro t ht hst
  obtain ⟨hjobq, -, -, -⟩ := he.traffic
  obtain ⟨-, -, hbefore, hstate⟩ := he.keeps ho t
  rw [hst] at hbefore
  have hsame := hstate hbefore.symm
  obtain ⟨-, -, hx⟩ := he.blocked ho hbefore.symm
  rw [hx]
  exact hr t (hjobq ▸ ht) (hsame ▸ hst)

/-- Only a Receive leaves its task waiting for a message. -/
theorem Traffic.call_of_waits (ht : Traffic m c trap a') (hrun : (m.task c).state = .running)
    (hst : (a'.task c).state = .waitreceive) : trap.syscall = some .receive := by
  cases ht with
  | quiet still => exact still.receive.mpr hst
  | exited call live jobq ring rings dead =>
    rw [dead] at hst
    cases hst
  | direct call lookup wait jobq rings sender =>
    rw [sender] at hst
    cases hst
  | queued call lookup jobq ring rings sender =>
    rw [sender] at hst
    cases hst
  | vanished call => exact call
  | received call => exact call
  | @replied s call lookup jobq rings ready state =>
    by_cases hcs : c = s
    · rw [hcs, ready] at hst
      cases hst
    · rw [state c hcs, hrun] at hst
      cases hst

theorem RoomOk.step (hr : m.RoomOk) (hh : Handled img i m c a') (hok : m.ReplyOk i.input)
    (hlen : i.input.LengthsOk) : a'.RoomOk := by
  intro t ht hst
  have htraffic := hh.effect.traffic hh.orderly.toWellFormed hh.current hh.running
  have ht₀ : t ∈ m.jobq := by
    cases htraffic with
    | quiet still =>
      rcases still.new t ht with htm | ⟨-, -, hready⟩
      · exact htm
      · rw [hready] at hst
        cases hst
    | exited call live jobq => exact List.mem_of_mem_erase (jobq ▸ ht)
    | direct call lookup wait jobq => exact jobq ▸ ht
    | queued call lookup jobq => exact jobq ▸ ht
    | vanished call jobq => exact jobq ▸ ht
    | received call jobq => exact jobq ▸ ht
    | replied call lookup jobq => exact jobq ▸ ht
  rw [(hh.kept ht₀ ht).1]
  by_cases htc : t = c
  · subst htc
    rw [hh.x]
    exact hlen.receive (htraffic.call_of_waits hh.running hst)
  · have hsame : (a'.task t).state = (m.task t).state := by
      cases hh.effect.fate hh.orderly hh.current hh.x hok ht₀ htc with
      | stays state => exact state
      | woken cause was ready =>
        rw [ready] at hst
        cases hst
      | handed call lookup was ready =>
        rw [ready] at hst
        cases hst
      | picked call ring was now =>
        rw [now] at hst
        cases hst
      | answered call lookup was ready =>
        rw [ready] at hst
        cases hst
    exact hr t ht₀ (hsame ▸ hst)

/-- A buffer that a message goes to has a length that is not negative. -/
theorem Handled.buffer_ok (hh : Handled img i m c a') (hr : m.RoomOk) (hlen : i.input.LengthsOk)
    {d : Handover} (hd : handoverTo r i = some d) : 0 ≤ toInt32 d.buffer.msgLen := by
  obtain ⟨msg, hmsg, rfl⟩ := Option.map_eq_some_iff.mp hd
  show 0 ≤ toInt32 ((i.mid.task r).x 2)
  rw [← hh.mid.x_eq]
  have hto : ∀ {s t}, delivery i = some (s, t) → t = r := by
    intro s t hst
    rw [deliveredTo_of_some hst] at hmsg
    split at hmsg
    · assumption
    · cases hmsg
  cases hh.mail with
  | quiet acc del =>
    rw [deliveredTo_of_none del] at hmsg
    cases hmsg
  | direct acc del live jobq ring rings wait =>
    obtain rfl := hto del
    exact hr _ live wait
  | queued acc del =>
    rw [deliveredTo_of_none del] at hmsg
    cases hmsg
  | taken call acc del =>
    obtain rfl := hto del
    rw [hh.x]
    exact hlen.receive call
  | replied call acc del =>
    rw [deliveredTo_of_none del] at hmsg
    cases hmsg

/-- A task that is resumed with a result finds it in `x0`. -/
theorem Returning.resumed {a₁ a₂ : AbsKernel} {v : U64} (hr : a.Returning t v)
    (hs : a.schedule = .ok (some t, a₁)) (ha : a₁.activate t = .ok a₂) : (a₂.task t).x 0 = v := by
  have hpassed := hr.passed
  unfold passing at hpassed
  split at hpassed
  · rename_i hflag
    rw [activate_x hs ha, if_pos hflag, Function.update_self]
    exact Option.some.inj hpassed
  · cases hpassed

/-- A task that is scheduled is not blocked. -/
theorem Orderly.scheduled {a₁ : AbsKernel} (ho : a.Orderly) (hs : a.schedule = .ok (some t, a₁)) :
    (a.task t).state.beforeReady = false := by
  obtain ⟨a', hr, ⟨hn, -, -⟩ | ⟨c, rq, hc, hpop, rfl⟩⟩ := schedule_eq_ok.mp hs
  · cases hn
  · obtain rfl := Option.some.inj hc
    obtain ⟨⟨p, hp⟩, -⟩ := mem_of_popHighest hpop
    have hready := (ho.requeue hr).toConsistent.mem_ready hp
    cases hr with
    | @running c' current hrun =>
      rw [makeReady_task, setState_state] at hready
      by_cases htc : t = c'
      · rw [htc, hrun]
        rfl
      · rw [if_neg htc] at hready
        rw [hready]
        rfl
    | blocked =>
      rw [hready]
      rfl
    | gone =>
      rw [hready]
      rfl

end AbsKernel

end RealtimeKernel
