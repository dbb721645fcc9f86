import RealtimeKernel.TaskFates

/-!
# Messages arrive in the order of their Sends

`acceptedFor r` reads off an iteration the message of a Send to `r` that the kernel accepts,
`deliveredTo r` the message that it delivers to `r`.  Over a run the delivered messages of `r` and
those that wait in its ring are together the accepted ones, in their order, whichever of the two
ways a message takes.
-/

namespace RealtimeKernel

open Lib

/-- A message as the kernel finds it: the tid of the sender and the arguments of its Send. -/
structure Message where
  sender : ℤ
  args : SendArgs

/-- The message that the registers of `s` describe. -/
def Core.message (k : Core) (s : TaskPtr) : Message := ⟨(k.task s).tid, getSendArgs (k.task s)⟩

/-- The sender and the receiver of the Send that an iteration accepts: the sender is blocked,
whether its message is handed over at once or waits in the ring. -/
def accepted (i : Iter Kernel Trap) : Option (TaskPtr × TaskPtr) :=
  if i.input.syscall = some .send then
    match i.mid.currentTask with
    | some s =>
      if (i.next.task s).state = .watisend ∨ (i.next.task s).state = .watireply then
        (target i.mid i.input).map fun r => (s, r)
      else none
    | none => none
  else none

/-- The message of the Send to `r` that an iteration accepts. -/
def acceptedFor (r : TaskPtr) (i : Iter Kernel Trap) : Option Message :=
  (accepted i).bind fun p => if p.2 = r then some (i.mid.message p.1) else none

/-- The message that an iteration delivers to `r`. -/
def deliveredTo (r : TaskPtr) (i : Iter Kernel Trap) : Option Message :=
  (delivery i).bind fun p => if p.2 = r then some (i.mid.message p.1) else none

section Iterations

variable {i : Iter Kernel Trap} {c s r t : TaskPtr}

theorem accepted_of_ne (h : i.input.syscall ≠ some .send) : accepted i = none := if_neg h

theorem accepted_eq_none (hc : i.mid.currentTask = some c)
    (h : ¬ (i.next.task c).state.inTransit) : accepted i = none := by
  unfold accepted
  split
  · rw [hc]
    exact if_neg h
  · rfl

theorem accepted_eq_some (call : i.input.syscall = some .send) (hc : i.mid.currentTask = some c)
    (h : (i.next.task c).state.inTransit) (hr : target i.mid i.input = some r) :
    accepted i = some (c, r) := by
  unfold accepted
  rw [if_pos call, hc, hr]
  exact if_pos h

theorem acceptedFor_of_none (h : accepted i = none) : acceptedFor r i = none := by
  unfold acceptedFor
  rw [h]
  rfl

theorem acceptedFor_of_some (h : accepted i = some (s, t)) :
    acceptedFor r i = if t = r then some (i.mid.message s) else none := by
  unfold acceptedFor
  rw [h]
  rfl

theorem deliveredTo_of_none (h : delivery i = none) : deliveredTo r i = none := by
  unfold deliveredTo
  rw [h]
  rfl

theorem deliveredTo_of_some (h : delivery i = some (s, t)) :
    deliveredTo r i = if t = r then some (i.mid.message s) else none := by
  unfold deliveredTo
  rw [h]
  rfl

end Iterations

namespace AbsKernel

variable {h : List (Iter Kernel Trap)} {i : Iter Kernel Trap} {a a' b m : AbsKernel} {img : Image}
  {c r s : TaskPtr} {trap : Trap} {w : List TaskPtr}

/-! ### What an iteration means for the rings -/

/-- A live task other than `c` and `o` that awaits no event stays as it is. -/
def Stays (m : AbsKernel) (c : TaskPtr) (a' : AbsKernel) (o : Option TaskPtr) : Prop :=
  ∀ t ∈ m.jobq, t ≠ c → o ≠ some t → (m.task t).state ≠ .awatievent →
    t ∈ a'.jobq ∧ (a'.task t).state = (m.task t).state ∧ a'.passing t = m.passing t

/-- The message of `s` is where `r` asked for it, and `r` is given its length. -/
structure Handed (m : AbsKernel) (s r : TaskPtr) (a' : AbsKernel) : Prop where
  mem : a'.mem = m.delivered s r
  passed : a'.passing r = some (ofInt (m.deliveredLen s r))

/-- What the handler of an iteration, run for `c`, means for the messages. -/
inductive Mail (i : Iter Kernel Trap) (m : AbsKernel) (c : TaskPtr) (a' : AbsKernel) : Prop
  | quiet (accepted : accepted i = none) (delivery : delivery i = none)
      (call : i.input.syscall ≠ some .reply ∨
        ∀ s, m.getTaskByTid (toInt32 ((m.task c).x 0)) = some s → s = c)
      (rings : ∀ r ∈ a'.jobq, r ∈ m.jobq ∧ a'.rings r = m.rings r ∨ r ∈ m.free ∧ a'.rings r = [])
      (stays : m.Stays c a' none)
  /-- The message of `c` is handed over at once. -/
  | direct {r : TaskPtr} (accepted : accepted i = some (c, r)) (delivery : delivery i = some (c, r))
      (live : r ∈ m.jobq) (jobq : a'.jobq = m.jobq) (ring : m.rings r = [])
      (rings : a'.rings = m.rings) (wait : (m.task r).state = .waitreceive)
      (ready : (a'.task r).state = .ready) (sender : (a'.task c).state = .watireply)
      (handed : m.Handed c r a') (stays : m.Stays c a' (some r))
  /-- The message of `c` waits in the ring of `r`. -/
  | queued {r : TaskPtr} (accepted : accepted i = some (c, r)) (delivery : delivery i = none)
      (live : c ∈ m.jobq ∧ r ∈ m.jobq) (jobq : a'.jobq = m.jobq)
      (ring : a'.rings r = m.rings r ++ [ofInt (m.task c).tid])
      (rings : ∀ t ≠ r, a'.rings t = m.rings t) (sender : (a'.task c).state = .watisend)
      (stays : m.Stays c a' none)
  /-- `c` takes the first message of its ring. -/
  | taken {s : TaskPtr} (call : i.input.syscall = some .receive) (accepted : accepted i = none)
      (delivery : delivery i = some (s, c)) (live : s ∈ m.jobq ∧ c ∈ m.jobq)
      (jobq : a'.jobq = m.jobq) (ring : m.rings c = ofInt (m.task s).tid :: a'.rings c)
      (rings : ∀ t ≠ c, a'.rings t = m.rings t) (wait : (m.task s).state = .watisend)
      (now : (a'.task s).state = .watireply) (running : (a'.task c).state = .running)
      (handed : m.Handed s c a') (passing : a'.passing s = m.passing s)
      (stays : m.Stays c a' (some s))
  /-- `c` replies to `s`. -/
  | replied {s : TaskPtr} (call : i.input.syscall = some .reply) (accepted : accepted i = none)
      (delivery : delivery i = none) (lookup : m.getTaskByTid (toInt32 ((m.task c).x 0)) = some s)
      (jobq : a'.jobq = m.jobq) (rings : a'.rings = m.rings) (wait : (m.task s).state = .watireply)
      (ready : (a'.task s).state = .ready) (passed : a'.passing s = some (ofInt (m.repliedLen c s)))
      (stays : m.Stays c a' (some s))

/-- **Every outcome of a handler** means one of these five things for the messages. -/
theorem Effect.mail (he : Effect img m c i.input a') (ho : m.Orderly)
    (hc : m.currentTask = some c) (hrun : (m.task c).state = .running)
    (hx : (m.task c).x = i.input.x) (hok : m.ReplyOk i.input) (hm : Rep i.mid m)
    (hn : Rep i.next a') : Mail i m c a' := by
  have hlive : c ∈ m.jobq := ho.live_of_state (by rw [hrun]; decide)
  have hcur : i.mid.currentTask = some c := by rw [← hm.currentTask_eq, hc]
  have hother : ∀ {p : Syscall}, i.input.syscall = some p → p ≠ .send → accepted i = none :=
    fun hp hne => accepted_of_ne fun hs => hne (Option.some.inj (hp.symm.trans hs))
  cases he.traffic ho.toWellFormed hc hrun with
  | quiet still =>
    have hown : ¬ (i.next.task c).state.inTransit := by
      rw [← hn.state_eq]
      intro ht
      exact (still.state ht).1 rfl
    refine .quiet (accepted_eq_none hcur hown)
      (hm.delivery_none hn fun t ht => (still.state (Or.inr ht)).2 ▸ ht) ?_ (fun r hr => ?_)
      fun t ht htc _ hw => ?_
    · by_cases hreply : i.input.syscall = some .reply
      · exact Or.inr (still.reply hreply)
      · exact Or.inl hreply
    · rcases still.new r hr with hrm | ⟨hrf, hring, -⟩
      · exact Or.inl ⟨hrm, still.rings r fun hf => absurd hrm (ho.free_jobq r hf)⟩
      · exact Or.inr ⟨hrf, hring⟩
    · have htf : t ∉ m.free := ho.not_free ht
      refine ⟨still.live t ht, ?_, still.passing t htc htf⟩
      exact (still.other t htc).resolve_right fun hr => hr.2.elim htf hw
  | exited call live jobq ring rings dead state passing =>
    refine .quiet (hother call (by decide)) (hm.delivery_none hn fun t ht => ?_)
      (Or.inl (by rw [call]; decide)) (fun r hr => ?_) fun t ht htc _ _ => ?_
    · by_cases htc : t = c
      · rw [htc, dead] at ht
        cases ht
      · rwa [← state t htc]
    · rw [jobq] at hr
      obtain ⟨hrc, hrm⟩ := ho.jobq_nodup.mem_erase_iff.mp hr
      exact Or.inl ⟨hrm, rings r hrc⟩
    · rw [jobq]
      exact ⟨ho.jobq_nodup.mem_erase_iff.mpr ⟨htc, ht⟩, state t htc, passing t htc⟩
  | @direct r call lookup wait jobq rings sender receiver state mem passed passing =>
    have htarget : target i.mid i.input = some r := by
      rw [hm.target_eq, ← hx]
      exact lookup
    have hstate : ∀ t ≠ c, (a'.task t).state = .watireply → (m.task t).state = .watireply := by
      intro t htc ht
      by_cases htr : t = r
      · rw [htr, receiver] at ht
        cases ht
      · rwa [← state t htc htr]
    refine .direct (accepted_eq_some call hcur (Or.inr ?_) htarget)
      (hm.delivery_some hn (by rw [hrun]; decide) sender hstate ?_)
      (WellFormed.mem_of_lookup lookup) jobq (ho.waiting r wait) rings wait receiver sender
      ⟨mem, passed⟩ fun t ht htc htr _ => ?_
    · rw [← hn.state_eq]
      exact sender
    · rw [if_pos call, ← hx]
      exact lookup
    · have htr : t ≠ r := fun he => htr (congrArg some he.symm)
      exact ⟨jobq ▸ ht, state t htc htr, passing t htr⟩
  | @queued r call lookup jobq ring rings sender state passing =>
    have htarget : target i.mid i.input = some r := by
      rw [hm.target_eq, ← hx]
      exact lookup
    refine .queued (accepted_eq_some call hcur (Or.inl ?_) htarget)
      (hm.delivery_none hn fun t ht => ?_) ⟨hlive, WellFormed.mem_of_lookup lookup⟩ jobq ring rings
      sender fun t ht htc _ _ => ⟨jobq ▸ ht, state t htc, passing t⟩
    · rw [← hn.state_eq]
      exact sender
    · by_cases htc : t = c
      · rw [htc, sender] at ht
        cases ht
      · rwa [← state t htc]
  | @vanished e call jobq ring gone =>
    -- the ring holds tids of live tasks only
    obtain ⟨s, hs, rfl, -⟩ := ho.sender c e (by rw [ring]; exact List.mem_cons_self)
    rw [ho.lookup_ofInt hs] at gone
    cases gone
  | @received s e call jobq ring lookup rings before sender state mem passed passing =>
    obtain ⟨s', hs', rfl, hwait⟩ := ho.sender c e (by rw [ring]; exact List.mem_cons_self)
    obtain rfl : s' = s := Option.some.inj ((ho.lookup_ofInt hs').symm.trans lookup)
    have hsc : s' ≠ c := by
      rintro rfl
      rw [hrun] at hwait
      cases hwait
    refine .taken call (hother call (by decide))
      (hm.delivery_some hn before sender (fun t hts ht => by rwa [← state t hts]) ?_)
      ⟨hs', hlive⟩ jobq ring rings hwait sender ((state c hsc.symm).trans hrun) ⟨mem, passed⟩
      (passing s' hsc) fun t ht htc hts _ => ?_
    · rw [if_neg (by rw [call]; decide)]
      exact hc
    · exact ⟨jobq ▸ ht, state t fun he => hts (congrArg some he.symm), passing t htc⟩
  | @replied s call lookup jobq rings ready state passed passing =>
    have hreply : (m.task s).state = .watireply := hok call s (hx ▸ lookup)
    have hsc : s ≠ c := by
      rintro rfl
      rw [hrun] at hreply
      cases hreply
    refine .replied call (hother call (by decide)) (hm.delivery_none hn fun t ht => ?_) lookup jobq
      rings hreply ready (passed hsc) fun t ht htc hts _ => ?_
    · by_cases hts : t = s
      · rw [hts]
        exact hreply
      · rwa [← state t hts]
    · have hts : t ≠ s := fun he => hts (congrArg some he.symm)
      exact ⟨jobq ▸ ht, state t hts, passing t hts htc⟩

/-- An iteration that the task `c` made the trap of, without pointers. -/
structure Handled (img : Image) (i : Iter Kernel Trap) (m : AbsKernel) (c : TaskPtr)
    (a' : AbsKernel) : Prop where
  mid : Rep i.mid m
  next : Rep i.next a'
  orderly : m.Orderly
  after : a'.Orderly
  current : m.currentTask = some c
  running : (m.task c).state = .running
  x : (m.task c).x = i.input.x
  effect : Effect img m c i.input a'
  mail : Mail i m c a'

namespace Handled

variable (hh : Handled img i m c a')

include hh

theorem live : c ∈ m.jobq := hh.orderly.live_of_state (by rw [hh.running]; decide)

theorem kept (hs : s ∈ m.jobq) (hs' : s ∈ a'.jobq) :
    (a'.task s).x = (m.task s).x ∧ (a'.task s).tid = (m.task s).tid :=
  hh.effect.kept hh.orderly.toWellFormed hs hs'

theorem message (s : TaskPtr) : i.mid.message s = m.message s := by
  unfold Core.message getSendArgs
  rw [hh.mid.tid_eq, hh.mid.x_eq]

theorem current_mid : i.mid.currentTask = some c := by rw [← hh.mid.currentTask_eq, hh.current]

theorem ne_of_state {u : TaskState} (hs : (m.task s).state = u) (hu : u ≠ .running) : s ≠ c := by
  rintro rfl
  exact hu (hs.symm.trans hh.running)

end Handled

/-! ### The rings hold what is accepted and not yet delivered -/

/-- The senders `w` wait in the ring of `r`, and theirs are the accepted messages that are not yet
delivered. -/
structure Backlog (h : List (Iter Kernel Trap)) (a : AbsKernel) (r : TaskPtr) (w : List TaskPtr) :
    Prop where
  ring : a.rings r = w.map fun s => ofInt (a.task s).tid
  waits : ∀ s ∈ w, s ∈ a.jobq ∧ (a.task s).state = .watisend
  order : h.filterMap (acceptedFor r) = h.filterMap (deliveredTo r) ++ w.map a.message

/-- What the rings say about the history.  The ring of a task that exits is forgotten, and a
descriptor that was never handed out was never sent to. -/
structure Accounted (h : List (Iter Kernel Trap)) (a : AbsKernel) : Prop where
  live : ∀ r ∈ a.jobq, ∃ w, Backlog h a r w
  gone : ∀ r ∉ a.jobq, h.filterMap (deliveredTo r) <+: h.filterMap (acceptedFor r)
  unused : ∀ r ∈ a.free, h.filterMap (acceptedFor r) = h.filterMap (deliveredTo r)

theorem Accounted.isPrefix (hi : Accounted h a) (r : TaskPtr) :
    h.filterMap (deliveredTo r) <+: h.filterMap (acceptedFor r) := by
  by_cases hr : r ∈ a.jobq
  · obtain ⟨w, hw⟩ := hi.live r hr
    exact ⟨w.map a.message, hw.order.symm⟩
  · exact hi.gone r hr

/-- Senders that keep their registers and tids keep their messages. -/
theorem map_message_of_kept (hkept : ∀ s ∈ w, (b.task s).x = (a.task s).x ∧
    (b.task s).tid = (a.task s).tid) : w.map b.message = w.map a.message ∧
      (w.map fun s => ofInt (b.task s).tid) = w.map fun s => ofInt (a.task s).tid := by
  constructor
  · apply List.map_congr_left
    intro s hs
    obtain ⟨hx, htid⟩ := hkept s hs
    simp only [Core.message, getSendArgs, hx, htid]
  · apply List.map_congr_left
    intro s hs
    rw [(hkept s hs).2]

/-- The backlog stays while its senders stay as they are. -/
theorem Backlog.keep (hb : Backlog h a r w) (hring : b.rings r = a.rings r)
    (hwaits : ∀ s ∈ w, s ∈ b.jobq ∧ (b.task s).state = .watisend)
    (hkept : ∀ s ∈ w, (b.task s).x = (a.task s).x ∧ (b.task s).tid = (a.task s).tid) :
    Backlog h b r w where
  ring := by rw [hring, hb.ring, (map_message_of_kept hkept).2]
  waits := hwaits
  order := by rw [hb.order, (map_message_of_kept hkept).1]

/-- An iteration without a message for `r`. -/
theorem Backlog.skip (hb : Backlog h a r w) (hacc : acceptedFor r i = none)
    (hdel : deliveredTo r i = none) : Backlog (h ++ [i]) a r w where
  ring := hb.ring
  waits := hb.waits
  order := by
    rw [filterMap_snoc, filterMap_snoc, hacc, hdel]
    simpa using hb.order

theorem Accounted.enters (hi : Accounted h a) (ho : a.Orderly) (he : Enters a trap c m) :
    Accounted h m := by
  obtain ⟨hjobq, hrings, htid, -⟩ := he.traffic
  obtain ⟨hfree, -⟩ := he.task_free ho.toWellFormed
  refine ⟨fun r hr => ?_, fun r hr => hi.gone r (hjobq ▸ hr), fun r hr => hi.unused r (hfree ▸ hr)⟩
  obtain ⟨w, hw⟩ := hi.live r (hjobq ▸ hr)
  have hblocked : ∀ s ∈ w, s ∈ a.jobq ∧ (m.task s).state = .watisend ∧
      (m.task s).x = (a.task s).x := by
    intro s hs
    obtain ⟨hsj, hst⟩ := hw.waits s hs
    obtain ⟨-, hstate, hx⟩ := he.blocked ho (t := s) (by rw [hst]; rfl)
    exact ⟨hsj, hstate.trans hst, hx⟩
  exact ⟨w, hw.keep (by rw [hrings]) (fun s hs => ⟨hjobq ▸ (hblocked s hs).1, (hblocked s hs).2.1⟩)
    fun s hs => ⟨(hblocked s hs).2.2, htid s⟩⟩

/-- A backlog that an iteration does not touch. -/
theorem Backlog.still (hb : Backlog h m r w) (hh : Handled img i m c a')
    (hacc : acceptedFor r i = none) (hdel : deliveredTo r i = none)
    (hring : a'.rings r = m.rings r) {o : Option TaskPtr} (hstays : m.Stays c a' o)
    (hw : ∀ s ∈ w, o ≠ some s) : Backlog (h ++ [i]) a' r w := by
  have hwaits : ∀ s ∈ w, s ∈ a'.jobq ∧ (a'.task s).state = .watisend := by
    intro s hs
    obtain ⟨hsj, hst⟩ := hb.waits s hs
    obtain ⟨hsj', hst', -⟩ := hstays s hsj (hh.ne_of_state hst (by decide)) (hw s hs)
      (by rw [hst]; decide)
    exact ⟨hsj', hst'.trans hst⟩
  exact (hb.skip hacc hdel).keep hring hwaits
    fun s hs => hh.kept (hb.waits s hs).1 (hwaits s hs).1

/-- Nothing is sent to a task that is not live, and nothing is delivered to it. -/
theorem Mail.untouched (hmail : Mail i m c a') (hr : r ∉ m.jobq ∨ r ∉ a'.jobq) :
    acceptedFor r i = none ∧ deliveredTo r i = none := by
  have hlive : ∀ {t}, t ∈ m.jobq → a'.jobq = m.jobq → t ≠ r := by
    rintro t ht hj rfl
    rcases hr with hr | hr
    · exact hr ht
    · exact hr (hj ▸ ht)
  cases hmail with
  | quiet acc del => exact ⟨acceptedFor_of_none acc, deliveredTo_of_none del⟩
  | direct acc del live jobq =>
    rw [acceptedFor_of_some acc, deliveredTo_of_some del, if_neg (hlive live jobq)]
    exact ⟨rfl, rfl⟩
  | queued acc del live jobq =>
    rw [acceptedFor_of_some acc, deliveredTo_of_none del, if_neg (hlive live.2 jobq)]
    exact ⟨rfl, rfl⟩
  | taken call acc del live jobq =>
    rw [acceptedFor_of_none acc, deliveredTo_of_some del, if_neg (hlive live.2 jobq)]
    exact ⟨rfl, rfl⟩
  | replied call acc del => exact ⟨acceptedFor_of_none acc, deliveredTo_of_none del⟩

/-- A live task goes on to have a backlog. -/
theorem Accounted.backlog (hi : Accounted h m) (hh : Handled img i m c a') (hr : r ∈ a'.jobq) :
    ∃ w, Backlog (h ++ [i]) a' r w := by
  have hqueued : ∀ {s : TaskPtr} {o}, (m.task s).state = .watisend → m.Stays c a' o → s ∈ m.jobq →
      o ≠ some s → s ∈ m.jobq ∧ (a'.task s).state = .watisend := by
    intro s o hst hstays hsj hne
    have hsc := hh.ne_of_state hst (by decide)
    exact ⟨hsj, (hstays s hsj hsc hne (by rw [hst]; decide)).2.1.trans hst⟩
  cases hh.mail with
  | quiet acc del call rings stays =>
    have hacc : acceptedFor r i = none := acceptedFor_of_none acc
    have hdel : deliveredTo r i = none := deliveredTo_of_none del
    rcases rings r hr with ⟨hrm, hring⟩ | ⟨hrf, hring⟩
    · obtain ⟨w, hw⟩ := hi.live r hrm
      exact ⟨w, hw.still hh hacc hdel hring stays fun s _ => by simp⟩
    · refine ⟨[], hring, by simp, ?_⟩
      rw [filterMap_snoc, filterMap_snoc, hacc, hdel, hi.unused r hrf]
      simp
  | @direct t acc del live jobq ring rings wait ready sender handed stays =>
    obtain ⟨w, hw⟩ := hi.live r (jobq ▸ hr)
    have hacc := acceptedFor_of_some (r := r) acc
    have hdel := deliveredTo_of_some (r := r) del
    by_cases htr : t = r
    · subst htr
      have hnil : w = [] := List.map_eq_nil_iff.mp (hw.ring.symm.trans ring)
      subst hnil
      refine ⟨[], by rw [rings]; exact ring, by simp, ?_⟩
      rw [filterMap_snoc, filterMap_snoc, hacc, hdel, hw.order]
      simp
    · rw [if_neg htr] at hacc hdel
      refine ⟨w, hw.still hh hacc hdel (by rw [rings]) stays fun s hs heq => ?_⟩
      obtain rfl := Option.some.inj heq
      obtain ⟨-, hst⟩ := hw.waits t hs
      rw [wait] at hst
      cases hst
  | @queued t acc del live jobq ring rings sender stays =>
    obtain ⟨w, hw⟩ := hi.live r (jobq ▸ hr)
    have hacc := acceptedFor_of_some (r := r) acc
    have hdel : deliveredTo r i = none := deliveredTo_of_none del
    by_cases htr : t = r
    · subst htr
      rw [if_pos rfl, hh.message] at hacc
      have hwaits : ∀ s ∈ w ++ [c], s ∈ m.jobq ∧ (a'.task s).state = .watisend := by
        intro s hs
        rcases List.mem_append.mp hs with hs | hs
        · obtain ⟨hsj, hst⟩ := hw.waits s hs
          exact hqueued hst stays hsj (by simp)
        · rw [List.mem_singleton.mp hs]
          exact ⟨live.1, sender⟩
      obtain ⟨hmsgs, htids⟩ := map_message_of_kept (a := m) (b := a') (w := w ++ [c])
        fun s hs => hh.kept (hwaits s hs).1 (jobq ▸ (hwaits s hs).1)
      refine ⟨w ++ [c], ?_, fun s hs => ⟨jobq ▸ (hwaits s hs).1, (hwaits s hs).2⟩, ?_⟩
      · rw [htids, ring, hw.ring, List.map_append, List.map_singleton]
      · rw [filterMap_snoc, filterMap_snoc, hacc, hdel, hw.order, hmsgs]
        simp
    · rw [if_neg htr] at hacc
      exact ⟨w, hw.still hh hacc hdel (rings r fun he => htr he.symm) stays fun s _ => by simp⟩
  | @taken t call acc del live jobq ring rings wait now running handed passing stays =>
    obtain ⟨w, hw⟩ := hi.live r (jobq ▸ hr)
    have hacc : acceptedFor r i = none := acceptedFor_of_none acc
    have hdel := deliveredTo_of_some (r := r) del
    have hin : ofInt (m.task t).tid ∈ m.rings c := by
      rw [ring]
      exact List.mem_cons_self
    by_cases hcr : c = r
    · subst hcr
      rw [if_pos rfl, hh.message] at hdel
      have hnd : (m.rings c).Nodup := List.nodup_iff_count_le_one.mpr fun e =>
        (count_le_occurs m.rings c e).trans (hh.orderly.once e)
      rw [hw.ring] at ring
      obtain ⟨s, w', hsw, hs, hrest⟩ := List.map_eq_cons_iff.mp ring
      subst hsw
      obtain rfl : s = t := hh.orderly.ofInt_tid_inj (hw.waits s (by simp)).1 live.1 hs
      have hnot : s ∉ w' := by
        rw [hw.ring, List.map_cons, List.nodup_cons] at hnd
        intro hsw
        exact hnd.1 (List.mem_map_of_mem hsw)
      have hwaits : ∀ u ∈ w', u ∈ m.jobq ∧ (a'.task u).state = .watisend := by
        intro u hu
        obtain ⟨huj, hst⟩ := hw.waits u (List.mem_cons_of_mem _ hu)
        refine hqueued hst stays huj fun heq => ?_
        obtain rfl := Option.some.inj heq
        exact hnot hu
      obtain ⟨hmsgs, htids⟩ := map_message_of_kept (a := m) (b := a') (w := w')
        fun u hu => hh.kept (hwaits u hu).1 (jobq ▸ (hwaits u hu).1)
      refine ⟨w', by rw [htids, ← hrest],
        fun u hu => ⟨jobq ▸ (hwaits u hu).1, (hwaits u hu).2⟩, ?_⟩
      rw [filterMap_snoc, filterMap_snoc, hacc, hdel, hw.order, hmsgs]
      simp
    · rw [if_neg hcr] at hdel
      refine ⟨w, hw.still hh hacc hdel (rings r fun he => hcr he.symm) stays fun s hs heq => ?_⟩
      -- the message that is taken is in the ring of `c` only
      obtain rfl := Option.some.inj heq
      have hin' : ofInt (m.task t).tid ∈ m.rings r := by
        rw [hw.ring]
        exact List.mem_map_of_mem hs
      exact hcr (eq_of_occurs_le_one (hh.orderly.once _) hin hin')
  | @replied t call acc del lookup jobq rings wait ready passed stays =>
    obtain ⟨w, hw⟩ := hi.live r (jobq ▸ hr)
    refine ⟨w, hw.still hh (acceptedFor_of_none acc) (deliveredTo_of_none del) (by rw [rings]) stays
      fun s hs heq => ?_⟩
    obtain rfl := Option.some.inj heq
    obtain ⟨-, hst⟩ := hw.waits t hs
    rw [wait] at hst
    cases hst

/-- What the rings say about the history goes on to hold. -/
theorem Accounted.step (hi : Accounted h m) (hh : Handled img i m c a') :
    Accounted (h ++ [i]) a' := by
  have hfree : ∀ r ∈ a'.free, r ∈ m.free := fun r hr =>
    (hh.effect.task_free hh.orderly.toWellFormed hh.current r hr).1
  refine ⟨fun r hr => hi.backlog hh hr, fun r hr => ?_, fun r hr => ?_⟩
  · obtain ⟨hacc, hdel⟩ := hh.mail.untouched (Or.inr hr)
    rw [filterMap_snoc, filterMap_snoc, hacc, hdel]
    simpa using hi.isPrefix r
  · obtain ⟨hacc, hdel⟩ := hh.mail.untouched
      (Or.inl fun hin => hh.orderly.free_jobq r (hfree r hr) hin)
    rw [filterMap_snoc, filterMap_snoc, hacc, hdel, hi.unused r (hfree r hr)]

end AbsKernel

/-- An iteration of the kernel is `Handled` by the task that made the trap. -/
theorem Rep.handled {img : Image} {a : AbsKernel} {i : Iter Kernel Trap} (hr : Rep i.head a)
    (ho : a.Orderly) (hok : i.mid.ReplyOk i.input)
    (hm : RealtimeKernel.enterTrap i.head i.input = .ok i.mid)
    (hn : RealtimeKernel.handleCurrentException img i.mid i.input = .ok i.next) :
    ∃ c m a', AbsKernel.Enters a i.input c m ∧ AbsKernel.Handled img i m c a' := by
  obtain ⟨c, m, a', hrepm, hrep', hst⟩ := hr.iteration img hm hn
  have hok' := hrepm.replyOk hok
  obtain ⟨hom, hoa⟩ := hst.orderly ho hok'
  obtain ⟨hc, hrun, hx, -⟩ := hst.enters.current
  exact ⟨c, m, a', hst.enters, hrepm, hrep', hom, hoa, hc, hrun, hx, hst.effect,
    hst.effect.mail hom hc hrun hx hok' hrepm hrep'⟩

/-- **The rings account for the history** in every run in which Replies name tasks in state
`WATIREPLY`. -/
theorem Boot.Reaches.accounted {b : Boot} {h : List (Iter Kernel Trap)} {k : Kernel}
    (r : b.Reaches h k) (hreply : ∀ i ∈ h, i.mid.ReplyOk i.input) :
    ∃ a, Rep k a ∧ a.Orderly ∧ a.Accounted h := by
  obtain ⟨k₀, hk₀, hrun⟩ := r
  refine hrun.history (I := fun h k => ∃ a, Rep k a ∧ a.Orderly ∧ AbsKernel.Accounted h a)
    (P := fun i => i.mid.ReplyOk i.input) ?_ hreply ?_
  · obtain ⟨a₀, ha₀, ho, hfresh⟩ := AbsKernel.boot_ok b
    obtain ⟨a₁, ha₁, hrep⟩ := Refines.ok_left (y := AbsKernel.boot b) b.kernel_refines hk₀
    obtain rfl : a₀ = a₁ := Except.ok.inj (ha₀.symm.trans ha₁)
    exact ⟨a₀, hrep, ho, fun r _ => ⟨[], hfresh.ring r, by simp, rfl⟩,
      fun r _ => List.nil_prefix, fun r _ => rfl⟩
  · rintro h k trap m k' - - ⟨a, hrep, ho, hacc⟩ hok hm hk'
    obtain ⟨c, m', a', hent, hh⟩ := Rep.handled (i := ⟨k, trap, m, k'⟩) hrep ho hok hm hk'
    exact ⟨a', hh.next, hh.after, (hacc.enters ho hent).step hh⟩

end RealtimeKernel
