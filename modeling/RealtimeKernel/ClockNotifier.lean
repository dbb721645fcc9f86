import RealtimeKernel.ClockSystem

/-!
# The notifier of the clock server

A tick is followed from the interrupt that wakes the notifier, through its Send and the server's
Receive, to the message that the server counts.  At every moment at most one tick is on its way.
-/

namespace RealtimeKernel

open Lib

/-! ### The messages -/

/-- The message in the buffer of the last Send of `t`. -/
def lastSent (h : List (Iter Kernel Trap)) (t : TaskPtr) : Option ClockServerMsg :=
  h.foldl (fun m i => if i.mid.currentTask = some t ∧ i.input.syscall = some .send then
    some (loadMsg i.input.mem (i.input.x 1)) else m) none

theorem lastSent_snoc (h : List (Iter Kernel Trap)) (i : Iter Kernel Trap) (t : TaskPtr) :
    lastSent (h ++ [i]) t = if i.mid.currentTask = some t ∧ i.input.syscall = some .send then
      some (loadMsg i.input.mem (i.input.x 1)) else lastSent h t := by
  simp [lastSent]

/-- What is asked of an iteration after `p`: the message of the notifier arrives as it was sent, and
no other task sends ticks. -/
structure Ticking (f : ServerFrame) (server notifier : TaskPtr) (p : List (Iter Kernel Trap))
    (i : Iter Kernel Trap) : Prop where
  intact : delivery i = some (notifier, server) →
    lastSent (p ++ [i]) notifier = some (loadMsg i.next.mem f.msg)
  others : ∀ t, t ≠ notifier → delivery i = some (t, server) →
    (loadMsg i.next.mem f.msg).kind ≠ some .tick

/-! ### The invariant -/

/-- The last result of the task is not an error. -/
def Passed (a : AbsKernel) (t : TaskPtr) : Prop := ∃ v, a.passing t = some v ∧ 0 ≤ toInt32 v

/-- The descriptor of the notifier agrees with its place. -/
def NotifierAt.Fits (server notifier : TaskPtr) (p : List (Iter Kernel Trap)) (σ : ServerTask)
    (a : AbsKernel) : NotifierAt → Prop
  | .start => (a.task notifier).state.beforeReady = false ∧
      (a.task notifier).parentTid = (a.task server).tid
  | .await tid => (a.task notifier).state.beforeReady = false ∧ tid = (a.task server).tid ∧
      Passed a notifier
  | .awaiting tid => (a.task notifier).state = .awatievent ∧ tid = (a.task server).tid ∧
      Passed a notifier
  | .send tid => (a.task notifier).state.beforeReady = false ∧ tid = (a.task server).tid
  | .sending tid => tid = (a.task server).tid ∧
      toInt32 ((a.task notifier).x 2) = clockServerMsgSize ∧
      toInt32 ((a.task notifier).x 4) = clockServerMsgSize ∧
      (∃ m, lastSent p notifier = some m ∧ m.kind = some .tick) ∧
      ((a.task notifier).state = .watisend ∧
          ofInt (a.task notifier).tid ∈ a.rings server ∨
        (a.task notifier).state = .watireply ∧ (a.task notifier).tid ∈ σ.place.pending)
  | .leaving => False

/-- The notifier is in its loop, and the ticks that the server receives are its own. -/
structure Notifying (server notifier : TaskPtr) (p : List (Iter Kernel Trap)) (σ : ServerTask)
    (ν : NotifierAt) (a : AbsKernel) : Prop where
  live : notifier ∈ a.jobq
  ne : notifier ≠ server
  place : ν.Fits server notifier p σ a
  unasked : (a.task notifier).tid ∉ (asked σ.handled).map Prod.fst
  given : ∀ tid msg, σ.place = .given tid msg →
    (tid = (a.task notifier).tid → msg.kind = some .tick) ∧
      (tid ≠ (a.task notifier).tid → msg.kind ≠ some .tick)

section Handling

variable {f : ServerFrame} {msg₀ : ClockServerMsg} {server notifier c : TaskPtr}
  {p : List (Iter Kernel Trap)} {σ : ServerTask} {ν : NotifierAt} {a m : AbsKernel} {tid : ℤ}
  {msg : ClockServerMsg} {trap : Trap}

/-- What a message does to the requests is about its sender only. -/
theorem mem_asked_snoc {h : List ClockExchange} {e : ClockExchange} {c : ℤ}
    (hc : c ∈ (asked (h ++ [e])).map Prod.fst) :
    c ∈ (asked h).map Prod.fst ∨ c = e.sender ∧ isTick e = false := by
  rw [asked_snoc, ask] at hc
  split at hc
  · left
    exact (List.filter_sublist.map Prod.fst).subset hc
  · rename_i ht
    split at hc
    · split at hc
      · rw [List.map_append, List.mem_append] at hc
        rcases hc with hc | hc
        · exact Or.inl hc
        · exact Or.inr ⟨by simpa using hc, by simpa using ht⟩
      · exact Or.inl hc
    · exact Or.inl hc

/-- The ticks of the notifier that the server has not counted. -/
def onTheWay (σ : ServerTask) (tid : ℤ) : NotifierAt → ℕ
  | .send _ => 1
  | .sending _ =>
    match σ.place with
    | .calling replies => if tid ∈ replies.map Prod.fst then 0 else 1
    | _ => 1
  | _ => 0

/-- The ticks that were counted, and those that still will be. -/
def ticked (σ : ServerTask) (ν : NotifierAt) (tid : ℤ) : ℕ := ticksOf σ.handled + onTheWay σ tid ν

/-- A notifier whose message is on its way is sending. -/
theorem NotifierAt.Fits.sending (hplace : ν.Fits server notifier p σ a)
    (hstate : (a.task notifier).state.inTransit) : ∃ tid, ν = .sending tid := by
  have hawake : (a.task notifier).state.beforeReady = true := by
    rcases hstate with hst | hst
    · rw [hst]
      rfl
    · rw [hst]
      rfl
  have hno : (a.task notifier).state.beforeReady ≠ false := by simp [hawake]
  cases ν with
  | start => exact absurd hplace.1 hno
  | await tid => exact absurd hplace.1 hno
  | awaiting tid => exact absurd hstate (AbsKernel.not_inTransit_of_eq hplace.1 (by decide))
  | send tid => exact absurd hplace.1 hno
  | sending tid => exact ⟨tid, rfl⟩
  | leaving => exact absurd hplace id

/-- Only the pending replies of the server matter to the place of the notifier. -/
theorem NotifierAt.Fits.congr {σ' : ServerTask} (h : ν.Fits server notifier p σ a)
    (hpending : (a.task notifier).state = .watireply →
      (a.task notifier).tid ∈ σ.place.pending → (a.task notifier).tid ∈ σ'.place.pending) :
    ν.Fits server notifier p σ' a := by
  cases ν with
  | sending tid =>
    obtain ⟨htid, hlen, hreply, hsent, hstate⟩ := h
    refine ⟨htid, hlen, hreply, hsent, hstate.imp_right fun hw => ⟨hw.1, hpending hw.1 hw.2⟩⟩
  | _ => exact h

/-- A message that the server handles is counted if it is a tick, and then the notifier is owed its
reply. -/
theorem Notifying.handles_given (hn : Notifying server notifier p σ ν a)
    (hs : Serving f msg₀ server p σ a) (hw : a.WellFormed) (hplace : σ.place = .given tid msg) :
    Notifying server notifier p (serverHandles σ) ν a ∧
      ticked (serverHandles σ) ν (a.task notifier).tid = ticked σ ν (a.task notifier).tid := by
  obtain ⟨htick, hother⟩ := hn.given tid msg hplace
  obtain ⟨vars, replies, heq, -, hans, hfair⟩ := hs.handles_given hw hplace
  rw [heq]
  have hpending : σ.place.pending = [tid] := by rw [hplace, ServerAt.pending]
  by_cases htid : tid = (a.task notifier).tid
  · have ht : isTick ⟨tid, msg, replies⟩ = true := decide_eq_true (htick htid)
    have hin : (a.task notifier).tid ∈ replies.map Prod.fst := by
      rw [show replies = _ from hans.tick ht, ← htid]
      exact List.mem_cons_self
    have hwait : (a.task notifier).state = .watireply := by
      by_contra hstate
      apply hs.not_owed hw hn.live hstate
      rw [ServerTask.owed, hpending]
      simp [htid]
    obtain ⟨tid', rfl⟩ := hn.place.sending (Or.inr hwait)
    refine ⟨⟨hn.live, hn.ne, hn.place.congr fun _ _ => hin, ?_, ?_⟩, ?_⟩
    · intro hc
      rcases mem_asked_snoc hc with hc | ⟨-, hno⟩
      · exact hn.unasked hc
      · rw [ht] at hno
        cases hno
    · intro tid₁ msg₁ h₁
      cases h₁
    · unfold ticked
      rw [ticksOf_snoc, if_pos ht]
      simp only [onTheWay, hplace, if_pos hin]
  · have ht : isTick ⟨tid, msg, replies⟩ = false := decide_eq_false (hother htid)
    have hnot : (a.task notifier).tid ∉ replies.map Prod.fst := by
      intro hc
      rcases hfair.mem _ hc with hc | hc
      · exact htid hc.symm
      · obtain ⟨clock, -, hclock, -⟩ := ClockServer.onSchedule hs.run hs.legal
        rw [hclock.waits, List.mem_toFinset] at hc
        exact hn.unasked hc
    refine ⟨⟨hn.live, hn.ne, hn.place.congr fun _ hc => ?_, ?_, ?_⟩, ?_⟩
    · rw [hpending, List.mem_singleton] at hc
      exact absurd hc.symm htid
    · intro hc
      rcases mem_asked_snoc hc with hc | ⟨hc, -⟩
      · exact hn.unasked hc
      · exact htid hc.symm
    · intro tid₁ msg₁ h₁
      cases h₁
    · unfold ticked
      rw [ticksOf_snoc, ht]
      cases ν with
      | sending tid' => simp [onTheWay, hplace, hnot]
      | _ => rfl

theorem Notifying.enters (hn : Notifying server notifier p σ ν a) (ho : a.Orderly)
    (he : AbsKernel.Enters a trap c m) : Notifying server notifier p σ ν m := by
  obtain ⟨hjobq, hrings, htids, -⟩ := he.traffic
  obtain ⟨hparent, hpass, hbefore, -⟩ := he.keeps ho notifier
  refine ⟨hjobq ▸ hn.live, hn.ne, ?_, ?_, ?_⟩
  · have hplace := hn.place
    have hpassed : Passed a notifier → Passed m notifier := by
      rintro ⟨v, hv, h₀⟩
      exact ⟨v, hpass.trans hv, h₀⟩
    cases ν with
    | start =>
      obtain ⟨hawake, htid⟩ := hplace
      exact ⟨hbefore.trans hawake, by rw [hparent, htids, htid]⟩
    | await tid =>
      obtain ⟨hawake, htid, hp⟩ := hplace
      exact ⟨hbefore.trans hawake, by rw [htids, htid], hpassed hp⟩
    | awaiting tid =>
      obtain ⟨hwait, htid, hp⟩ := hplace
      obtain ⟨-, hstate, -⟩ := he.blocked ho (t := notifier) (by rw [hwait]; rfl)
      exact ⟨hstate.trans hwait, by rw [htids, htid], hpassed hp⟩
    | send tid =>
      obtain ⟨hawake, htid⟩ := hplace
      exact ⟨hbefore.trans hawake, by rw [htids, htid]⟩
    | sending tid =>
      obtain ⟨htid, hlen, hreply, hsent, hstate⟩ := hplace
      have hblocked : (a.task notifier).state.beforeReady = true := by
        rcases hstate with ⟨hst, -⟩ | ⟨hst, -⟩
        · rw [hst]
          rfl
        · rw [hst]
          rfl
      obtain ⟨-, hsame, hx⟩ := he.blocked ho hblocked
      show tid = (m.task server).tid ∧ _
      rw [htids, htids, hx, hsame, hrings]
      exact ⟨htid, hlen, hreply, hsent, hstate⟩
    | leaving => exact absurd hplace id
  · rw [htids]
    exact hn.unasked
  · rw [htids]
    exact hn.given

end Handling

/-! ### Through the handler -/

section Handler

variable {img : Image} {f : ServerFrame} {msg₀ : ClockServerMsg} {server notifier c t : TaskPtr}
  {p : List (Iter Kernel Trap)} {i : Iter Kernel Trap} {σ : ServerTask} {ν : NotifierAt}
  {m a' : AbsKernel} {σ' : ServerTask} {tid client : ℤ}

/-- An interrupt wakes the notifier. -/
def wakes (notifier : TaskPtr) (i : Iter Kernel Trap) : Bool :=
  (i.mid.task notifier).state = .awatievent ∧ (i.next.task notifier).state = .ready

theorem HandlerStep.wakes_eq (h : HandlerStep img i c m a') : wakes notifier i =
    decide ((m.task notifier).state = .awatievent ∧ (a'.task notifier).state = .ready) := by
  unfold wakes
  rw [h.mid.state_eq, h.next.state_eq]

/-- The pending replies to a task whose message is delivered already, and not answered now. -/
theorem ServerMove.pending (hmove : ServerMove f server i σ m a' σ')
    (hw : m.WellFormed) (ht : t ∈ m.jobq) (hin : (m.task t).tid ∈ σ.place.pending)
    (hstay : (a'.task t).state ≠ .ready) : (m.task t).tid ∈ σ'.place.pending := by
  cases hmove with
  | stays => exact hin
  | waits place =>
    rw [place] at hin
    cases hin
  | given place =>
    rcases place with place | place
    · rw [place] at hin
      cases hin
    · rw [place] at hin
      cases hin
  | @replies u msg replies place client ready =>
    rw [place] at hin
    refine (List.mem_cons.mp hin).resolve_left fun htid => ?_
    have huj := AbsKernel.WellFormed.mem_of_lookup client
    rw [hw.tid_inj t ht u huj htid] at hstay
    exact hstay ready

/-- A tick is on its way until the server counts it. -/
theorem ServerMove.onTheWay_eq (hmove : ServerMove f server i σ m a' σ')
    (hw : m.WellFormed) (ht : t ∈ m.jobq) (hstay : (a'.task t).state ≠ .ready) :
    onTheWay σ' (m.task t).tid (.sending tid) = onTheWay σ (m.task t).tid (.sending tid) := by
  cases hmove with
  | stays => rfl
  | waits place => simp [onTheWay, place]
  | given place =>
    rcases place with place | place
    · simp [onTheWay, place]
    · simp [onTheWay, place]
  | @replies u msg replies place client ready =>
    have hne : (m.task t).tid ≠ (m.task u).tid := by
      intro htid
      have huj := AbsKernel.WellFormed.mem_of_lookup client
      rw [hw.tid_inj t ht u huj htid] at hstay
      exact hstay ready
    simp only [onTheWay, place, List.map_cons, List.mem_cons, hne, false_or]

/-- A delivered message is given to the server. -/
theorem ServerMove.given_of_delivery (hmove : ServerMove f server i σ m a' σ')
    {s : TaskPtr} (hd : delivery i = some (s, server)) :
    σ' = { σ with place := .given (m.task s).tid (loadMsg i.next.mem f.msg) } ∧
      (σ.place = .blocked ∨ σ.place = .calling []) := by
  cases hmove with
  | stays quiet silent => exact absurd hd (quiet s)
  | waits place quiet => exact absurd hd (quiet s)
  | @given s' place live before after arrives =>
    obtain rfl : s' = s := by simpa using arrives.symm.trans hd
    exact ⟨rfl, place⟩
  | replies place client ready passed len quiet => exact absurd hd (quiet s)

/-- A move of the server handles no message. -/
theorem ServerMove.handled_eq (hmove : ServerMove f server i σ m a' σ') :
    σ'.handled = σ.handled := by
  cases hmove with
  | stays => rfl
  | waits => rfl
  | given => rfl
  | replies => rfl

/-- A message that arrives at the server is a tick just when it is the notifier's. -/
theorem ServerMove.given_kind (hmove : ServerMove f server i σ m a' σ')
    (hw : m.WellFormed) (hnj : notifier ∈ m.jobq) (hticking : Ticking f server notifier p i)
    (hold : ∀ tid msg, σ.place = .given tid msg →
      (tid = (m.task notifier).tid → msg.kind = some .tick) ∧
        (tid ≠ (m.task notifier).tid → msg.kind ≠ some .tick))
    (hsent : (m.task notifier).state ≠ .watireply → (a'.task notifier).state = .watireply →
      ∃ msg, lastSent (p ++ [i]) notifier = some msg ∧ msg.kind = some .tick) :
    ∀ tid msg, σ'.place = .given tid msg →
      (tid = (m.task notifier).tid → msg.kind = some .tick) ∧
        (tid ≠ (m.task notifier).tid → msg.kind ≠ some .tick) := by
  intro tid msg hgiven
  cases hmove with
  | stays => exact hold tid msg hgiven
  | waits => cases hgiven
  | replies => cases hgiven
  | @given s place live before after arrives =>
    cases hgiven
    constructor
    · intro htid
      obtain rfl := hw.tid_inj s live notifier hnj htid
      obtain ⟨msg, hmsg, hkind⟩ := hsent before after
      rw [hticking.intact arrives] at hmsg
      rw [Option.some.inj hmsg]
      exact hkind
    · intro htid
      refine hticking.others s ?_ arrives
      rintro rfl
      exact htid rfl

/-- A task that is not blocked goes on as it was when another task traps. -/
theorem AbsKernel.Fate.awake {trap : Trap} (hf : AbsKernel.Fate m c trap a' t)
    (hb : (m.task t).state.beforeReady = false) :
    (a'.task t).state = (m.task t).state ∧ a'.passing t = m.passing t := by
  cases hf with
  | stays state passing => exact ⟨state, passing⟩
  | woken cause was =>
    rw [was] at hb
    cases hb
  | handed call lookup was =>
    rw [was] at hb
    cases hb
  | picked call ring was =>
    rw [was] at hb
    cases hb
  | answered call lookup was =>
    rw [was] at hb
    cases hb

theorem HandlerStep.not_wakes (h : HandlerStep img i c m a')
    (hnot : (m.task notifier).state = .awatievent → (a'.task notifier).state ≠ .ready) :
    wakes notifier i = false := by
  rw [h.wakes_eq]
  exact decide_eq_false fun hw => hnot hw.1 hw.2

/-- A notifier that is not blocked stays where it is until it makes a call. -/
theorem NotifierAt.Fits.stays {p' : List (Iter Kernel Trap)}
    (hplace : ν.Fits server notifier p σ m)
    (hb : (m.task notifier).state.beforeReady = false)
    (hstate : (a'.task notifier).state = (m.task notifier).state)
    (hparent : (a'.task notifier).parentTid = (m.task notifier).parentTid)
    (hstid : (a'.task server).tid = (m.task server).tid)
    (hpass : a'.passing notifier = m.passing notifier) :
    ν.Fits server notifier p' σ' a' ∧ onTheWay σ' tid ν = onTheWay σ tid ν := by
  have hpassed : Passed m notifier → Passed a' notifier := by
    rintro ⟨v, hv, h₀⟩
    exact ⟨v, hpass.trans hv, h₀⟩
  cases ν with
  | start =>
    refine ⟨⟨?_, ?_⟩, rfl⟩
    · rw [hstate]
      exact hb
    · rw [hparent, hstid]
      exact hplace.2
  | await tid' =>
    refine ⟨⟨?_, ?_, hpassed hplace.2.2⟩, rfl⟩
    · rw [hstate]
      exact hb
    · rw [hstid]
      exact hplace.2.1
  | send tid' =>
    refine ⟨⟨?_, ?_⟩, rfl⟩
    · rw [hstate]
      exact hb
    · rw [hstid]
      exact hplace.2
  | awaiting tid' =>
    rw [hplace.1] at hb
    cases hb
  | sending tid' =>
    rcases hplace.2.2.2.2 with ⟨hst, -⟩ | ⟨hst, -⟩
    · rw [hst] at hb
      cases hb
    · rw [hst] at hb
      cases hb
  | leaving => exact absurd hplace id

/-- The notifier's message waits in the ring of the server, or for the server's reply. -/
def Carried (server notifier : TaskPtr) (σ : ServerTask) (a : AbsKernel) : Prop :=
  (a.task notifier).state = .watisend ∧ ofInt (a.task notifier).tid ∈ a.rings server ∨
    (a.task notifier).state = .watireply ∧ (a.task notifier).tid ∈ σ.place.pending

theorem Carried.inTransit (h : Carried server notifier σ m) :
    (m.task notifier).state.inTransit := h.imp And.left And.left

theorem Carried.not_of_eq (h : Carried server notifier σ m) {u : TaskState}
    (hst : (m.task notifier).state = u) (hu : u ≠ .watisend ∧ u ≠ .watireply) : False :=
  AbsKernel.not_inTransit_of_eq hst hu h.inTransit

/-- A Send whose message is on its way has not returned. -/
theorem HandlerStep.notifierSends_eq (h : HandlerStep img i c m a')
    (hst : (a'.task notifier).state.inTransit) :
    notifierSends notifier i.next tid = .sending tid := by
  unfold notifierSends
  rw [h.next.returned_eq]
  rcases hst with hst | hst
  · rw [hst]
    rfl
  · rw [hst]
    rfl

/-- Where a message that arrives at the server is: with the server, which owes the reply. -/
theorem ServerMove.carried (hmove : ServerMove f server i σ m a' σ')
    (hd : delivery i = some (notifier, server))
    (htid : (a'.task notifier).tid = (m.task notifier).tid)
    (hst : (a'.task notifier).state = .watireply) : Carried server notifier σ' a' := by
  obtain ⟨rfl, -⟩ := hmove.given_of_delivery hd
  right
  refine ⟨hst, ?_⟩
  rw [htid]
  exact List.mem_singleton_self _

/-- A message stays on its way until its sender is ready again. -/
theorem Carried.kept (hin : Carried server notifier σ m) (hs : Serving f msg₀ server p σ m)
    (h : HandlerStep img i c m a') (hnj : notifier ∈ m.jobq) (hcn : c ≠ notifier)
    (hexit : server = c → i.input.syscall ≠ some .exit)
    (hmove : ServerMove f server i σ m a' σ') (hstay : (a'.task notifier).state ≠ .ready) :
    Carried server notifier σ' a' := by
  obtain ⟨-, htid, -, -⟩ := h.keeps hnj fun he => absurd he.symm hcn
  cases h.fate hnj fun he => hcn he.symm with
  | stays state passing =>
    rcases hin with ⟨hst, hring⟩ | ⟨hst, hin⟩
    · left
      refine ⟨state.trans hst, ?_⟩
      rw [htid]
      refine h.effect.ring_stays h.orderly h.current h.running hs.live hexit hnj hring ?_
      rw [state, hst]
      decide
    · right
      refine ⟨state.trans hst, ?_⟩
      rw [htid]
      exact hmove.pending h.orderly.toWellFormed hnj hin hstay
  | picked call ring was now =>
    have hring : ofInt (m.task notifier).tid ∈ m.rings server := by
      rcases hin with ⟨-, hring⟩ | ⟨hst, -⟩
      · exact hring
      · rw [was] at hst
        cases hst
    have hcs : c = server := eq_of_occurs_le_one (h.orderly.once _)
      (by rw [ring]; exact List.mem_cons_self) hring
    obtain ⟨r, hd, hr⟩ := h.delivery_eq (by rw [was]; decide) now
    obtain rfl : r = server := by
      rcases hr with ⟨hsend, -⟩ | ⟨-, hr⟩
      · rw [call] at hsend
        cases hsend
      · exact hr.trans hcs
    exact hmove.carried hd htid now
  | answered call lookup was ready => exact absurd ready hstay
  | woken cause was => exact (hin.not_of_eq was (by decide)).elim
  | handed call lookup was => exact (hin.not_of_eq was (by decide)).elim

/-- The sender of a message is ready again when the server answers it. -/
theorem Carried.answered (hin : Carried server notifier σ m) (hs : Serving f msg₀ server p σ m)
    (h : HandlerStep img i c m a') (hnj : notifier ∈ m.jobq) (hcn : c ≠ notifier)
    (hcivil : Civil f server p i) (hmove : ServerMove f server i σ m a' σ')
    (hreply : toInt32 ((m.task notifier).x 4) = clockServerMsgSize)
    (hready : (a'.task notifier).state = .ready) :
    a'.passing notifier = some (ofInt 8) ∧
      ∃ msg replies, σ.place = .calling (((m.task notifier).tid, msg) :: replies) := by
  cases h.fate hnj fun he => hcn he.symm with
  | stays state => exact (hin.not_of_eq (state.symm.trans hready) (by decide)).elim
  | picked call ring was now =>
    rw [now] at hready
    cases hready
  | answered call lookup was ready passed =>
    have hpending : (m.task notifier).tid ∈ σ.place.pending := by
      rcases hin with ⟨hst, -⟩ | ⟨-, hin⟩
      · rw [was] at hst
        cases hst
      · exact hin
    have hcs : c = server := by
      by_contra hne
      exact (hs.owes _ (List.mem_append_right _ hpending)).not_answered h hne hcivil call _ lookup
        rfl
    subst hcs
    cases hmove with
    | stays quiet silent => exact absurd call (silent h.current_eq)
    | waits place =>
      rw [place] at hpending
      cases hpending
    | given place =>
      rcases place with place | place
      · rw [place] at hpending
        cases hpending
      · rw [place] at hpending
        cases hpending
    | @replies t msg replies place client _ _ len =>
      obtain rfl : t = notifier := Option.some.inj (client.symm.trans lookup)
      have hv : m.repliedLen c t = 8 := by
        unfold AbsKernel.repliedLen
        rw [len, hreply]
        rfl
      exact ⟨by rw [passed, hv], msg, replies, place⟩
  | woken cause was => exact (hin.not_of_eq was (by decide)).elim
  | handed call lookup was => exact (hin.not_of_eq was (by decide)).elim

/-- While another task runs, a notifier that waits for the timer goes on when an interrupt wakes
it. -/
theorem NotifierAt.Fits.bystander_awaiting
    (hplace : (NotifierAt.awaiting tid).Fits server notifier p σ m)
    (h : HandlerStep img i c m a') (hnj : notifier ∈ m.jobq) (hcn : c ≠ notifier)
    (hstid : (a'.task server).tid = (m.task server).tid) :
    (notifierAwaits notifier i.next tid).Fits server notifier (p ++ [i]) σ' a' ∧
      onTheWay σ' client (notifierAwaits notifier i.next tid) =
        if wakes notifier i then 1 else 0 := by
  obtain ⟨hwait, hp, v, hv, h₀⟩ := hplace
  unfold notifierAwaits
  rw [h.next.returned_eq]
  cases h.fate hnj fun he => hcn he.symm with
  | stays state passing =>
    rw [h.not_wakes fun _ => by rw [state, hwait]; decide, state, hwait]
    refine ⟨⟨state.trans hwait, ?_, v, passing.trans hv, h₀⟩, rfl⟩
    rw [hstid]
    exact hp
  | woken cause was ready passing =>
    rw [h.wakes_eq, decide_eq_true ⟨was, ready⟩, h.next.returnValue_eq (passing.trans hv), ready,
      if_pos h₀]
    refine ⟨⟨?_, ?_⟩, rfl⟩
    · rw [ready]
      rfl
    · rw [hstid]
      exact hp
  | handed call lookup was =>
    rw [hwait] at was
    cases was
  | picked call ring was =>
    rw [hwait] at was
    cases was
  | answered call lookup was =>
    rw [hwait] at was
    cases was

/-- While another task runs, a notifier in its Send goes on when the server answers it. -/
theorem NotifierAt.Fits.bystander_sending
    (hplace : (NotifierAt.sending tid).Fits server notifier p σ m)
    (hs : Serving f msg₀ server p σ m) (h : HandlerStep img i c m a') (hnj : notifier ∈ m.jobq)
    (hcn : c ≠ notifier) (hexit : server = c → i.input.syscall ≠ some .exit)
    (hcivil : Civil f server p i) (hmove : ServerMove f server i σ m a' σ') :
    (notifierSends notifier i.next tid).Fits server notifier (p ++ [i]) σ' a' ∧
      onTheWay σ' (m.task notifier).tid (notifierSends notifier i.next tid) =
        onTheWay σ (m.task notifier).tid (.sending tid) := by
  obtain ⟨-, -, hx, -⟩ := h.keeps hnj fun he => absurd he.symm hcn
  obtain ⟨-, hstid, -, -⟩ := h.keeps hs.live hexit
  obtain ⟨hp, hlen, hreply, hsent, hin⟩ := hplace
  by_cases hready : (a'.task notifier).state = .ready
  · obtain ⟨hpass, msg, replies, place⟩ :=
      Carried.answered hin hs h hnj hcn hcivil hmove hreply hready
    unfold notifierSends
    rw [h.next.returned_eq, h.next.returnValue_eq hpass, hready]
    refine ⟨⟨?_, ?_, _, hpass, by decide⟩, ?_⟩
    · rw [hready]
      rfl
    · rw [hstid]
      exact hp
    · show 0 = _
      simp only [onTheWay, place, List.map_cons, List.mem_cons, true_or, if_pos]
  · have hkept : Carried server notifier σ' a' :=
      Carried.kept hin hs h hnj hcn hexit hmove hready
    rw [h.notifierSends_eq hkept.inTransit]
    refine ⟨⟨?_, ?_, ?_, ?_, hkept⟩, hmove.onTheWay_eq h.orderly.toWellFormed hnj hready⟩
    · rw [hstid]
      exact hp
    · rw [hx]
      exact hlen
    · rw [hx]
      exact hreply
    · rw [lastSent_snoc, if_neg fun hc => hcn (Option.some.inj (h.current_eq.symm.trans hc.1))]
      exact hsent

/-- **An iteration of another task** takes the notifier to where its C code goes on. -/
theorem Notifying.bystander (hn : Notifying server notifier p σ ν m)
    (hs : Serving f msg₀ server p σ m) (h : HandlerStep img i c m a') (hcn : c ≠ notifier)
    (hexit : server = c → i.input.syscall ≠ some .exit) (hcivil : Civil f server p i)
    (hmove : ServerMove f server i σ m a' σ') :
    ∃ ν', notifierStep notifier false i ν = some ν' ∧ ν'.Fits server notifier (p ++ [i]) σ' a' ∧
      onTheWay σ' (m.task notifier).tid ν' =
        onTheWay σ (m.task notifier).tid ν + if wakes notifier i then 1 else 0 := by
  obtain ⟨-, -, -, hparent⟩ := h.keeps hn.live fun he => absurd he.symm hcn
  obtain ⟨-, hstid, -, -⟩ := h.keeps hs.live hexit
  have hplace := hn.place
  have hgoeson : (m.task notifier).state.beforeReady = false →
      ν.Fits server notifier (p ++ [i]) σ' a' ∧ onTheWay σ' (m.task notifier).tid ν =
        onTheWay σ (m.task notifier).tid ν + if wakes notifier i then 1 else 0 := by
    intro hb
    obtain ⟨hstate, hpass⟩ := (h.fate hn.live fun he => hcn he.symm).awake hb
    rw [h.not_wakes fun he => by rw [he] at hb; cases hb]
    exact hplace.stays hb hstate hparent hstid hpass
  unfold notifierStep
  rw [if_neg fun hc => hcn (Option.some.inj (h.current_eq.symm.trans hc))]
  cases ν with
  | start => exact ⟨.start, rfl, hgoeson hplace.1⟩
  | await tid => exact ⟨.await tid, rfl, hgoeson hplace.1⟩
  | send tid => exact ⟨.send tid, rfl, hgoeson hplace.1⟩
  | leaving => exact absurd hplace id
  | awaiting tid =>
    obtain ⟨hfits, hway⟩ := hplace.bystander_awaiting h hn.live hcn hstid
    exact ⟨_, rfl, hfits, hway.trans (Nat.zero_add _).symm⟩
  | sending tid =>
    have hin : Carried server notifier σ m := hplace.2.2.2.2
    rw [h.not_wakes fun he => (hin.not_of_eq he (by decide)).elim]
    exact ⟨_, rfl, hplace.bystander_sending hs h hn.live hcn hexit hcivil hmove⟩

/-- No reply to the notifier is pending while it runs. -/
theorem Serving.onTheWay_sending (hs : Serving f msg₀ server p σ m) (hw : m.WellFormed)
    (ht : t ∈ m.jobq) (hstate : (m.task t).state ≠ .watireply) :
    onTheWay σ (m.task t).tid (.sending tid) = 1 := by
  have hnot := hs.not_owed hw ht hstate
  cases hplace : σ.place with
  | calling replies =>
    simp only [onTheWay, hplace]
    refine if_neg fun hin => hnot ?_
    rw [ServerTask.owed, hplace]
    exact List.mem_append_right _ hin
  | _ => simp only [onTheWay, hplace]

/-- The ring of the server has room for the running task. -/
theorem Serving.room (hs : Serving f msg₀ server p σ m) (h : HandlerStep img i c m a')
    (hcs : c ≠ server) : (registerSender (m.task server) (m.task c).tid).1 = true := by
  have hself : ofInt (m.task server).tid ∉ m.rings server := by
    intro hin
    obtain ⟨s, hsj, heq, hst⟩ := h.orderly.sender server _ hin
    obtain rfl : server = s := h.orderly.ofInt_tid_inj hs.live hsj heq
    rcases hs.place.state with hfree | ⟨-, hwait⟩
    · rw [hst] at hfree
      cases hfree
    · rw [hst] at hwait
      cases hwait
  refine (Queue.push_fst (h.orderly.ring server).ok _).mpr ?_
  rw [(h.orderly.ring server).capacity]
  exact h.orderly.ring_room h.running hs.live hcs hself

/-- A Send to the server puts the message on its way. -/
theorem Serving.sent (hs : Serving f msg₀ server p σ m) (h : HandlerStep img i notifier m a')
    (hnj : notifier ∈ m.jobq) (hne : notifier ≠ server) (hmove : ServerMove f server i σ m a' σ')
    (hcall : i.input.syscall = some .send)
    (hlookup : m.getTaskByTid (toInt32 ((m.task notifier).x 0)) = some server) :
    Carried server notifier σ' a' := by
  obtain ⟨-, htid, -, -⟩ := h.keeps hnj fun _ => by rw [hcall]; decide
  have hdeed := h.deed
  rw [hcall] at hdeed
  generalize ha : a' = b at hdeed
  cases hdeed with
  | noTask hl =>
    rw [hlookup] at hl
    cases hl
  | @direct r hl state =>
    have hst : (a'.task notifier).state = .watireply := by
      rw [ha, AbsKernel.setState_state, if_pos rfl]
    obtain ⟨r', hd, hr⟩ := h.delivery_eq (by rw [h.running]; decide) hst
    obtain rfl : r' = server := by
      rcases hr with ⟨-, -, hl'⟩ | ⟨hreceive, -⟩
      · exact Option.some.inj (hl'.symm.trans hlookup)
      · rw [hcall] at hreceive
        cases hreceive
    rw [← ha]
    exact hmove.carried hd htid hst
  | @queued r hl state room =>
    obtain rfl : r = server := Option.some.inj (hl.symm.trans hlookup)
    left
    constructor
    · rw [AbsKernel.setState_state, if_pos rfl]
    · rw [AbsKernel.rings_setState, AbsKernel.setState_tid,
        AbsKernel.modify_field m r _ Task.tid rfl]
      show _ ∈ ((m.modify r _).task r).senders.contents
      rw [AbsKernel.modify_task, Function.update_self,
        AbsKernel.registerSender_contents (h.orderly.ring r) room]
      exact List.mem_append_right _ (List.mem_singleton_self _)
  | @full r hl full =>
    obtain rfl : r = server := Option.some.inj (hl.symm.trans hlookup)
    rw [hs.room h hne] at full
    cases full

/-- The first call of the notifier tells it the tid of the server. -/
theorem NotifierAt.Fits.acts_start (hplace : NotifierAt.start.Fits server notifier p σ m)
    (hs : Serving f msg₀ server p σ m) (h : HandlerStep img i notifier m a')
    (hstid : (a'.task server).tid = (m.task server).tid)
    (hcall : i.input.syscall = some .myParentTid) :
    (NotifierAt.await (returnValue i.next notifier)).Fits server notifier (p ++ [i]) σ' a' := by
  have hdeed := h.deed
  rw [hcall] at hdeed
  have ha : a' = m.assign notifier (m.task notifier).parentTid := hdeed
  obtain ⟨hb, hp⟩ := hplace
  have hpass : a'.passing notifier = some (ofInt (m.task server).tid) := by
    rw [ha, AbsKernel.passing_assign, if_pos rfl, hp]
  obtain ⟨h₀, hlt⟩ := h.orderly.toWellFormed.tid_lt hs.live
  have hint : toInt32 (ofInt (m.task server).tid) = (m.task server).tid := by
    apply toInt32_ofInt
    · omega
    · simp only [maxTaskNum] at hlt
      omega
  refine ⟨?_, ?_, _, hpass, ?_⟩
  · rw [ha, AbsKernel.assign_state]
    exact hb
  · rw [h.next.returnValue_eq hpass, hint, hstid]
  · rw [hint]
    exact h₀

/-- AwaitEvent blocks the notifier until an interrupt wakes it. -/
theorem NotifierAt.Fits.acts_await (hplace : (NotifierAt.await tid).Fits server notifier p σ m)
    (h : HandlerStep img i notifier m a') (hstid : (a'.task server).tid = (m.task server).tid)
    (hcall : i.input.syscall = some .awaitEvent) :
    notifierAwaits notifier i.next tid = .awaiting tid ∧
      (NotifierAt.awaiting tid).Fits server notifier (p ++ [i]) σ' a' := by
  have hdeed := h.deed
  rw [hcall] at hdeed
  have ha : a'.task notifier = { m.task notifier with state := .awatievent } := hdeed
  obtain ⟨hb, hp, v, hv, h₀⟩ := hplace
  refine ⟨?_, ?_, ?_, v, ?_, h₀⟩
  · unfold notifierAwaits
    rw [h.next.returned_eq, ha]
    rfl
  · rw [ha]
  · rw [hstid]
    exact hp
  · unfold AbsKernel.passing
    rw [ha]
    exact hv

/-- The Send of the notifier puts a tick on its way. -/
theorem NotifierAt.Fits.acts_send (hplace : (NotifierAt.send tid).Fits server notifier p σ m)
    (hs : Serving f msg₀ server p σ m) (h : HandlerStep img i notifier m a')
    (hnj : notifier ∈ m.jobq) (hne : notifier ≠ server) (hmove : ServerMove f server i σ m a' σ')
    (hcall : i.input.syscall = some .send) (hto : toInt32 (i.input.x 0) = tid)
    (hkind : (loadMsg i.input.mem (i.input.x 1)).kind = some .tick)
    (hlen : toInt32 (i.input.x 2) = clockServerMsgSize)
    (hreply : toInt32 (i.input.x 4) = clockServerMsgSize) :
    notifierSends notifier i.next tid = .sending tid ∧
      (NotifierAt.sending tid).Fits server notifier (p ++ [i]) σ' a' ∧
      onTheWay σ' (m.task notifier).tid (.sending tid) = 1 := by
  have hw := h.orderly.toWellFormed
  obtain ⟨-, hp⟩ := hplace
  obtain ⟨-, hstid, -, -⟩ := h.keeps hs.live fun he => absurd he.symm hne
  obtain ⟨-, -, hx, -⟩ := h.keeps hnj fun _ => by rw [hcall]; decide
  have hlookup : m.getTaskByTid (toInt32 ((m.task notifier).x 0)) = some server := by
    rw [h.regs, hto, hp]
    exact hw.lookup_eq hs.live
  have hsent : Carried server notifier σ' a' := hs.sent h hnj hne hmove hcall hlookup
  refine ⟨h.notifierSends_eq hsent.inTransit,
    ⟨?_, ?_, ?_, ⟨loadMsg i.input.mem (i.input.x 1), ?_, hkind⟩, hsent⟩, ?_⟩
  · rw [hstid]
    exact hp
  · rw [hx, h.regs]
    exact hlen
  · rw [hx, h.regs]
    exact hreply
  · rw [lastSent_snoc]
    exact if_pos ⟨h.current_eq, hcall⟩
  · rw [hmove.onTheWay_eq hw hnj fun hready => hsent.not_of_eq hready (by decide)]
    exact hs.onTheWay_sending hw hnj (by rw [h.running]; decide)

/-- **The next call of the notifier** is the one of its C code, and the kernel takes it there. -/
theorem Notifying.acts (hn : Notifying server notifier p σ ν m)
    (hs : Serving f msg₀ server p σ m) (h : HandlerStep img i notifier m a')
    (hmove : ServerMove f server i σ m a' σ') {ν' : NotifierAt}
    (hstep : notifierStep notifier false i ν = some ν') :
    ν'.Fits server notifier (p ++ [i]) σ' a' ∧
      onTheWay σ' (m.task notifier).tid ν' =
        onTheWay σ (m.task notifier).tid ν + if wakes notifier i then 1 else 0 := by
  obtain ⟨-, hstid, -, -⟩ := h.keeps hs.live fun he => absurd he.symm hn.ne
  have hplace := hn.place
  rw [h.not_wakes fun he => by rw [h.running] at he; cases he]
  show _ ∧ _ = onTheWay σ (m.task notifier).tid ν
  unfold notifierStep at hstep
  rw [if_pos h.current_eq] at hstep
  split at hstep
  · rename_i hnone
    obtain rfl := Option.some.inj hstep
    have hdeed := h.deed
    rw [hnone] at hdeed
    have hsame : a'.task notifier = m.task notifier := hdeed
    have hpass : a'.passing notifier = m.passing notifier := by
      unfold AbsKernel.passing
      rw [hsame]
    have hb : (m.task notifier).state.beforeReady = false := by
      rw [h.running]
      rfl
    exact hplace.stays hb (congrArg Task.state hsame) (congrArg Task.parentTid hsame) hstid hpass
  · unfold notifierCall at hstep
    cases ν with
    | start =>
      obtain ⟨hcall, hν'⟩ := Option.ite_none_right_eq_some.mp hstep
      obtain rfl := Option.some.inj hν'
      exact ⟨hplace.acts_start hs h hstid hcall, rfl⟩
    | await tid =>
      obtain ⟨⟨hcall, -⟩, hν'⟩ := Option.ite_none_right_eq_some.mp hstep
      obtain ⟨hwaits, hfits⟩ := hplace.acts_await h hstid hcall
      obtain rfl := hwaits.symm.trans (Option.some.inj hν')
      exact ⟨hfits, rfl⟩
    | send tid =>
      simp only [staleArgument, Bool.false_and, Bool.false_eq_true, or_false] at hstep
      obtain ⟨⟨hcall, hto, hkind, hlen, -, hreply⟩, hν'⟩ := Option.ite_none_right_eq_some.mp hstep
      obtain ⟨hsends, hgoes⟩ :=
        hplace.acts_send hs h hn.live hn.ne hmove hcall hto hkind hlen hreply
      obtain rfl := hsends.symm.trans (Option.some.inj hν')
      exact hgoes
    | awaiting tid => cases hstep
    | sending tid => cases hstep
    | leaving => cases hstep

/-! ### One iteration -/

theorem Notifying.handles (hn : Notifying server notifier p σ ν m)
    (hs : Serving f msg₀ server p σ m) (hw : m.WellFormed) :
    Notifying server notifier p (serverHandles σ) ν m ∧
      ticked (serverHandles σ) ν (m.task notifier).tid = ticked σ ν (m.task notifier).tid := by
  cases hplace : σ.place with
  | given tid msg => exact hn.handles_given hs hw hplace
  | _ =>
    have hsame : serverHandles σ = σ := by
      unfold serverHandles
      rw [hplace]
    rw [hsame]
    exact ⟨hn, rfl⟩

theorem Notifying.atTrap (hn : Notifying server notifier p σ ν m)
    (hs : Serving f msg₀ server p σ m) (hw : m.WellFormed) :
    Notifying server notifier p (serverAtTrap server i σ) ν m ∧
      ticked (serverAtTrap server i σ) ν (m.task notifier).tid =
        ticked σ ν (m.task notifier).tid := by
  unfold serverAtTrap
  split
  · exact hn.handles hs hw
  · exact ⟨hn, rfl⟩

/-- The notifier's message is a tick when it is delivered. -/
theorem NotifierAt.Fits.sent (hplace : ν.Fits server notifier p σ a')
    (hstate : (a'.task notifier).state = .watireply) :
    ∃ msg, lastSent p notifier = some msg ∧ msg.kind = some .tick := by
  obtain ⟨tid, rfl⟩ := hplace.sending (Or.inr hstate)
  exact hplace.2.2.2.1

/-- **One iteration** keeps the notifier in its loop, and it adds a tick just when it wakes the
notifier. -/
theorem Notifying.step (hn : Notifying server notifier p σ ν m)
    (hs : Serving f msg₀ server p σ m) (h : HandlerStep img i c m a')
    (hcivil : Civil f server p i) (hticking : Ticking f server notifier p i)
    {ν' : NotifierAt} (hstep : serverStep f server false i σ = some σ')
    (hnstep : notifierStep notifier false i ν = some ν') :
    Notifying server notifier (p ++ [i]) σ' ν' a' ∧
      ticked σ' ν' (a'.task notifier).tid =
        ticked σ ν (m.task notifier).tid + if wakes notifier i then 1 else 0 := by
  have hw := h.orderly.toWellFormed
  obtain ⟨-, hmove⟩ := hs.step h hcivil hstep
  have hs₁ : Serving f msg₀ server p (serverAtTrap server i σ) m := hs.atTrap hw
  obtain ⟨hn₁, hticked⟩ := hn.atTrap (i := i) hs hw
  have hexit : ∀ t, t = server → t = c → i.input.syscall ≠ some .exit := by
    rintro t hts rfl
    exact serverStep_not_exit hstep (hts ▸ h.current_eq)
  have hgoes : ν'.Fits server notifier (p ++ [i]) σ' a' ∧
      onTheWay σ' (m.task notifier).tid ν' =
        onTheWay (serverAtTrap server i σ) (m.task notifier).tid ν +
          if wakes notifier i then 1 else 0 := by
    by_cases hcn : c = notifier
    · subst hcn
      exact hn₁.acts hs₁ h hmove hnstep
    · obtain ⟨ν₁, hstep₁, hfits, hway⟩ := hn₁.bystander hs₁ h hcn (hexit server rfl) hcivil hmove
      obtain rfl : ν₁ = ν' := Option.some.inj (hstep₁.symm.trans hnstep)
      exact ⟨hfits, hway⟩
  have hnexit : notifier = c → i.input.syscall ≠ some .exit := by
    rintro rfl hcall
    unfold notifierStep at hnstep
    rw [if_pos h.current_eq, hcall] at hnstep
    cases ν <;> simp [notifierCall, hcall] at hnstep
  obtain ⟨hlive, htid, -, -⟩ := h.keeps hn.live hnexit
  obtain ⟨hfits, hway⟩ := hgoes
  refine ⟨⟨hlive, hn.ne, hfits, ?_, ?_⟩, ?_⟩
  · rw [htid, hmove.handled_eq]
    exact hn₁.unasked
  · rw [htid]
    exact hmove.given_kind hw hn.live hticking hn₁.given fun _ after => hfits.sent after
  · rw [htid, ← hticked]
    unfold ticked
    rw [hmove.handled_eq, hway, Nat.add_assoc]

end Handler

end RealtimeKernel
