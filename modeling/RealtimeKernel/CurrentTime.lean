import RealtimeKernel.DelayedClients

/-!
# What the clock server tells its clients

`Time`, `Delay` and `DelayUntil` return what the server put into `ticks` of its reply.  The server
has one buffer for all messages.  `TIME` and the loop of `TICK` write the tick count into it before
they reply; a request whose deadline has come is answered with the buffer as it is, that is, with
the deadline.  Nothing is assumed of the messages here: the buffer after a `Receive` is arbitrary.
-/

namespace RealtimeKernel

open Lib

/-! ### The client functions -/

/-- What `Send` returns, and the buffer `msg` afterwards. -/
abbrev ClockSend := ClockServerMsg → ℤ × ClockServerMsg

/-- The end of the client functions. -/
def clockSend (send : ClockSend) (msg : ClockServerMsg) : ℤ :=
  let (result, msg) := send msg
  if result < 0 then -1 else msg.ticks.toInt

/-- `Time`; `msg.ticks` is not initialised. -/
def time (send : ClockSend) (ticks : U32) : ℤ := clockSend send ⟨1, ticks⟩

/-- `Delay`. -/
def delay (send : ClockSend) (ticks : ℤ) : ℤ :=
  if ticks < 0 then -2 else clockSend send ⟨2, BitVec.ofInt 32 ticks⟩

/-- `DelayUntil`. -/
def delayUntil (send : ClockSend) (ticks : ℤ) : ℤ :=
  if ticks < 0 then -2 else clockSend send ⟨3, BitVec.ofInt 32 ticks⟩

theorem clockSend_eq {send : ClockSend} {msg : ClockServerMsg} (h : 0 ≤ (send msg).1) :
    clockSend send msg = (send msg).2.ticks.toInt := if_neg (not_lt.mpr h)

/-! ### The replies to one message -/

variable {s s' : ClockServer} {c : ℤ} {m : ClockServerMsg} {rs : ClockReplies}
  {h p q : List ClockExchange} {e : ClockExchange} {msg₀ : ClockServerMsg} {d : U32}

/-- The loop of `TICK` sends the same message to every client it wakes. -/
theorem clockServerWake_replies {ticks : U32} {msg : ClockServerMsg} {n : ℕ}
    {node : Option ChunkPtr} {pool pool' : MemoryPool DelayQueueNode} {queue queue' : DelayQueue}
    (h : clockServerWake ticks msg n node pool queue = .ok (pool', queue', rs)) :
    ∀ r ∈ rs, r.2 = msg := by
  induction n generalizing node pool queue rs with
  | zero =>
    cases node with
    | none =>
      cases h
      simp
    | some x => cases h
  | succ n ih =>
    cases node with
    | none =>
      cases h
      simp
    | some x =>
      rw [clockServerWake] at h
      split at h
      · obtain ⟨pool₁, -, h⟩ := bind_eq_ok.mp h
        obtain ⟨⟨pool₂, queue₂, rs₂⟩, hwake, h⟩ := bind_eq_ok.mp h
        cases h
        intro r hr
        cases hr with
        | head => rfl
        | tail _ hr => exact ih hwake r hr
      · cases h
        simp

/-- A request to be woken is answered with its deadline when that has come. -/
theorem clockServerDelayUntil_replies
    (h : clockServerDelayUntil s c = .ok (s', rs)) :
    s'.ticks = s.ticks ∧ rs = if s.msg.ticks ≤ s.ticks then [(c, s.msg)] else [] := by
  unfold clockServerDelayUntil at h
  split at h
  · rename_i hdue
    cases h
    exact ⟨rfl, (if_pos hdue).symm⟩
  · rename_i hdue
    rw [if_neg hdue]
    split at h
    · obtain ⟨⟨pool, queue⟩, -, h⟩ := bind_eq_ok.mp h
      cases h
      exact ⟨rfl, rfl⟩
    · cases h

/-- What the server does with a message, whatever state it is in. -/
inductive Replies (now : U32) (c : ℤ) (m : ClockServerMsg) : U32 → ClockReplies → Prop
  /-- The notifier is answered first, and then the clients that are woken. -/
  | tick {woken : ClockReplies} (kind : m.kind = some .tick)
      (current : ∀ r ∈ woken, r.2 = { m with ticks := now + 1 }) :
      Replies now c m (now + 1) ((c, m) :: woken)
  | time (kind : m.kind = some .time) : Replies now c m now [(c, { m with ticks := now })]
  | due {d : U32} (request : deadline now m = some d) (come : d ≤ now) :
      Replies now c m now [(c, { m with ticks := d })]
  | queued {d : U32} (request : deadline now m = some d) (future : now < d) : Replies now c m now []
  | unknown (kind : m.kind = none) : Replies now c m now []

theorem clockServer_replies (h : clockServer s c m = .ok (s', rs)) :
    Replies s.ticks c m s'.ticks rs := by
  have hrequest : ∀ (t : ClockServer) d, t.ticks = s.ticks → t.msg = { m with ticks := d } →
      deadline s.ticks m = some d → clockServerDelayUntil t c = .ok (s', rs) →
      Replies s.ticks c m s'.ticks rs := by
    intro t d ht hmsg hd hok
    obtain ⟨hs', hrs⟩ := clockServerDelayUntil_replies hok
    rw [hmsg, ht] at hrs
    rw [hs', ht, hrs]
    by_cases hdue : d ≤ s.ticks
    · rw [if_pos hdue]
      exact .due hd hdue
    · rw [if_neg hdue]
      exact .queued hd (BitVec.not_le.mp hdue)
  unfold clockServer clockServerBody at h
  cases hk : m.kind with
  | none =>
    simp only [hk] at h
    cases h
    exact .unknown hk
  | some action =>
    cases action with
    | tick =>
      simp only [hk] at h
      obtain ⟨⟨pool, queue, woken⟩, hwake, h⟩ := bind_eq_ok.mp h
      cases h
      exact .tick hk (clockServerWake_replies hwake)
    | time =>
      simp only [hk] at h
      cases h
      exact .time hk
    | delay =>
      simp only [hk] at h
      exact hrequest { s with msg := { m with ticks := m.ticks + s.ticks } } _ rfl rfl
        (by rw [deadline, hk]) h
    | delayUntil =>
      simp only [hk] at h
      exact hrequest { s with msg := m } _ rfl rfl (by rw [deadline, hk]) h

/-- Only a tick advances the clock. -/
theorem Replies.now_eq {now now' : U32} (hr : Replies now c m now' rs) :
    now' = if m.kind = some .tick then now + 1 else now := by
  cases hr with
  | tick kind => rw [if_pos kind]
  | time kind => rw [if_neg (by simp [kind])]
  | due request =>
    rw [if_neg]
    intro hk
    simp [deadline, hk] at request
  | queued request =>
    rw [if_neg]
    intro hk
    simp [deadline, hk] at request
  | unknown kind => rw [if_neg (by simp [kind])]

/-! ### Runs -/

/-- **The tick count of the server** is the number of the ticks it received. -/
theorem ticks_eq_nowAfter (run : Serves clockServer (clockServerInit msg₀) h s) :
    s.ticks = nowAfter h := by
  induction run with
  | nil => rfl
  | @snoc h s s' c m rs run hm ih =>
    rw [nowAfter_snoc, ← ih]
    rw [(clockServer_replies hm).now_eq]
    unfold isTick
    simp only [decide_eq_true_eq]

/-- An exchange of a run is one of the cases of `Replies`. -/
theorem ClockServer.replies (run : Serves clockServer (clockServerInit msg₀) h s)
    (hh : h = p ++ e :: q) :
    Replies (nowAfter p) e.sender e.message (nowAfter (p ++ [e])) e.replies := by
  obtain ⟨s₁, s₂, run₁, hok⟩ := run.split hh
  have hr := clockServer_replies hok
  have hnext : s₂.ticks = nowAfter (p ++ [e]) := ticks_eq_nowAfter (run₁.snoc hok)
  rwa [ticks_eq_nowAfter run₁, hnext] at hr

/-- The replies to `TIME`, `DELAY` and `DELAY_UNTIL`: all but the one to the notifier. -/
def clockAnswers (e : ClockExchange) : ClockReplies :=
  if isTick e then e.replies.tail else e.replies

/-- All these replies carry the tick count. -/
def TellsTime (p : List ClockExchange) (e : ClockExchange) : Prop :=
  ∀ r ∈ clockAnswers e, r.2.ticks = nowAfter (p ++ [e])

/-- The deadline of the request is before the tick count. -/
def Late (p : List ClockExchange) (e : ClockExchange) : Prop :=
  ∃ d, deadline (nowAfter p) e.message = some d ∧ d < nowAfter p

/-- A client that is given one of these replies returns the tick count. -/
def ReturnsTime (p : List ClockExchange) (e : ClockExchange) : Prop :=
  ∀ r ∈ clockAnswers e, ∀ send : ClockSend, (∀ m, 0 ≤ (send m).1 ∧ (send m).2 = r.2) →
    (∀ t, time send t = (nowAfter (p ++ [e])).toInt) ∧
    ∀ t, 0 ≤ t → delay send t = (nowAfter (p ++ [e])).toInt ∧
      delayUntil send t = (nowAfter (p ++ [e])).toInt

theorem Replies.tellsTime_iff (hr : Replies (nowAfter p) e.sender e.message
    (nowAfter (p ++ [e])) e.replies) : TellsTime p e ↔ ¬ Late p e := by
  have hlate : deadline (nowAfter p) e.message = none → ¬ Late p e := by
    rintro hnone ⟨d, hd, -⟩
    rw [hnone] at hd
    cases hd
  have hnow := hr.now_eq
  unfold TellsTime clockAnswers isTick
  generalize nowAfter (p ++ [e]) = now at hr hnow ⊢
  generalize e.replies = rs at hr ⊢
  cases hr with
  | tick kind current =>
    simp only [kind, decide_true, if_true, List.tail_cons]
    exact iff_of_true (fun r hr => by rw [current r hr]) (hlate (by simp [deadline, kind]))
  | time kind =>
    exact iff_of_true (by simp [kind]) (hlate (by simp [deadline, kind]))
  | @due d request come =>
    have hk : e.message.kind ≠ some .tick := fun hk => by simp [deadline, hk] at request
    simp only [hk, decide_false, Bool.false_eq_true, if_false, List.mem_singleton, forall_eq]
    constructor
    · rintro rfl ⟨d', hd', hlt⟩
      obtain rfl := Option.some.inj (request.symm.trans hd')
      exact BitVec.lt_irrefl _ hlt
    · intro hnot
      by_contra hne
      exact hnot ⟨d, request, BitVec.lt_of_le_ne come hne⟩
  | @queued d request future =>
    refine iff_of_true (by simp) ?_
    rintro ⟨d', hd', hlt⟩
    obtain rfl := Option.some.inj (request.symm.trans hd')
    exact BitVec.lt_irrefl _ (BitVec.lt_trans hlt future)
  | unknown kind => exact iff_of_true (by simp) (hlate (by simp [deadline, kind]))

/-- The client functions return what the reply carries. -/
theorem returnsTime_iff : ReturnsTime p e ↔ TellsTime p e := by
  constructor
  · intro h r hr
    have htime := (h r hr (fun _ => (8, r.2)) fun _ => ⟨(by decide : (0 : ℤ) ≤ 8), rfl⟩).1 0
    exact BitVec.toInt_inj.mp htime
  · intro h r hr send hsend
    have hvalue : ∀ m, clockSend send m = (nowAfter (p ++ [e])).toInt := by
      intro m
      rw [clockSend_eq (hsend m).1, (hsend m).2, h r hr]
    refine ⟨fun t => hvalue _, fun t ht => ⟨?_, ?_⟩⟩
    · exact (if_neg (not_lt.mpr ht)).trans (hvalue _)
    · exact (if_neg (not_lt.mpr ht)).trans (hvalue _)

/-- **Every clock reply tells the current time** unless the request comes after its deadline.
After any messages `ticks` counts the ticks received, and the replies made while one more message
is handled all carry it, and are returned as it, just when that message is no such request; two of
them made at the same tick carry the same. -/
theorem clock_replies_current_iff (msg₀ : ClockServerMsg) (h : List ClockExchange)
    (s : ClockServer) (run : Serves clockServer (clockServerInit msg₀) h s) :
    s.ticks = nowAfter h ∧
    (∀ p e q, h = p ++ e :: q →
      (TellsTime p e ↔ ¬ Late p e) ∧ (ReturnsTime p e ↔ ¬ Late p e)) ∧
    ∀ p e q p' e' q', h = p ++ e :: q → h = p' ++ e' :: q' → ¬ Late p e → ¬ Late p' e' →
      nowAfter (p ++ [e]) = nowAfter (p' ++ [e']) →
      ∀ r ∈ clockAnswers e, ∀ r' ∈ clockAnswers e', r.2.ticks = r'.2.ticks := by
  have htells : ∀ p e q, h = p ++ e :: q → (TellsTime p e ↔ ¬ Late p e) := fun p e q hh =>
    (ClockServer.replies run hh).tellsTime_iff
  refine ⟨ticks_eq_nowAfter run, fun p e q hh => ⟨htells p e q hh, ?_⟩, ?_⟩
  · rw [returnsTime_iff]
    exact htells p e q hh
  · intro p e q p' e' q' hh hh' hnot hnot' hsame r hr r' hr'
    calc r.2.ticks = nowAfter (p ++ [e]) := (htells p e q hh).mpr hnot r hr
      _ = nowAfter (p' ++ [e']) := hsame
      _ = r'.2.ticks := ((htells p' e' q' hh').mpr hnot' r' hr').symm

/-- Client 7 waits for two ticks, and is told the time when it is woken. -/
theorem clock_replies_current_run :
    ∃ s, Serves clockServer (clockServerInit ⟨0, 0⟩) delayExample s ∧ s.ticks = 2 ∧
      TellsTime (delayExample.take 3) ⟨3, ⟨0, 0⟩, [(3, ⟨0, 0⟩), (7, ⟨0, 2⟩)]⟩ := by
  have hrun : returns (serve clockServer (clockServerInit ⟨0, 0⟩)
      [(7, ⟨2, 2⟩), (8, ⟨3, 1⟩), (3, ⟨0, 0⟩), (3, ⟨0, 0⟩)])
      (fun r => decide (r.1 = delayExample)) = true := by decide +kernel
  obtain ⟨⟨h, s⟩, hserve, hh⟩ := returns_iff.mp hrun
  obtain rfl : h = delayExample := of_decide_eq_true hh
  have run := serves_of_serve hserve
  obtain ⟨hticks, htells, -⟩ := clock_replies_current_iff ⟨0, 0⟩ delayExample s run
  refine ⟨s, run, by rw [hticks]; decide, (htells _ _ [] rfl).1.mpr ?_⟩
  rintro ⟨d, hd, -⟩
  have hnone : deadline (nowAfter (delayExample.take 3)) ⟨0, 0⟩ = none := by decide
  rw [hnone] at hd
  cases hd

/-- After one tick client 7 asks to be woken at 0, and is told that it is 0. -/
theorem clock_replies_stale :
    ∃ s, Serves clockServer (clockServerInit ⟨0, 0⟩)
        [⟨3, ⟨0, 0⟩, [(3, ⟨0, 0⟩)]⟩, ⟨7, ⟨3, 0⟩, [(7, ⟨3, 0⟩)]⟩] s ∧ s.ticks = 1 ∧
      ¬ TellsTime [⟨3, ⟨0, 0⟩, [(3, ⟨0, 0⟩)]⟩] ⟨7, ⟨3, 0⟩, [(7, ⟨3, 0⟩)]⟩ ∧
      ¬ ReturnsTime [⟨3, ⟨0, 0⟩, [(3, ⟨0, 0⟩)]⟩] ⟨7, ⟨3, 0⟩, [(7, ⟨3, 0⟩)]⟩ := by
  have hrun : returns (serve clockServer (clockServerInit ⟨0, 0⟩) [(3, ⟨0, 0⟩), (7, ⟨3, 0⟩)])
      (fun r => decide (r.1 = [⟨3, ⟨0, 0⟩, [(3, ⟨0, 0⟩)]⟩, ⟨7, ⟨3, 0⟩, [(7, ⟨3, 0⟩)]⟩] ∧
        r.2.ticks = 1)) = true := by decide +kernel
  obtain ⟨⟨h, s⟩, hserve, hh⟩ := returns_iff.mp hrun
  obtain ⟨hh, hticks⟩ := of_decide_eq_true hh
  rw [show h = _ from hh] at hserve
  have hstale : ¬ TellsTime [⟨3, ⟨0, 0⟩, [(3, ⟨0, 0⟩)]⟩] ⟨7, ⟨3, 0⟩, [(7, ⟨3, 0⟩)]⟩ := by
    unfold TellsTime
    decide
  exact ⟨s, serves_of_serve hserve, hticks, hstale, fun hret => hstale (returnsTime_iff.mp hret)⟩

end RealtimeKernel
