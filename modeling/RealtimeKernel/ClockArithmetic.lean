import RealtimeKernel.CurrentTime

/-!
# The range of the clock

The server counts ticks and computes deadlines in 32-bit words, and the client functions return
them as an `i32` whose negative values are errors.  A deadline is the sum of the tick count and the
delay just when that sum fits into a word; otherwise it lies in the past, and the client is answered
at once.  A tick count from `2 ^ 31` on is returned as a negative number.
-/

namespace RealtimeKernel

open Lib

variable {s : ClockServer} {a : TickClock} {h p q : List ClockExchange} {e f : ClockExchange}
  {c : ℤ} {r msg₀ : ClockServerMsg} {d now : U32}

/-! ### 32-bit words -/

/-- A word is returned as a number that is not negative just in the lower half of its range. -/
theorem toInt_nonneg_iff (x : U32) : 0 ≤ x.toInt ↔ x.toNat < 2 ^ 31 := by
  rw [BitVec.toInt_eq_toNat_cond]
  have := x.isLt
  split <;> omega

theorem toNat_add_eq_iff (x y : U32) :
    (x + y).toNat = y.toNat + x.toNat ↔ y.toNat + x.toNat < 2 ^ 32 := by
  rw [BitVec.toNat_add]
  constructor
  · intro heq
    rw [← heq]
    exact Nat.mod_lt _ (by decide)
  · intro hlt
    rw [Nat.mod_eq_of_lt (by omega), Nat.add_comm]

/-- A sum that does not fit is below both summands. -/
theorem add_lt_of_wrap {x y : U32} (h : ¬ y.toNat + x.toNat < 2 ^ 32) : x + y < y := by
  rw [BitVec.lt_def, BitVec.toNat_add]
  have := x.isLt
  have := y.isLt
  omega

theorem toNat_ofInt_nonneg {t : ℤ} (h₀ : 0 ≤ t) (h₁ : t < 2 ^ 31) :
    ((BitVec.ofInt 32 t).toNat : ℤ) = t := by
  rw [BitVec.toNat_ofInt]
  omega

/-! ### The requests in the delay queue -/

/-- The requests that the delay queue holds, in its order. -/
def delayEntries (s : ClockServer) : List (ℤ × U32) :=
  (follow (nodeNext s.memoryPool) memoryPoolChunks s.delayQueue.front).map
    (nodeEntry s.memoryPool)

theorem ClockServer.Rep.delayEntries_eq (hr : s.Rep a) : delayEntries s = a.queue := by
  obtain ⟨-, nodes, hl, ha, hq⟩ := hr
  have hlen : nodes.length ≤ memoryPoolChunks := by
    have := ha.total
    omega
  unfold delayEntries
  rw [hl.seg.follow_eq hlen, hq]

/-- What holds when the server handles a message of a run. -/
theorem ClockServer.before (run : Serves clockServer (clockServerInit msg₀) h s)
    (hl : Stepwise Manageable h) (hh : h = p ++ f :: q) :
    Answered p f ∧ Manageable p f ∧ ∃ a, OnSchedule p a := by
  obtain ⟨-, -, -, hans⟩ := ClockServer.onSchedule run hl
  obtain ⟨s₁, -, run₁, -⟩ := run.split hh
  obtain ⟨a, -, ha, -⟩ := ClockServer.onSchedule run₁ (Stepwise.left (hh ▸ hl))
  exact ⟨(hans p f q hh).1, hl p f q hh, a, ha⟩

/-- A request stays with the server until its client is answered. -/
theorem OnSchedule.asked_kept (ha : OnSchedule p a) (hans : Answered p f) (hd : (c, d) ∈ asked p)
    (hno : c ∉ f.replies.map Prod.fst) : (c, d) ∈ asked (p ++ [f]) := by
  have hlt := ha.future _ hd
  rw [asked_snoc, ask]
  by_cases ht : isTick f
  · have hne : d ≠ nowAfter p + 1 := by
      intro hdue
      apply hno
      rw [hans.tick ht, List.map_cons, List.map_map]
      apply List.mem_cons_of_mem
      exact List.mem_map.mpr ⟨(c, d), List.mem_filter.mpr ⟨hd, decide_eq_true hdue⟩, rfl⟩
    rw [if_pos ht]
    refine List.mem_filter.mpr ⟨hd, decide_eq_true ?_⟩
    bv_omega
  · rw [if_neg ht]
    split
    · split
      · exact List.mem_append_left _ hd
      · exact hd
    · exact hd

theorem ClockServer.asked_through (run : Serves clockServer (clockServerInit msg₀) h s)
    (hl : Stepwise Manageable h) {q₁ q₂ : List ClockExchange} (hh : h = p ++ q₁ ++ q₂)
    (hd : (c, d) ∈ asked p) (hno : ∀ g ∈ q₁, c ∉ g.replies.map Prod.fst) :
    (c, d) ∈ asked (p ++ q₁) := by
  induction q₁ using List.reverseRecOn generalizing q₂ with
  | nil => simpa using hd
  | append_singleton q₁ g ih =>
    have hh' : h = p ++ q₁ ++ g :: q₂ := by simp [hh]
    have hin := ih hh' fun f hf => hno f (List.mem_append_left _ hf)
    obtain ⟨hans, -, a, ha⟩ := ClockServer.before run hl hh'
    rw [← List.append_assoc]
    exact ha.asked_kept hans hin (hno g (by simp))

/-! ### The first reply to a request -/

/-- The first reply to `c` in these exchanges is `r`. -/
def FirstReply (c : ℤ) (l : List ClockExchange) (r : ClockServerMsg) : Prop :=
  ∃ q₁ f q₂, l = q₁ ++ f :: q₂ ∧ (∀ g ∈ q₁, c ∉ g.replies.map Prod.fst) ∧ (c, r) ∈ f.replies

/-- A request that is answered at once. -/
theorem FirstReply.at_once {r' : ClockServerMsg} (hr : FirstReply c (e :: q) r)
    (he : e.replies = [(c, r')]) : r = r' := by
  obtain ⟨q₁, f, q₂, hq, hno, hf⟩ := hr
  cases q₁ with
  | nil =>
    obtain rfl := (List.cons.inj hq).1
    rw [he, List.mem_singleton] at hf
    exact congrArg Prod.snd hf
  | cons g q₁ =>
    obtain rfl := (List.cons.inj hq).1
    exact absurd (by simp [he]) (hno e (by simp))

/-- **The reply to a request carries its deadline**, now or when it is woken. -/
theorem ClockServer.firstReply (run : Serves clockServer (clockServerInit msg₀) h s)
    (hl : Stepwise Manageable h) (hh : h = p ++ e :: q)
    (hd : deadline (nowAfter p) e.message = some d) (hr : FirstReply e.sender (e :: q) r) :
    r.ticks = d := by
  obtain ⟨hans, hman, a, ha⟩ := ClockServer.before run hl hh
  by_cases hle : d ≤ nowAfter p
  · rw [hr.at_once (hans.due d hd hle)]
  · have hlt := BitVec.not_le.mp hle
    have hnil := hans.future d hd hlt
    obtain ⟨q₁, f, q₂, hq, hno, hf⟩ := hr
    cases q₁ with
    | nil =>
      obtain rfl := (List.cons.inj hq).1
      rw [hnil] at hf
      cases hf
    | cons g q₁ =>
      obtain ⟨rfl, rfl⟩ := List.cons.inj hq
      have hasked : (e.sender, d) ∈ asked (p ++ [e]) := by
        rw [asked_snoc, ask, if_neg (by simp [deadline_not_tick hd]), hd]
        simp [hlt]
      have hh₁ : h = p ++ [e] ++ q₁ ++ f :: q₂ := by simp [hh]
      have hin := ClockServer.asked_through run hl hh₁ hasked fun g hg =>
        hno g (List.mem_cons_of_mem _ hg)
      obtain ⟨hans', hman', a', ha'⟩ := ClockServer.before run hl hh₁
      have hne : f.sender ≠ e.sender := by
        intro heq
        have hpat := hman'.patient
        rw [Patient, ha'.waits, List.mem_toFinset, heq] at hpat
        exact hpat (mem_map_fst.mpr ⟨d, hin⟩)
      rcases hman'.cases with ht | hk | ⟨d', hd'⟩
      · -- the client is woken by a tick, with the deadline it asked for
        rw [hans'.tick ht] at hf
        rcases List.mem_cons.mp hf with heq | hf
        · exact absurd (congrArg Prod.fst heq).symm hne
        · obtain ⟨⟨c', d'⟩, hmem, heq⟩ := List.mem_map.mp hf
          obtain ⟨hmem, hdue⟩ := List.mem_filter.mp hmem
          obtain ⟨rfl, rfl⟩ := Prod.mk.inj heq
          have hdd : d = d' := ha'.deadline_unique hin hmem
          rw [hdd]
          exact (of_decide_eq_true hdue).symm
      · rw [hans'.time hk, List.mem_singleton] at hf
        exact absurd (congrArg Prod.fst hf).symm hne
      · by_cases hle' : d' ≤ nowAfter (p ++ [e] ++ q₁)
        · rw [hans'.due d' hd' hle', List.mem_singleton] at hf
          exact absurd (congrArg Prod.fst hf).symm hne
        · rw [hans'.future d' hd' (BitVec.not_le.mp hle')] at hf
          cases hf

/-! ### Delays -/

/-- The client is not answered before `t` further ticks. -/
def NotBefore (c : ℤ) (l : List ClockExchange) (t : ℤ) : Prop :=
  ∀ q₁ f q₂, l = q₁ ++ f :: q₂ → (ticksOf (q₁ ++ [f]) : ℤ) < t → c ∉ f.replies.map Prod.fst

/-- The deadline `d` that the server computes for the request: compared with the tick count, and
stored unless it has come. -/
structure Deadlined (msg₀ : ClockServerMsg) (p : List ClockExchange) (e : ClockExchange) (d : U32) :
    Prop where
  computed : deadline (nowAfter p) e.message = some d
  compared : d ≤ nowAfter p → e.replies = [(e.sender, { e.message with ticks := d })]
  stored : nowAfter p < d → e.replies = [] ∧
    ∀ s', Serves clockServer (clockServerInit msg₀) (p ++ [e]) s' → (e.sender, d) ∈ delayEntries s'

theorem ClockServer.deadlined (run : Serves clockServer (clockServerInit msg₀) h s)
    (hl : Stepwise Manageable h) (hh : h = p ++ e :: q)
    (hd : deadline (nowAfter p) e.message = some d) : Deadlined msg₀ p e d := by
  obtain ⟨hans, hman, a, ha⟩ := ClockServer.before run hl hh
  refine ⟨hd, hans.due d hd, fun hlt => ⟨hans.future d hd hlt, fun s' run' => ?_⟩⟩
  have hh' : h = (p ++ [e]) ++ q := by simp [hh]
  have hl' : Stepwise Manageable (p ++ [e]) := Stepwise.left (hh' ▸ hl)
  obtain ⟨a', hrep', ha', -⟩ := ClockServer.onSchedule run' hl'
  rw [hrep'.delayEntries_eq, ha'.perm.mem_iff, asked_snoc, ask,
    if_neg (by simp [deadline_not_tick hd]), hd]
  simp [hlt]

/-- The server waits for the ticks of a delay just when the deadline does not wrap around. -/
theorem ClockServer.notBefore_iff (run : Serves clockServer (clockServerInit msg₀) h s)
    (hl : Stepwise Manageable h) (hh : h = p ++ e :: q) (hk : e.message.kind = some .delay)
    (hpos : 0 < e.message.ticks.toNat) :
    NotBefore e.sender (e :: q) e.message.ticks.toNat ↔
      (nowAfter p).toNat + e.message.ticks.toNat < 2 ^ 32 := by
  have hd : deadline (nowAfter p) e.message = some (e.message.ticks + nowAfter p) := by
    rw [deadline, hk]
  have ht := deadline_not_tick hd
  constructor
  · intro hnot
    by_contra hwrap
    have hlt := add_lt_of_wrap hwrap
    have hdue := (ClockServer.before run hl hh).1.due _ hd (BitVec.le_of_lt hlt)
    have hzero : ticksOf ([] ++ [e]) = 0 := by simp [ticksOf, ht]
    refine hnot [] e q rfl ?_ (by simp [hdue])
    rw [hzero]
    exact_mod_cast hpos
  · intro hfit
    have hsum := (toNat_add_eq_iff _ _).mpr hfit
    have hlt : nowAfter p < e.message.ticks + nowAfter p := by
      rw [BitVec.lt_def, hsum]
      omega
    obtain ⟨hentered, hbefore, -⟩ := ClockServer.wokenOnTime run hl hh hd hlt
    intro q₁ f q₂ hq hticks
    cases q₁ with
    | nil =>
      obtain rfl := (List.cons.inj hq).1
      simp [hentered]
    | cons g q₁ =>
      obtain ⟨rfl, hq'⟩ := List.cons.inj hq
      refine hbefore q₁ f q₂ hq' ?_
      have hcons : ticksOf (e :: q₁ ++ [f]) = ticksOf (q₁ ++ [f]) := by
        simp [ticksOf, ht]
      rw [hcons] at hticks
      rw [hsum]
      omega

/-! ### The client functions -/

/-- `Send` succeeds and leaves the reply in the buffer. -/
def Delivers (send : ClockSend) (r : ClockServerMsg) : Prop := ∀ m, 0 ≤ (send m).1 ∧ (send m).2 = r

theorem Delivers.clockSend_eq {send : ClockSend} {m : ClockServerMsg} (hs : Delivers send r) :
    clockSend send m = r.ticks.toInt := by
  rw [RealtimeKernel.clockSend_eq (hs m).1, (hs m).2]

theorem Delivers.time_eq {send : ClockSend} (hs : Delivers send r) (t : U32) :
    time send t = r.ticks.toInt := hs.clockSend_eq

theorem Delivers.delay_eq {send : ClockSend} (hs : Delivers send r) {t : ℤ} (ht : 0 ≤ t) :
    delay send t = r.ticks.toInt := (if_neg (not_lt.mpr ht)).trans hs.clockSend_eq

theorem Delivers.delayUntil_eq {send : ClockSend} (hs : Delivers send r) {t : ℤ} (ht : 0 ≤ t) :
    delayUntil send t = r.ticks.toInt := (if_neg (not_lt.mpr ht)).trans hs.clockSend_eq

/-- **When clock arithmetic does not wrap.**  For every message of every run that the server can
rely on: the deadline of `Delay(t)` is the tick count plus `t`, and for `0 < t` the client is not
answered before `t` further ticks, just when that sum fits into 32 bits.  What `Delay` and `Time`
return is not negative just when the sum, modulo `2 ^ 32`, and the tick count are below `2 ^ 31`;
`DelayUntil` never returns a negative value. -/
theorem clock_arithmetic_iff (msg₀ : ClockServerMsg) (h : List ClockExchange) (s : ClockServer)
    (run : Serves clockServer (clockServerInit msg₀) h s) (hl : Stepwise Manageable h) :
    ∀ p e q, h = p ++ e :: q →
      (∀ t : ℤ, 0 ≤ t → t < 2 ^ 31 → e.message = ⟨2, BitVec.ofInt 32 t⟩ →
        (∃ d, Deadlined msg₀ p e d ∧
          ((d.toNat : ℤ) = (nowAfter p).toNat + t ↔ (nowAfter p).toNat + t < 2 ^ 32)) ∧
        (0 < t → (NotBefore e.sender (e :: q) t ↔ (nowAfter p).toNat + t < 2 ^ 32)) ∧
        ∀ send r, Delivers send r → FirstReply e.sender (e :: q) r →
          (0 ≤ delay send t ↔ ((nowAfter p).toNat + t) % 2 ^ 32 < 2 ^ 31)) ∧
      (e.message.action = 1 → ∀ send r u, Delivers send r → FirstReply e.sender (e :: q) r →
        (0 ≤ time send u ↔ (nowAfter p).toNat < 2 ^ 31)) ∧
      (∀ t : ℤ, 0 ≤ t → t < 2 ^ 31 → e.message = ⟨3, BitVec.ofInt 32 t⟩ →
        ∀ send r, Delivers send r → FirstReply e.sender (e :: q) r → 0 ≤ delayUntil send t) := by
  intro p e q hh
  refine ⟨fun t ht₀ ht₁ hm => ?_, fun hm send r u hsend hr => ?_,
    fun t ht₀ ht₁ hm send r hsend hr => ?_⟩
  · have hk : e.message.kind = some .delay := by
      rw [hm]
      rfl
    have ht : (e.message.ticks.toNat : ℤ) = t := by
      rw [hm]
      exact toNat_ofInt_nonneg ht₀ ht₁
    have hd : deadline (nowAfter p) e.message = some (e.message.ticks + nowAfter p) := by
      rw [deadline, hk]
    refine ⟨⟨_, ClockServer.deadlined run hl hh hd, ?_⟩, fun hpos => ?_, fun send r hsend hr => ?_⟩
    · rw [← ht]
      exact_mod_cast toNat_add_eq_iff e.message.ticks (nowAfter p)
    · have hiff := ClockServer.notBefore_iff run hl hh hk (by omega)
      rw [ht] at hiff
      rw [hiff, ← ht]
      exact_mod_cast Iff.rfl
    · rw [hsend.delay_eq ht₀, ClockServer.firstReply run hl hh hd hr, toInt_nonneg_iff,
        BitVec.toNat_add, ← ht]
      omega
  · have hk : e.message.kind = some .time := by
      unfold ClockServerMsg.kind
      rw [hm]
      rfl
    have hans := (ClockServer.before run hl hh).1.time hk
    rw [hsend.time_eq, hr.at_once hans, toInt_nonneg_iff]
  · have hk : e.message.kind = some .delayUntil := by
      rw [hm]
      rfl
    have hd : deadline (nowAfter p) e.message = some e.message.ticks := by rw [deadline, hk]
    have ht : (e.message.ticks.toNat : ℤ) = t := by
      rw [hm]
      exact toNat_ofInt_nonneg ht₀ ht₁
    rw [hsend.delayUntil_eq ht₀, ClockServer.firstReply run hl hh hd hr, toInt_nonneg_iff]
    omega

/-- Client 7 asks for two ticks and is not answered before. -/
theorem clock_arithmetic_run :
    ∃ s, Serves clockServer (clockServerInit ⟨0, 0⟩) delayExample s ∧
      NotBefore 7 delayExample 2 := by
  have hrun : returns (serve clockServer (clockServerInit ⟨0, 0⟩)
      [(7, ⟨2, 2⟩), (8, ⟨3, 1⟩), (3, ⟨0, 0⟩), (3, ⟨0, 0⟩)])
      (fun r => decide (r.1 = delayExample)) = true := by decide +kernel
  obtain ⟨⟨h, s⟩, hserve, hh⟩ := returns_iff.mp hrun
  obtain rfl : h = delayExample := of_decide_eq_true hh
  have run := serves_of_serve hserve
  have hm : Stepwise Manageable delayExample := delayExample_legal.mono fun _ _ => Legal.manageable
  have hiff := (clock_arithmetic_iff ⟨0, 0⟩ delayExample s run hm [] ⟨7, ⟨2, 2⟩, []⟩
    (delayExample.drop 1) rfl).1 2 (by decide) (by decide) (by decide)
  exact ⟨s, run, (hiff.2.1 (by decide)).mpr (by decide)⟩

/-! ### A wrapped deadline -/

/-- A tick of the notifier, client 3. -/
def tickExchange : ClockExchange := ⟨3, ⟨0, 0⟩, [(3, ⟨0, 0⟩)]⟩

/-- The server can receive any number of ticks. -/
theorem serves_ticks (n : ℕ) : ∃ s, Serves clockServer (clockServerInit ⟨0, 0⟩)
    (List.replicate n tickExchange) s ∧ s.ticks = BitVec.ofNat 32 n ∧
    s.delayQueue.front = none := by
  have hrun : ∃ s, Serves clockServer (clockServerInit ⟨0, 0⟩)
      (List.replicate n tickExchange) s ∧ s.delayQueue.front = none := by
    induction n with
    | zero => exact ⟨_, .nil, rfl⟩
    | succ n ih =>
      obtain ⟨s, run, hfront⟩ := ih
      have hok : ∃ s', clockServer s 3 ⟨0, 0⟩ = .ok (s', [(3, ⟨0, 0⟩)]) ∧
          s'.delayQueue.front = none := by
        refine ⟨⟨s.memoryPool, s.delayQueue, s.ticks + 1, ⟨0, s.ticks + 1⟩⟩, ?_, hfront⟩
        show (clockServerWake (s.ticks + 1) ⟨0, s.ticks + 1⟩ memoryPoolChunks
          s.delayQueue.front s.memoryPool s.delayQueue >>= _) = _
        rw [hfront]
        rfl
      obtain ⟨s', hs', hfront'⟩ := hok
      refine ⟨s', ?_, hfront'⟩
      rw [List.replicate_succ']
      exact run.snoc hs'
  obtain ⟨s, run, hfront⟩ := hrun
  refine ⟨s, run, ?_, hfront⟩
  have hticks : ticksOf (List.replicate n tickExchange) = n := by
    have htick : isTick tickExchange = true := by decide
    unfold ticksOf
    rw [List.countP_replicate, if_pos htick]
  rw [ticks_eq_nowAfter run, nowAfter, hticks]

/-- A deadline that has come is the answer. -/
theorem clockServer_delay_due (s : ClockServer) (c : ℤ) {d : U32} (hle : d + s.ticks ≤ s.ticks) :
    clockServer s c ⟨2, d⟩ =
      .ok ({ s with msg := ⟨2, d + s.ticks⟩ }, [(c, ⟨2, d + s.ticks⟩)]) := if_pos hle

/-- What client 7 is told after `2 ^ 31 + 1` ticks when it asks to wait for `2 ^ 31 - 1` ticks,
and then for the time. -/
def wrapExample : List ClockExchange :=
  [⟨7, ⟨2, 0x7fffffff⟩, [(7, ⟨2, 0⟩)]⟩, ⟨7, ⟨1, 0⟩, [(7, ⟨1, 0x80000001⟩)]⟩]

/-- The deadline wraps to 0: the client is answered at once, and told that the time is negative. -/
theorem clock_arithmetic_wraps :
    (∃ s, Serves clockServer (clockServerInit ⟨0, 0⟩)
      (List.replicate (2 ^ 31 + 1) tickExchange ++ wrapExample) s) ∧
    ¬ NotBefore 7 wrapExample (2 ^ 31 - 1) ∧
    time (fun _ => (8, ⟨1, 0x80000001⟩)) 0 < 0 := by
  refine ⟨?_, fun hnot => ?_, by decide⟩
  · obtain ⟨s, run, hticks, -⟩ := serves_ticks (2 ^ 31 + 1)
    have hnow : s.ticks = 0x80000001 := by
      rw [hticks]
      rfl
    have hdelay := clockServer_delay_due s 7 (d := 0x7fffffff) (by rw [hnow]; decide)
    have hsum : 0x7fffffff + s.ticks = 0 := by
      rw [hnow]
      rfl
    rw [hsum] at hdelay
    have htime : clockServer { s with msg := ⟨2, 0⟩ } 7 ⟨1, 0⟩ =
        .ok ({ s with msg := ⟨1, s.ticks⟩ }, [(7, ⟨1, s.ticks⟩)]) := rfl
    have run' := (run.snoc hdelay).snoc htime
    rw [List.append_assoc] at run'
    have hreply : (⟨1, s.ticks⟩ : ClockServerMsg) = ⟨1, 0x80000001⟩ := by rw [hnow]
    rw [hreply] at run'
    exact ⟨_, run'⟩
  · exact hnot [] ⟨7, ⟨2, 0x7fffffff⟩, [(7, ⟨2, 0⟩)]⟩ _ rfl (by decide) (by decide)

end RealtimeKernel
