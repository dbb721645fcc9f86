import RealtimeKernel.ClockUsers

/-!
# `k3_user_tasks.c`: clients that delay themselves

A client prints a line and delays itself, as often as its `num` says.  Its delays never begin before
the server receives them and end exactly `delay` ticks later, so the ticks that a client has waited
for are `delay` for each delay that has ended, and those since the last one began.
-/

namespace RealtimeKernel

open Lib

/-- The ticks that were received while the client waited. -/
def waitedTicks (h : List ClockExchange) (c : ℤ) : ℕ :=
  (h.foldl (fun b e => (insert e.sender b.1 \ (e.replies.map Prod.fst).toFinset,
    if isTick e ∧ c ∈ b.1 then b.2 + 1 else b.2)) ((∅ : Finset ℤ), 0)).2

section Accounts

variable {h : List ClockExchange} {e : ClockExchange} {c : ℤ} {ticks : U32} {s : ClockServer}
  {msg₀ : ClockServerMsg} {a : TickClock}

theorem waitedTicks_snoc : waitedTicks (h ++ [e]) c =
    waitedTicks h c + if isTick e ∧ c ∈ waiting h then 1 else 0 := by
  have hwaiting : ∀ l : List ClockExchange,
      (l.foldl (fun b e => (insert e.sender b.1 \ (e.replies.map Prod.fst).toFinset,
        if isTick e ∧ c ∈ b.1 then b.2 + 1 else b.2)) ((∅ : Finset ℤ), 0)).1 = waiting l := by
    intro l
    induction l using List.reverseRecOn with
    | nil => rfl
    | append_singleton l f ih => rw [List.foldl_append, waiting_snoc, ← ih]; rfl
  unfold waitedTicks
  rw [List.foldl_append]
  show (if isTick e ∧ c ∈ _ then _ else _) = _
  rw [hwaiting]
  split <;> rfl

/-- Only a tick is answered to others than its sender. -/
theorem Answered.to_sender (hans : Answered h e) (hl : Manageable h e) (ht : isTick e = false)
    (hc : c ∈ e.replies.map Prod.fst) : c = e.sender := by
  rcases hl.cases with htick | hk | ⟨d, hd⟩
  · rw [ht] at htick
    cases htick
  · rw [hans.time hk] at hc
    exact List.mem_singleton.mp hc
  · by_cases hle : d ≤ nowAfter h
    · rw [hans.due d hd hle] at hc
      exact List.mem_singleton.mp hc
    · rw [hans.future d hd (BitVec.not_le.mp hle)] at hc
      exact absurd hc List.not_mem_nil

/-- What a client has waited that has only sent delays of `ticks`. -/
structure Waited (h : List ClockExchange) (c : ℤ) (ticks : U32) : Prop where
  running : ∀ d, (c, d) ∈ asked h →
    waitedTicks h c + d.toNat = ticks.toNat * (answers h c + 1) + (nowAfter h).toNat
  idle : c ∉ waiting h → waitedTicks h c = ticks.toNat * answers h c

/-- A client that neither sends a message nor is answered. -/
theorem Waited.other (hw : Waited h c ticks)
    (hreply : c ∉ e.replies.map Prod.fst) (ht : isTick e = false)
    (hasked : ∀ d, (c, d) ∈ asked (h ++ [e]) → (c, d) ∈ asked h) : Waited (h ++ [e]) c ticks := by
  have hanswers : answers (h ++ [e]) c = answers h c := by
    rw [answers_snoc, List.count_eq_zero_of_not_mem hreply, Nat.add_zero]
  have hticks : waitedTicks (h ++ [e]) c = waitedTicks h c := by
    rw [waitedTicks_snoc, ht]
    simp
  have hnow : nowAfter (h ++ [e]) = nowAfter h := by rw [nowAfter_snoc, ht]; rfl
  constructor
  · intro d hd
    rw [hanswers, hticks, hnow]
    exact hw.running d (hasked d hd)
  · intro hidle
    rw [hanswers, hticks]
    apply hw.idle
    rw [mem_waiting_snoc] at hidle
    tauto

/-- A tick. -/
theorem Waited.tick (hw : Waited h c ticks) (ha : OnSchedule h a) (hans : Answered h e)
    (hfair : Fair h e) (ht : isTick e = true) (hsend : e.sender ≠ c) :
    Waited (h ++ [e]) c ticks := by
  have hasked : asked (h ++ [e]) = (asked h).filter fun r => decide (nowAfter h + 1 < r.2) := by
    rw [asked_snoc, ask, if_pos ht]
  have hnow : nowAfter (h ++ [e]) = nowAfter h + 1 := by rw [nowAfter_snoc, if_pos ht]
  have hreply : c ∈ e.replies.map Prod.fst ↔ (c, nowAfter h + 1) ∈ asked h := by
    have hfst : e.replies.map Prod.fst = e.sender ::
        ((asked h).filter fun r => decide (r.2 = nowAfter h + 1)).map Prod.fst := by
      rw [hans.tick ht, List.map_cons, List.map_map]
      rfl
    rw [hfst, List.mem_cons, mem_map_fst]
    simp only [List.mem_filter, decide_eq_true_eq]
    constructor
    · rintro (hc | ⟨d, hd, rfl⟩)
      · exact absurd hc.symm hsend
      · exact hd
    · exact fun hd => .inr ⟨_, hd, rfl⟩
  have hanswers : answers (h ++ [e]) c =
      answers h c + if (c, nowAfter h + 1) ∈ asked h then 1 else 0 := by
    rw [answers_snoc]
    congr 1
    split
    · rename_i hd
      exact List.count_eq_one_of_mem hfair.nodup (hreply.mpr hd)
    · rename_i hd
      exact List.count_eq_zero_of_not_mem fun hc => hd (hreply.mp hc)
  have hwaits : c ∈ waiting h ↔ ∃ d, (c, d) ∈ asked h := by
    rw [ha.waits, List.mem_toFinset, mem_map_fst]
  have hticks : waitedTicks (h ++ [e]) c = waitedTicks h c + if c ∈ waiting h then 1 else 0 := by
    rw [waitedTicks_snoc]
    simp [ht]
  constructor
  · intro d hd
    rw [hasked, List.mem_filter, decide_eq_true_eq] at hd
    obtain ⟨hd, hlt⟩ := hd
    have hnot : (c, nowAfter h + 1) ∉ asked h := by
      intro hd'
      rw [ha.deadline_unique hd hd'] at hlt
      exact absurd hlt (BitVec.lt_irrefl _)
    have hrun := hw.running d hd
    have hfuture := ha.future _ hd
    rw [hanswers, if_neg hnot, Nat.add_zero, hticks, if_pos (hwaits.mpr ⟨d, hd⟩), hnow]
    have hsucc : (nowAfter h + 1).toNat = (nowAfter h).toNat + 1 := by bv_omega
    omega
  · intro hidle
    by_cases hd : (c, nowAfter h + 1) ∈ asked h
    · -- the delay ends
      have hrun := hw.running _ hd
      have hfuture := ha.future _ hd
      have hsucc : (nowAfter h + 1).toNat = (nowAfter h).toNat + 1 := by bv_omega
      rw [hanswers, if_pos hd, hticks, if_pos (hwaits.mpr ⟨_, hd⟩)]
      omega
    · have hidle' : c ∉ waiting h := by
        rw [mem_waiting_snoc, hreply] at hidle
        tauto
      rw [hanswers, if_neg hd, hticks, if_neg hidle']
      exact hw.idle hidle'

/-- The client asks for a delay. -/
theorem Waited.delay (hw : Waited h c ticks) (ha : OnSchedule h a) (hl : Legal h e)
    (hans : Answered h e) (hsend : e.sender = c) (hmsg : e.message = ⟨2, ticks⟩) :
    Waited (h ++ [e]) c ticks := by
  have hkind : e.message.kind = some .delay := by rw [hmsg]; rfl
  have ht : isTick e = false := decide_eq_false (by rw [hkind]; decide)
  have hidle : c ∉ waiting h := hsend ▸ hl.patient
  have hnot : ∀ d, (c, d) ∉ asked h := by
    intro d hd
    rw [ha.waits, List.mem_toFinset, mem_map_fst] at hidle
    exact hidle ⟨d, hd⟩
  have hdeadline : deadline (nowAfter h) e.message = some (ticks + nowAfter h) := by
    rw [deadline, hkind, hmsg]
  have hticks : waitedTicks (h ++ [e]) c = waitedTicks h c := by
    rw [waitedTicks_snoc, ht]
    simp
  have hnow : nowAfter (h ++ [e]) = nowAfter h := by rw [nowAfter_snoc, ht]; rfl
  have hask : asked (h ++ [e]) = if nowAfter h < ticks + nowAfter h then
      asked h ++ [(c, ticks + nowAfter h)] else asked h := by
    rw [asked_snoc, ask, if_neg (by rw [ht]; decide), hdeadline, hsend]
  have hsum : (ticks + nowAfter h).toNat = ticks.toNat + (nowAfter h).toNat := by
    have hsmall := hl.small hkind
    rw [hmsg] at hsmall
    dsimp only at hsmall
    rw [BitVec.toNat_add, Nat.mod_eq_of_lt (by omega)]
  have hbefore := hw.idle hidle
  by_cases hlt : nowAfter h < ticks + nowAfter h
  · have hnone : e.replies = [] := hans.future _ hdeadline hlt
    have hanswers : answers (h ++ [e]) c = answers h c := by
      rw [answers_snoc, hnone]
      rfl
    constructor
    · intro d hd
      rw [hask, if_pos hlt, List.mem_append, List.mem_singleton] at hd
      obtain rfl := (Prod.mk.inj (hd.resolve_left (hnot d))).2
      rw [hanswers, hticks, hnow, hbefore, hsum, Nat.mul_add]
      omega
    · intro hidle'
      rw [mem_waiting_snoc, hnone] at hidle'
      exact absurd ⟨.inl hsend.symm, List.not_mem_nil⟩ hidle'
  · -- a delay of 0 ticks is answered at once
    have hzero : ticks.toNat = 0 := by
      rw [BitVec.lt_def, hsum] at hlt
      omega
    have hone := hans.due _ hdeadline (BitVec.not_lt.mp hlt)
    constructor
    · intro d hd
      rw [hask, if_neg hlt] at hd
      exact absurd hd (hnot d)
    · intro _
      rw [hticks, hbefore, hzero]
      omega

/-- **What a client has waited** for its delays, after any messages of its own and of others. -/
theorem ClockServer.waited (run : Serves clockServer (clockServerInit msg₀) h s)
    (hl : Stepwise Legal h) (hc : ∀ e ∈ h, e.sender = c → e.message = ⟨2, ticks⟩) :
    Waited h c ticks := by
  induction h using List.reverseRecOn generalizing s with
  | nil =>
    constructor
    · intro d hd
      exact absurd hd List.not_mem_nil
    · intro _
      rfl
  | append_singleton h e ih =>
    obtain ⟨hl, hle⟩ := stepwise_snoc.mp hl
    obtain ⟨s₁, s₂, run₁, -⟩ := run.split (q := []) rfl
    have hw := ih run₁ hl fun f hf => hc f (List.mem_append_left _ hf)
    obtain ⟨a, -, ha, -⟩ := ClockServer.onSchedule run₁ (hl.mono fun _ _ => Legal.manageable)
    obtain ⟨-, -, -, hans⟩ := ClockServer.onSchedule run
      (stepwise_snoc.mpr ⟨hl.mono fun _ _ => Legal.manageable, hle.manageable⟩)
    obtain ⟨hans, hfair⟩ := (stepwise_snoc.mp hans).2
    by_cases hsend : e.sender = c
    · exact hw.delay ha hle hans hsend (hc e (by simp) hsend)
    by_cases ht : isTick e = true
    · exact hw.tick ha hans hfair ht hsend
    · have ht' : isTick e = false := by simpa using ht
      refine hw.other (fun hr => hsend (hans.to_sender hle.manageable ht' hr).symm) ht' ?_
      intro d hd
      rw [asked_snoc, ask, if_neg ht] at hd
      split at hd
      · split at hd
        · rcases List.mem_append.mp hd with hd | hd
          · exact hd
          · exact absurd (Prod.mk.inj (List.mem_singleton.mp hd)).1.symm hsend
        · exact hd
      · exact hd

end Accounts

/-! ### The clients -/

/-- The delays that a client waits for: none if `Delay` returns at once. -/
def k3Delays (delay num : U32) : ℕ := if delay.toInt < 0 then 0 else num.toNat

theorem k3Delays_le (delay num : U32) : k3Delays delay num ≤ num.toNat := by
  unfold k3Delays
  split
  · exact Nat.zero_le _
  · exact le_rfl

/-- Where a client is that began with `num` delays to go. -/
structure K3Progress (h : List ClockExchange) (c : ℤ) (delay num left : U32) (sending : Bool) :
    Prop where
  count : left.toNat + answers h c = k3Delays delay num
  more : sending = true → left ≠ 0
  messages : ∀ e ∈ h, e.sender = c → e.message = ⟨2, delay⟩

section Clients

variable {tasks : Finset ℤ} {h : List ClockExchange} {s s₀ : ClockNetwork} {c : ℤ} {n : ℕ}
  {delay num : U32}

/-- A reply to the client is the end of one delay. -/
theorem K3Progress.serve {left : U32} {b : Bool} {d : ℤ} {m : ClockServerMsg} {rs : ClockReplies}
    (hk : K3Progress h c delay num left b) (hfair : Fair h ⟨d, m, rs⟩)
    (hmsg : d = c → m = ⟨2, delay⟩) (hsending : c ∈ rs.map Prod.fst → b = true) :
    if c ∈ rs.map Prod.fst then K3Progress (h ++ [⟨d, m, rs⟩]) c delay num (left - 1) false
    else K3Progress (h ++ [⟨d, m, rs⟩]) c delay num left b := by
  have hmessages : ∀ e ∈ h ++ [⟨d, m, rs⟩], e.sender = c → e.message = ⟨2, delay⟩ := by
    intro e he hsend
    rcases List.mem_append.mp he with he | he
    · exact hk.messages e he hsend
    · obtain rfl := List.mem_singleton.mp he
      exact hmsg hsend
  have hcount := hk.count
  split
  · rename_i hc
    have hne := hk.more (hsending hc)
    have hpos : left.toNat ≠ 0 := fun h => hne (BitVec.eq_of_toNat_eq h)
    refine ⟨?_, nofun, hmessages⟩
    rw [answers_snoc, List.count_eq_one_of_mem hfair.nodup hc]
    have hsub : (left - 1).toNat = left.toNat - 1 := by
      rw [BitVec.toNat_sub_of_le]
      · rfl
      · show 1 ≤ left.toNat
        omega
    omega
  · rename_i hc
    refine ⟨?_, hk.more, hmessages⟩
    rw [answers_snoc, List.count_eq_zero_of_not_mem hc]
    exact hcount

theorem ClockStarts.k3Progress (h₀ : ClockStarts tasks s₀) (hcard : tasks.card ≤ memoryPoolChunks)
    (r : Network.Runs clockTask clockServer tasks s₀ n h s) (hsmall : ticksOf h < 2 ^ 31)
    (hc : c ∈ tasks) (hclient : s₀.client c = .k3Loop delay num.toNat) :
    ∃ left b, s.client c = .k3 delay left b ∧ K3Progress h c delay num left b := by
  obtain ⟨msg, hserver⟩ := h₀.server
  induction r with
  | refl =>
    by_cases hneg : delay.toInt < 0
    · rw [ClockTask.k3Loop_of_neg hneg] at hclient
      refine ⟨0, false, hclient, ?_, nofun, fun e he => absurd he List.not_mem_nil⟩
      rw [k3Delays, if_pos hneg]
      rfl
    · rw [ClockTask.k3Loop_of_nonneg hneg] at hclient
      refine ⟨num, false, hclient, ?_, nofun, fun e he => absurd he List.not_mem_nil⟩
      rw [k3Delays, if_neg hneg]
      rfl
  | @tail n h l s s' r step ih =>
    rw [ticksOf_append] at hsmall
    obtain ⟨left, b, hk3, hk⟩ := ih (by omega)
    have hs := h₀.run hcard r (by omega)
    cases step with
    | @call d a m g hd hsend =>
      rw [List.append_nil]
      by_cases hdc : d = c
      · subst hdc
        rw [hk3] at hsend
        change ClockTask.send _ _ = _ at hsend
        cases b with
        | true => cases hsend
        | false =>
          rw [ClockTask.send] at hsend
          split at hsend
          · rename_i hleft
            obtain ⟨m', -, heq⟩ := Option.map_eq_some_iff.mp hsend
            cases heq
            exact ⟨left, true, Function.update_self .., hk.count, fun _ => hleft, hk.messages⟩
          · cases hsend
      · exact ⟨left, b, by simpa [Function.update_of_ne (Ne.symm hdc)] using hk3, hk⟩
    | @serve d m rest server rs first handles =>
      have run : Serves clockServer (clockServerInit msg) h s.server := hserver ▸ r.serves
      obtain ⟨-, -, hfair⟩ := hs.answered hcard (by omega) run first handles
      obtain ⟨hto, hothers, -⟩ := hs.delivered hcard (by omega) run first handles
      obtain ⟨hd, -, hsends⟩ := hs.mail d m (by rw [first]; exact List.mem_cons_self)
      have hmsg : d = c → m = ⟨2, delay⟩ := by
        rintro rfl
        rw [hk3] at hsends
        change ClockCall.message _ = _ at hsends
        rw [ClockCall.message] at hsends
        split at hsends
        · cases hsends
        · cases hsends
          rfl
      have hsending : c ∈ rs.map Prod.fst → b = true := by
        intro hc'
        have hb : (s.client c).sending = true := by
          refine (hs.sending c hc).mpr ((hfair.mem c hc').imp_left fun hcd => ?_)
          rw [first, hcd]
          exact List.mem_cons_self
        rwa [hk3] at hb
      have hnext := hk.serve hfair hmsg hsending
      by_cases hc' : c ∈ rs.map Prod.fst
      · rw [if_pos hc'] at hnext
        obtain ⟨⟨c', r'⟩, hr, rfl⟩ := List.mem_map.mp hc'
        obtain rfl := hsending hc'
        -- a client with a negative delay has none to go
        have hnonneg : ¬ delay.toInt < 0 := by
          intro hneg
          have hcount := hk.count
          rw [k3Delays, if_pos hneg] at hcount
          exact hk.more rfl (BitVec.eq_of_toNat_eq (Nat.eq_zero_of_add_eq_zero_right hcount))
        refine ⟨left - 1, false, ?_, hnext⟩
        dsimp only at hk3 ⊢
        rw [hto c' r' hr, hk3]
        exact ClockTask.k3Loop_of_nonneg hnonneg _
      · rw [if_neg hc'] at hnext
        refine ⟨left, b, ?_, hnext⟩
        dsimp only
        rw [hothers c hc', hk3]

/-- **A `k3_client` waits for exactly its delays**, whatever the other tasks do and in whatever
order the steps are taken; for a delay that is negative as an `i32` it waits for none.  Each of its
delays that has ended took `delay` ticks; the one that it waits for ends at the tick that makes it
as many; in all it waits for no more than `num` times `delay` ticks, and when it has waited for
these, it is at its end. -/
theorem k3_client_waits (h₀ : ClockStarts tasks s₀) (hcard : tasks.card ≤ memoryPoolChunks)
    (r : Network.Runs clockTask clockServer tasks s₀ n h s) (hsmall : ticksOf h < 2 ^ 31)
    (hc : c ∈ tasks) (hclient : s₀.client c = .k3Loop delay num.toNat) :
    ∃ left b, s.client c = .k3 delay left b ∧
      left.toNat + answers h c = k3Delays delay num ∧ (c ∈ waiting h → left ≠ 0) ∧
      (c ∉ waiting h → waitedTicks h c = delay.toNat * answers h c) ∧
      (∀ d, (c, d) ∈ asked h → nowAfter h < d ∧ waitedTicks h c + (d.toNat - (nowAfter h).toNat) =
        delay.toNat * (answers h c + 1)) ∧
      waitedTicks h c ≤ delay.toNat * num.toNat ∧
      (0 < delay.toNat → waitedTicks h c = delay.toNat * num.toNat → left = 0) := by
  obtain ⟨msg, hserver⟩ := h₀.server
  obtain ⟨left, b, hk3, hk⟩ := h₀.k3Progress hcard r hsmall hc hclient
  have hs := h₀.run hcard r hsmall
  have run : Serves clockServer (clockServerInit msg) h s.server := hserver ▸ r.serves
  obtain ⟨a, -, ha, -⟩ := ClockServer.onSchedule run (hs.legal.mono fun _ _ => Legal.manageable)
  have hw := ClockServer.waited run hs.legal hk.messages
  have hrunning : ∀ d, (c, d) ∈ asked h → nowAfter h < d ∧
      waitedTicks h c + (d.toNat - (nowAfter h).toNat) = delay.toNat * (answers h c + 1) := by
    intro d hd
    have hlt := ha.future _ hd
    have heq := hw.running d hd
    refine ⟨hlt, ?_⟩
    rw [BitVec.lt_def] at hlt
    dsimp only at hlt
    omega
  have hcount := hk.count
  have hdelays := k3Delays_le delay num
  -- a client with a delay to go has not ended them all
  have hroom : left ≠ 0 → answers h c + 1 ≤ num.toNat := by
    intro hleft
    have hpos : left.toNat ≠ 0 := fun h => hleft (BitVec.eq_of_toNat_eq h)
    omega
  -- a client that waits has a delay to go
  have hmore : c ∈ waiting h → waitedTicks h c < delay.toNat * (answers h c + 1) ∧ left ≠ 0 := by
    intro hwait
    constructor
    · rw [ha.waits, List.mem_toFinset, mem_map_fst] at hwait
      obtain ⟨d, hd⟩ := hwait
      obtain ⟨hlt, heq⟩ := hrunning d hd
      rw [BitVec.lt_def] at hlt
      omega
    · have hb := (hs.sending c hc).mpr (.inr hwait)
      rw [hk3] at hb
      exact hk.more hb
  refine ⟨left, b, hk3, hcount, fun hwait => (hmore hwait).2, hw.idle, hrunning, ?_, ?_⟩
  · by_cases hwait : c ∈ waiting h
    · obtain ⟨hlt, hleft⟩ := hmore hwait
      exact hlt.le.trans (Nat.mul_le_mul_left _ (hroom hleft))
    · rw [hw.idle hwait]
      exact Nat.mul_le_mul_left _ (by omega)
  · intro hpos hall
    by_contra hleft
    have hle := Nat.mul_le_mul_left delay.toNat (hroom hleft)
    by_cases hwait : c ∈ waiting h
    · have hlt := (hmore hwait).1
      omega
    · have hidle := hw.idle hwait
      rw [Nat.mul_add] at hle
      omega

theorem k3_client_waits_pair : ∃ s h left b,
    Network.Runs clockTask clockServer {3, 7} pairOfTasks pairOfTasksTurns.length h s ∧
      s.client 7 = .k3 2 left b ∧ left = 0 ∧ waitedTicks h 7 = 2 := by
  obtain ⟨s, h, hruns, hmail, hsending, hticks, hans⟩ := pairOfTasks_runs
  obtain ⟨left, b, hk3, hcount, -, hidle, -, -, hend⟩ :=
    k3_client_waits pairOfTasks_starts (by decide) hruns (by omega) (c := 7) (by decide)
      (show pairOfTasks.client 7 = .k3Loop 2 (1 : U32).toNat from rfl)
  have hs := pairOfTasks_starts.run (by decide) hruns (by omega)
  have hout : (7 : ℤ) ∉ waiting h := by
    intro hwait
    have hb := (hs.sending 7 (by decide)).mpr (.inr hwait)
    rw [hsending] at hb
    cases hb
  have hwaited : waitedTicks h 7 = 2 := by
    rw [hidle hout, hans]
    rfl
  exact ⟨s, h, left, b, hruns, hk3, hend (by decide) hwaited, hwaited⟩

end Clients

end RealtimeKernel
