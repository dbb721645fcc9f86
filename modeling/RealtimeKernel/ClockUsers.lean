import RealtimeKernel.DelayedClients
import RealtimeKernel.Lib.Clients

/-!
# The tasks that use the clock server

The notifier sends a tick for every event that it awaits; `k3_client` delays itself a number of
times; and any other task calls `Time`, `Delay` and `DelayUntil` as it likes.  The steps of these
tasks and of the server interleave in any order.  Whatever they do, every message that arrives is
one that the server relies on, so that it answers all of them, and wakes each task on time.
-/

namespace RealtimeKernel

open Lib

/-! ### The tasks -/

/-- A call of a client function: `Time`, whose `msg.ticks` is not initialised, `Delay` or
`DelayUntil`. -/
inductive ClockCall
  | time (ticks : U32)
  | delay (ticks : U32)
  | delayUntil (ticks : U32)

/-- What the function sends, if it sends anything. -/
def ClockCall.message : ClockCall → Option ClockServerMsg
  | .time ticks => some ⟨1, ticks⟩
  | .delay ticks => if ticks.toInt < 0 then none else some ⟨2, ticks⟩
  | .delayUntil ticks => if ticks.toInt < 0 then none else some ⟨3, ticks⟩

/-- A task is before a Send or in it. -/
inductive ClockTask
  /-- The loop of `clock_server_tick`, with its `msg`. -/
  | notifier (msg : ClockServerMsg) (sending : Bool)
  /-- The loop of `k3_client`, with its `msg`. -/
  | k3 (delay num : U32) (sending : Bool)
  /-- Any other task. -/
  | user (sending : Bool)

namespace ClockTask

def sending : ClockTask → Bool
  | .notifier _ b | .k3 _ _ b | .user b => b

/-- The loop of `k3_client` up to its next Send, or to its end.  `Delay` returns -2 for a delay that
is negative as an `i32`, without a Send, and the loop goes on. -/
def k3Loop (delay : U32) : ℕ → ClockTask
  | 0 => .k3 delay 0 false
  | num + 1 =>
    match (ClockCall.delay delay).message with
    | some _ => .k3 delay (BitVec.ofNat 32 (num + 1)) false
    | none => k3Loop delay num

/-- Up to the next Send: the notifier's event happens, `k3_client` prints a line unless its loop is
at its end, and any other task makes the call `a`. -/
def send : ClockTask → ClockCall → Option (ClockServerMsg × ClockTask)
  | .notifier msg false, _ => some (msg, .notifier msg true)
  | .k3 delay num false, _ =>
    if num ≠ 0 then (ClockCall.delay delay).message.map fun m => (m, .k3 delay num true) else none
  | .user false, a => a.message.map fun m => (m, .user true)
  | _, _ => none

/-- The Send returns, with the reply in `msg`. -/
def resume : ClockTask → ClockServerMsg → ClockTask
  | .notifier _ true, reply => .notifier reply false
  | .k3 delay num true, _ => k3Loop delay (num - 1).toNat
  | .user true, _ => .user false
  | g, _ => g

/-- The message of a task that is in a Send. -/
def Sends : ClockTask → ClockServerMsg → Prop
  | .notifier msg _, m => m = msg
  | .k3 delay _ _, m => (ClockCall.delay delay).message = some m
  | .user _, m => ∃ a : ClockCall, a.message = some m

/-- The notifier sends ticks. -/
def Ticks : ClockTask → Prop
  | .notifier msg _ => msg.kind = some .tick
  | _ => True

end ClockTask

def clockTask : Program ClockTask ClockServerMsg ClockServerMsg ClockCall where
  send := ClockTask.send
  resume := ClockTask.resume

/-- The clock server and its tasks. -/
abbrev ClockNetwork := Network ClockServer ℤ ClockServerMsg ClockTask

/-! ### One task -/

section Task

variable {g g' : ClockTask} {a : ClockCall} {m r : ClockServerMsg}

theorem ClockTask.send_spec (h : g.send a = some (m, g')) :
    g.sending = false ∧ g'.sending = true ∧ g'.Sends m ∧ (g.Ticks → g'.Ticks) := by
  unfold ClockTask.send at h
  split at h
  · cases h
    exact ⟨rfl, rfl, rfl, id⟩
  · rename_i delay num _
    split at h
    · obtain ⟨m', hm, heq⟩ := Option.map_eq_some_iff.mp h
      cases heq
      exact ⟨rfl, rfl, hm, id⟩
    · cases h
  · obtain ⟨m', hm, heq⟩ := Option.map_eq_some_iff.mp h
    cases heq
    exact ⟨rfl, rfl, ⟨a, hm⟩, id⟩
  · cases h

theorem ClockTask.k3Loop_of_neg {delay : U32} (hneg : delay.toInt < 0) (num : ℕ) :
    k3Loop delay num = .k3 delay 0 false := by
  induction num with
  | zero => rfl
  | succ num ih => rw [k3Loop, ClockCall.message, if_pos hneg, ih]

theorem ClockTask.k3Loop_of_nonneg {delay : U32} (hnonneg : ¬ delay.toInt < 0) (num : U32) :
    k3Loop delay num.toNat = .k3 delay num false := by
  have hnum : num = BitVec.ofNat 32 num.toNat := by simp
  cases hn : num.toNat with
  | zero =>
    rw [hnum, hn]
    rfl
  | succ n =>
    rw [k3Loop, ClockCall.message, if_neg hnonneg, ← hn, ← hnum]

/-- The loop ends before a Send. -/
theorem ClockTask.k3Loop_eq (delay : U32) (num : ℕ) :
    ∃ left, k3Loop delay num = .k3 delay left false := by
  induction num with
  | zero => exact ⟨0, rfl⟩
  | succ num ih =>
    rw [k3Loop]
    split
    · exact ⟨_, rfl⟩
    · exact ih

theorem ClockTask.sending_resume (g : ClockTask) (r : ClockServerMsg) :
    (g.resume r).sending = false := by
  cases g with
  | notifier msg b => cases b <;> rfl
  | k3 delay num b =>
    cases b with
    | false => rfl
    | true =>
      obtain ⟨left, hloop⟩ := k3Loop_eq delay (num - 1).toNat
      rw [resume, hloop]
      rfl
  | user b => cases b <;> rfl

theorem ClockTask.ticks_resume (hr : g.Ticks) (h : ∀ msg b, g = .notifier msg b → r = msg) :
    (g.resume r).Ticks := by
  cases g with
  | notifier msg b =>
    rw [h msg b rfl]
    cases b <;> exact hr
  | k3 delay num b =>
    cases b with
    | false => trivial
    | true =>
      obtain ⟨left, hloop⟩ := k3Loop_eq delay (num - 1).toNat
      rw [resume, hloop]
      trivial
  | user b => cases b <;> trivial

/-- A call asks for the time or for a delay, and for no delay beyond the range of `i32`. -/
theorem ClockCall.message_spec (h : a.message = some m) : m.kind ≠ none ∧ m.kind ≠ some .tick ∧
    (m.kind = some .delay → m.ticks.toNat < 2 ^ 31) := by
  have hsmall : ∀ ticks : U32, ¬ ticks.toInt < 0 → ticks.toNat < 2 ^ 31 := by
    intro ticks hticks
    have hlt := ticks.isLt
    rw [BitVec.toInt_eq_toNat_cond] at hticks
    split at hticks <;> omega
  cases a with
  | time ticks =>
    cases h
    exact ⟨nofun, nofun, nofun⟩
  | delay ticks =>
    rw [ClockCall.message] at h
    split at h
    · cases h
    · rename_i hticks
      cases h
      exact ⟨nofun, nofun, fun _ => hsmall ticks hticks⟩
  | delayUntil ticks =>
    rw [ClockCall.message] at h
    split at h
    · cases h
    · cases h
      exact ⟨nofun, nofun, nofun⟩

theorem ClockTask.Sends.spec (h : g.Sends m) (ht : g.Ticks) :
    m.kind ≠ none ∧ (m.kind = some .delay → m.ticks.toNat < 2 ^ 31) := by
  cases g with
  | notifier msg b =>
    obtain rfl : m = msg := h
    rw [show m.kind = some .tick from ht]
    exact ⟨nofun, nofun⟩
  | k3 delay num b => exact ⟨(ClockCall.message_spec h).1, (ClockCall.message_spec h).2.2⟩
  | user b =>
    obtain ⟨a, ha⟩ := h
    exact ⟨(ClockCall.message_spec ha).1, (ClockCall.message_spec ha).2.2⟩

end Task

/-! ### The tasks and the server agree -/

/-- The invariant of the network, after the exchanges `h`: a task is in a Send when its message is
in the mailbox or the server has not answered it. -/
structure ClockConsistency (tasks : Finset ℤ) (h : List ClockExchange) (s : ClockNetwork) :
    Prop where
  legal : Stepwise Legal h
  awaiting : s.awaiting = waiting h
  waits : waiting h ⊆ tasks
  mail : ∀ c m, (c, m) ∈ s.mailbox → c ∈ tasks ∧ c ∉ waiting h ∧ (s.client c).Sends m
  nodup : (s.mailbox.map Prod.fst).Nodup
  sending : ∀ c ∈ tasks,
    (s.client c).sending = true ↔ c ∈ s.mailbox.map Prod.fst ∨ c ∈ waiting h
  ticks : ∀ c ∈ tasks, (s.client c).Ticks
  prompt : ∀ c ∈ tasks, ∀ msg b, s.client c = .notifier msg b → c ∉ waiting h

/-- The network before the first step. -/
structure ClockStarts (tasks : Finset ℤ) (s : ClockNetwork) : Prop where
  server : ∃ msg, s.server = clockServerInit msg
  mailbox : s.mailbox = []
  awaiting : s.awaiting = ∅
  idle : ∀ c ∈ tasks, (s.client c).sending = false
  ticks : ∀ c ∈ tasks, (s.client c).Ticks

section Consistency

variable {tasks : Finset ℤ} {h : List ClockExchange} {s s' s₀ : ClockNetwork} {c : ℤ}
  {m : ClockServerMsg} {g : ClockTask} {a : ClockCall} {rest : List (ℤ × ClockServerMsg)}
  {server : ClockServer} {rs : ClockReplies} {msg₀ : ClockServerMsg}

theorem ClockStarts.consistency (h₀ : ClockStarts tasks s₀) : ClockConsistency tasks [] s₀ where
  legal := stepwise_nil
  awaiting := h₀.awaiting
  waits := Finset.empty_subset _
  mail := by simp [h₀.mailbox]
  nodup := by simp [h₀.mailbox]
  sending := by
    intro c hc
    rw [h₀.idle c hc, h₀.mailbox]
    simp [waiting]
  ticks := h₀.ticks
  prompt := by simp [waiting]

/-- A task sends a message. -/
theorem ClockConsistency.call (hs : ClockConsistency tasks h s) (hc : c ∈ tasks)
    (hsend : clockTask.send (s.client c) a = some (m, g)) :
    ClockConsistency tasks h
      { s with client := Function.update s.client c g, mailbox := s.mailbox ++ [(c, m)] } := by
  obtain ⟨hidle, hbusy, hmsg, hticks⟩ := ClockTask.send_spec hsend
  have hout : ¬ (c ∈ s.mailbox.map Prod.fst ∨ c ∈ waiting h) := by
    rw [← hs.sending c hc, hidle]
    decide
  rw [not_or] at hout
  refine ⟨hs.legal, hs.awaiting, hs.waits, fun d m' hd => ?_, ?_, fun d hd => ?_,
    fun d hd => ?_, fun d hd msg b hmsg' => ?_⟩
  · rcases List.mem_append.mp hd with hd | hd
    · have hmem : d ∈ s.mailbox.map Prod.fst := List.mem_map_of_mem hd
      have hne : d ≠ c := fun hdc => hout.1 (hdc ▸ hmem)
      obtain ⟨htask, hwait, hsends⟩ := hs.mail d m' hd
      exact ⟨htask, hwait, by simpa [Function.update_of_ne hne] using hsends⟩
    · obtain ⟨rfl, rfl⟩ := Prod.mk.inj (List.mem_singleton.mp hd)
      exact ⟨hc, hout.2, by simpa using hmsg⟩
  · rw [List.map_append, List.nodup_append]
    refine ⟨hs.nodup, List.nodup_singleton _, fun d hd e he hde => ?_⟩
    rw [hde, List.mem_singleton.mp he] at hd
    exact hout.1 hd
  · by_cases hdc : d = c
    · subst hdc
      simp [hbusy]
    · simp only [Function.update_of_ne hdc, List.map_append, List.mem_append]
      rw [hs.sending d hd]
      simp [hdc]
  · by_cases hdc : d = c
    · subst hdc
      simpa using hticks (hs.ticks d hd)
    · simpa [Function.update_of_ne hdc] using hs.ticks d hd
  · by_cases hdc : d = c
    · subst hdc
      exact hout.2
    · exact hs.prompt d hd msg b (by simpa [Function.update_of_ne hdc] using hmsg')

/-- The message that the server handles next is one that it relies on. -/
theorem ClockConsistency.legal_next (hs : ClockConsistency tasks h s)
    (hcard : tasks.card ≤ memoryPoolChunks) (hsmall : ticksOf h < 2 ^ 31)
    (first : s.mailbox = (c, m) :: rest) (rs : ClockReplies) : Legal h ⟨c, m, rs⟩ := by
  obtain ⟨hc, hwait, hsends⟩ := hs.mail c m (by rw [first]; exact List.mem_cons_self)
  obtain ⟨hkind, hticks⟩ := hsends.spec (hs.ticks c hc)
  refine ⟨hkind, hwait, fun _ _ _ => ?_, fun hdelay => ?_⟩
  · exact (Finset.card_le_card (Finset.insert_subset hc hs.waits)).trans hcard
  · have hnow : (nowAfter h).toNat ≤ ticksOf h := by
      rw [nowAfter, BitVec.toNat_ofNat]
      exact Nat.mod_le _ _
    have := hticks hdelay
    dsimp only
    omega

section Serve

variable (hs : ClockConsistency tasks h s) (hcard : tasks.card ≤ memoryPoolChunks)
  (hsmall : ticksOf h < 2 ^ 31) (run : Serves clockServer (clockServerInit msg₀) h s.server)
  (first : s.mailbox = (c, m) :: rest) (handles : clockServer s.server c m = .ok (server, rs))
include hs hcard hsmall run first handles

/-- The server answers the message as it should. -/
theorem ClockConsistency.answered : Stepwise Legal (h ++ [⟨c, m, rs⟩]) ∧
    Answered h ⟨c, m, rs⟩ ∧ Fair h ⟨c, m, rs⟩ := by
  have hlegal : Stepwise Legal (h ++ [⟨c, m, rs⟩]) :=
    stepwise_snoc.mpr ⟨hs.legal, hs.legal_next hcard hsmall first rs⟩
  obtain ⟨-, -, -, hans⟩ := ClockServer.onSchedule (run.snoc handles)
    (hlegal.mono fun _ _ => Legal.manageable)
  exact ⟨hlegal, (stepwise_snoc.mp hans).2⟩

/-- Its replies reach their tasks. -/
theorem ClockConsistency.delivered :
    (∀ d r, (d, r) ∈ rs → (Network.deliver clockTask (s.client, insert c s.awaiting) rs).1 d =
      clockTask.resume (s.client d) r) ∧
    (∀ d ∉ rs.map Prod.fst,
      (Network.deliver clockTask (s.client, insert c s.awaiting) rs).1 d = s.client d) ∧
    (Network.deliver clockTask (s.client, insert c s.awaiting) rs).2 =
      insert c s.awaiting \ (rs.map Prod.fst).toFinset := by
  obtain ⟨-, -, hfair⟩ := hs.answered hcard hsmall run first handles
  refine Network.deliver_spec s.client hfair.nodup fun d hd => ?_
  rw [hs.awaiting, Finset.mem_insert]
  exact hfair.mem d hd

/-- The server handles a message. -/
theorem ClockConsistency.serve :
    ClockConsistency tasks (h ++ [⟨c, m, rs⟩])
      ⟨server, (Network.deliver clockTask (s.client, insert c s.awaiting) rs).1, rest,
        (Network.deliver clockTask (s.client, insert c s.awaiting) rs).2⟩ := by
  obtain ⟨hlegal, hanswered, hfair⟩ := hs.answered hcard hsmall run first handles
  obtain ⟨hto, hothers, hawaiting⟩ := hs.delivered hcard hsmall run first handles
  have hreplies : (rs.map Prod.fst).Nodup := hfair.nodup
  obtain ⟨hc, hwait, hsends⟩ := hs.mail c m (by rw [first]; exact List.mem_cons_self)
  have hnodup := hs.nodup
  rw [first, List.map_cons, List.nodup_cons] at hnodup
  have hwaiting : waiting (h ++ [⟨c, m, rs⟩]) =
      insert c (waiting h) \ (rs.map Prod.fst).toFinset := waiting_snoc
  have hrest : ∀ d ∈ rest.map Prod.fst, d ≠ c ∧ d ∉ waiting h ∧ d ∉ rs.map Prod.fst := by
    intro d hd
    obtain ⟨⟨d', m'⟩, hd', rfl⟩ := List.mem_map.mp hd
    have hdc : d' ≠ c := fun hdc => hnodup.1 (hdc ▸ hd)
    have hdw := (hs.mail d' m' (by rw [first]; exact List.mem_cons_of_mem _ hd')).2.1
    exact ⟨hdc, hdw, fun hr => (hfair.mem d' hr).elim hdc hdw⟩
  have hprompt : ∀ msg b, s.client c = .notifier msg b → m = msg ∧ (c, m) ∈ rs := by
    intro msg b hg
    have hticks := hs.ticks c hc
    rw [hg] at hsends hticks
    obtain rfl : m = msg := hsends
    have htick : isTick ⟨c, m, rs⟩ = true := decide_eq_true hticks
    refine ⟨rfl, ?_⟩
    rw [show rs = _ from hanswered.tick htick]
    exact List.mem_cons_self
  refine ⟨hlegal, ?_, ?_, fun d m' hd => ?_, hnodup.2, fun d hd => ?_, fun d hd => ?_,
    fun d hd msg b hmsg => ?_⟩
  · rw [hawaiting, hwaiting, hs.awaiting]
  · rw [hwaiting]
    exact Finset.sdiff_subset.trans (Finset.insert_subset hc hs.waits)
  · obtain ⟨hdc, hdw, hdr⟩ := hrest d (List.mem_map_of_mem hd)
    obtain ⟨htask, -, hsends'⟩ := hs.mail d m' (by rw [first]; exact List.mem_cons_of_mem _ hd)
    refine ⟨htask, ?_, ?_⟩
    · rw [mem_waiting_snoc]
      exact fun h => h.1.elim hdc hdw
    · dsimp only
      rw [hothers d hdr]
      exact hsends'
  · rw [mem_waiting_snoc]
    by_cases hdr : d ∈ rs.map Prod.fst
    · -- the task is resumed
      obtain ⟨⟨d', r⟩, hr, rfl⟩ := List.mem_map.mp hdr
      have hresumed : (clockTask.resume (s.client d') r).sending = false :=
        ClockTask.sending_resume _ r
      dsimp only
      rw [hto d' r hr, hresumed]
      refine ⟨fun h => absurd h (by decide), fun h => ?_⟩
      rcases h with h | h
      · exact absurd hdr (hrest d' h).2.2
      · exact absurd hdr h.2
    · dsimp only
      rw [hothers d hdr, hs.sending d hd, first, List.map_cons, List.mem_cons]
      tauto
  · dsimp only
    by_cases hdr : d ∈ rs.map Prod.fst
    · obtain ⟨⟨d', r⟩, hr, rfl⟩ := List.mem_map.mp hdr
      rw [hto d' r hr]
      apply ClockTask.ticks_resume (hs.ticks d' hd)
      intro msg b hg
      obtain rfl : d' = c := (hfair.mem d' hdr).resolve_right (hs.prompt d' hd msg b hg)
      obtain ⟨hmsg, hback⟩ := hprompt msg b hg
      have heq := List.inj_on_of_nodup_map hreplies hr hback rfl
      exact (Prod.mk.inj heq).2.trans hmsg
    · rw [hothers d hdr]
      exact hs.ticks d hd
  · rw [mem_waiting_snoc]
    rintro ⟨hd', hdr⟩
    dsimp only at hmsg
    rw [hothers d hdr] at hmsg
    obtain rfl : d = c := hd'.resolve_right (hs.prompt d hd msg b hmsg)
    exact hdr (List.mem_map_of_mem (hprompt msg b hmsg).2)

end Serve

/-- **The run lemma.** -/
theorem ClockStarts.run {n : ℕ} (h₀ : ClockStarts tasks s₀) (hcard : tasks.card ≤ memoryPoolChunks)
    (r : Network.Runs clockTask clockServer tasks s₀ n h s) (hsmall : ticksOf h < 2 ^ 31) :
    ClockConsistency tasks h s := by
  obtain ⟨msg, hserver⟩ := h₀.server
  induction r with
  | refl => exact h₀.consistency
  | @tail n h l s s' r step ih =>
    rw [ticksOf_append] at hsmall
    have hs := ih (by omega)
    cases step with
    | call hc hsend =>
      rw [List.append_nil]
      exact hs.call hc hsend
    | serve first handles =>
      exact hs.serve hcard (by omega) (hserver ▸ r.serves) first handles

/-- **Every use of the clock server is served.**  For any tasks, whatever they call and in whatever
order the steps are taken, as long as there have been fewer than `2 ^ 31` ticks: the message that
arrives next is handled, and the replies go to tasks that wait for one, one to each; every call of
the past was answered as it should be, and each delay ended on time; and a task is in a Send only if
its message has not been received yet or if it waits for a tick that is still to come. -/
theorem clock_users_on_time {n : ℕ} (h₀ : ClockStarts tasks s₀)
    (hcard : tasks.card ≤ memoryPoolChunks)
    (r : Network.Runs clockTask clockServer tasks s₀ n h s) (hsmall : ticksOf h < 2 ^ 31) :
    (∀ c m rest, s.mailbox = (c, m) :: rest →
      ∃ server rs, clockServer s.server c m = .ok (server, rs) ∧ (rs.map Prod.fst).Nodup ∧
        ∀ d ∈ rs.map Prod.fst, d ∈ insert c s.awaiting) ∧
    (∀ p e q, h = p ++ e :: q → Answered p e ∧
      ∀ d, deadline (nowAfter p) e.message = some d → nowAfter p < d → WokenOnTime p e q d) ∧
    ∀ c ∈ tasks, (s.client c).sending = true ↔
      c ∈ s.mailbox.map Prod.fst ∨ ∃ d, (c, d) ∈ asked h ∧ nowAfter h < d := by
  obtain ⟨msg, hserver⟩ := h₀.server
  have hs := h₀.run hcard r hsmall
  have hrun : Serves clockServer (clockServerInit msg) h s.server := hserver ▸ r.serves
  obtain ⟨htimes, -, -, hnext⟩ := clock_server_on_time msg h s.server hrun hs.legal
  refine ⟨fun c m rest first => ?_, htimes, fun c hc => ?_⟩
  · obtain ⟨server, rs, handles⟩ := hnext ⟨c, m, []⟩ (hs.legal_next hcard hsmall first [])
    obtain ⟨-, -, hfair⟩ := hs.answered hcard hsmall hrun first handles
    refine ⟨server, rs, handles, hfair.nodup, fun d hd => ?_⟩
    rw [hs.awaiting, Finset.mem_insert]
    exact hfair.mem d hd
  · obtain ⟨a, -, ha, -⟩ := ClockServer.onSchedule hrun (hs.legal.mono fun _ _ => Legal.manageable)
    rw [hs.sending c hc, ha.waits, List.mem_toFinset, mem_map_fst]
    refine or_congr Iff.rfl (exists_congr fun d => ?_)
    exact ⟨fun h => ⟨h, ha.future _ h⟩, And.left⟩

/-- The notifier and a client that delays itself for two ticks. -/
def pairOfTasks : ClockNetwork where
  server := clockServerInit ⟨0, 0⟩
  client c := if c = 3 then .notifier ⟨0, 0⟩ false else .k3Loop 2 1
  mailbox := []
  awaiting := ∅

def pairOfTasksTurns : List (Network.Turn ℤ ClockCall) :=
  [.call 7 (.time 0), .serve, .call 3 (.time 0), .serve, .call 3 (.time 0), .serve]

theorem pairOfTasks_starts : ClockStarts {3, 7} pairOfTasks := by
  refine ⟨⟨_, rfl⟩, rfl, rfl, fun c hc => ?_, fun c hc => ?_⟩
  · rcases Finset.mem_insert.mp hc with rfl | hc
    · rfl
    · rw [Finset.mem_singleton.mp hc]
      rfl
  · rcases Finset.mem_insert.mp hc with rfl | hc
    · show ClockServerMsg.kind ⟨0, 0⟩ = some .tick
      rfl
    · rw [Finset.mem_singleton.mp hc]
      trivial

theorem pairOfTasks_runs : ∃ s h,
    Network.Runs clockTask clockServer {3, 7} pairOfTasks pairOfTasksTurns.length h s ∧
      s.mailbox = [] ∧ (s.client 7).sending = false ∧ ticksOf h = 2 ∧ answers h 7 = 1 := by
  have hend : (Network.turns clockTask clockServer {3, 7} pairOfTasksTurns pairOfTasks).map
      (fun x => (x.1.mailbox.map Prod.fst, (x.1.client 7).sending, ticksOf x.2, answers x.2 7)) =
      some ([], false, 2, 1) := by
    decide +kernel
  obtain ⟨⟨s, h⟩, hturns, heq⟩ := Option.map_eq_some_iff.mp hend
  simp only [Prod.mk.injEq, List.map_eq_nil_iff] at heq
  have hruns := Network.Runs.turns .refl hturns
  rw [Nat.zero_add, List.nil_append] at hruns
  exact ⟨s, h, hruns, heq⟩

theorem clock_users_on_time_pair : ∃ s h,
    Network.Runs clockTask clockServer {3, 7} pairOfTasks pairOfTasksTurns.length h s ∧
      ∀ c ∈ ({3, 7} : Finset ℤ), (s.client c).sending = true ↔
        c ∈ s.mailbox.map Prod.fst ∨ ∃ d, (c, d) ∈ asked h ∧ nowAfter h < d := by
  obtain ⟨s, h, hruns, -, -, hticks, -⟩ := pairOfTasks_runs
  have htimes := clock_users_on_time pairOfTasks_starts (by decide) hruns (by omega)
  exact ⟨s, h, hruns, htimes.2.2⟩

end Consistency

end RealtimeKernel
