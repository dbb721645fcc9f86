import Mathlib.Data.List.TakeWhile
import RealtimeKernel.ClockServer

/-!
# The clock server wakes its clients on time

A history of the clock server lists the messages it received and the replies it made.  What the
replies should be is said from the messages alone: `nowAfter` counts the ticks, `deadline` is
when a client asks to be woken, and `asked` lists the requests that are not yet due in the
order in which they arrived.  The delay queue holds the same requests sorted by deadline, and
those of one deadline in order of arrival.
-/

namespace RealtimeKernel

open Lib

abbrev ClockExchange := Exchange ℤ ClockServerMsg ClockServerMsg

/-! ### What the messages ask for -/

def isTick (e : ClockExchange) : Bool := decide (e.message.kind = some .tick)

/-- The ticks received so far. -/
def ticksOf (h : List ClockExchange) : ℕ := h.countP isTick

/-- The time the server keeps. -/
def nowAfter (h : List ClockExchange) : U32 := BitVec.ofNat 32 (ticksOf h)

/-- When the client asks to be woken. -/
def deadline (now : U32) (m : ClockServerMsg) : Option U32 :=
  match m.kind with
  | some .delay => some (m.ticks + now)
  | some .delayUntil => some m.ticks
  | _ => none

/-- What one message does to the requests that are not due, the oldest first. -/
def ask (now : U32) (l : List (ℤ × U32)) (e : ClockExchange) : List (ℤ × U32) :=
  if isTick e then l.filter fun r => decide (now + 1 < r.2)
  else
    match deadline now e.message with
    | some d => if now < d then l ++ [(e.sender, d)] else l
    | none => l

/-- The requests that are not due, in order of arrival. -/
def asked (h : List ClockExchange) : List (ℤ × U32) :=
  (h.foldl (fun b e => (if isTick e then b.1 + 1 else b.1, ask b.1 b.2 e))
    ((0 : U32), ([] : List (ℤ × U32)))).2

theorem ticksOf_snoc (h : List ClockExchange) (e : ClockExchange) :
    ticksOf (h ++ [e]) = ticksOf h + if isTick e then 1 else 0 := by
  simp [ticksOf, List.countP_append, List.countP_cons]

theorem ticksOf_append (h₁ h₂ : List ClockExchange) :
    ticksOf (h₁ ++ h₂) = ticksOf h₁ + ticksOf h₂ := List.countP_append

theorem nowAfter_snoc (h : List ClockExchange) (e : ClockExchange) :
    nowAfter (h ++ [e]) = if isTick e then nowAfter h + 1 else nowAfter h := by
  unfold nowAfter
  rw [ticksOf_snoc]
  split
  · exact BitVec.ofNat_add _ _
  · rfl

theorem asked_snoc (h : List ClockExchange) (e : ClockExchange) :
    asked (h ++ [e]) = ask (nowAfter h) (asked h) e := by
  have hnow : ∀ l : List ClockExchange,
      (l.foldl (fun b e => (if isTick e then b.1 + 1 else b.1, ask b.1 b.2 e))
        ((0 : U32), ([] : List (ℤ × U32)))).1 = nowAfter l := by
    intro l
    induction l using List.reverseRecOn with
    | nil => rfl
    | append_singleton l f ih =>
      rw [List.foldl_append, nowAfter_snoc, ← ih]
      rfl
  unfold asked
  rw [List.foldl_append, ← hnow]
  rfl

/-- The messages the clients may send: one of the four actions, from a client that does not
wait, at most as many waiting clients as chunks, and no deadline beyond the range of the
counter. -/
structure Legal (p : List ClockExchange) (e : ClockExchange) : Prop where
  action : e.message.kind ≠ none
  patient : Patient p e
  room : ∀ d, deadline (nowAfter p) e.message = some d → nowAfter p < d →
    (insert e.sender (waiting p)).card ≤ memoryPoolChunks
  small : e.message.kind = some .delay →
    (nowAfter p).toNat + e.message.ticks.toNat < 2 ^ 32

/-- What the server relies on in a message; deadlines may wrap around. -/
structure Manageable (p : List ClockExchange) (e : ClockExchange) : Prop where
  action : e.message.kind ≠ none
  patient : Patient p e
  room : ∀ d, deadline (nowAfter p) e.message = some d → nowAfter p < d →
    (insert e.sender (waiting p)).card ≤ memoryPoolChunks

theorem Legal.manageable {p : List ClockExchange} {e : ClockExchange} (hl : Legal p e) :
    Manageable p e := ⟨hl.action, hl.patient, hl.room⟩

/-! ### Sorted queues -/

/-- In order of deadlines. -/
def ByDeadline (q : List (ℤ × U32)) : Prop := q.Pairwise fun r r' => r.2 ≤ r'.2

/-- The deadline of a request. -/
def requestKey (r : ℤ × U32) : ℕ := r.2.toNat

/-- The requests that are due are a prefix. -/
theorem ByDeadline.takeWhile_eq {q : List (ℤ × U32)} (h : ByDeadline q) (d : U32) :
    q.takeWhile (dueAt d) = q.filter (dueAt d) := takeWhile_eq_filter requestKey h d.toNat

theorem ByDeadline.dropWhile_eq {q : List (ℤ × U32)} (h : ByDeadline q) (d : U32) :
    q.dropWhile (dueAt d) = q.filter fun r => decide (d < r.2) :=
  dropWhile_eq_filter requestKey h d.toNat

theorem ByDeadline.insertRequest {q : List (ℤ × U32)} (h : ByDeadline q) (r : ℤ × U32) :
    ByDeadline (insertRequest q r) := pairwise_insertBehind requestKey h r

theorem insertRequest_perm (q : List (ℤ × U32)) (r : ℤ × U32) :
    (insertRequest q r).Perm (q ++ [r]) := by
  apply (insertBehind_perm requestKey r q).trans
  exact (List.perm_append_singleton r q).symm

/-- A new request comes behind those of the same deadline. -/
theorem ByDeadline.filter_insertRequest {q : List (ℤ × U32)} (h : ByDeadline q) (r : ℤ × U32)
    (d : U32) :
    (RealtimeKernel.insertRequest q r).filter (fun x => decide (x.2 = d)) =
      (q ++ [r]).filter fun x => decide (x.2 = d) := by
  have hkey : ∀ l : List (ℤ × U32), l.filter (fun x => decide (x.2 = d)) =
      l.filter fun x => decide (requestKey x = d.toNat) := by
    intro l
    apply List.filter_congr
    intro x _
    simp [requestKey, BitVec.toNat_inj]
  rw [hkey, hkey]
  exact filter_insertBehind requestKey h r d.toNat

/-! ### One message -/

/-- The clock keeps the requests of a history. -/
structure OnSchedule (h : List ClockExchange) (a : TickClock) : Prop where
  now : a.now = nowAfter h
  sorted : ByDeadline a.queue
  perm : a.queue.Perm (asked h)
  arrival : ∀ d, a.queue.filter (fun r => decide (r.2 = d)) =
    (asked h).filter fun r => decide (r.2 = d)
  future : ∀ r ∈ asked h, nowAfter h < r.2
  nodup : ((asked h).map Prod.fst).Nodup
  waits : waiting h = ((asked h).map Prod.fst).toFinset

/-- What the server answers to each kind of message. -/
structure Answered (p : List ClockExchange) (e : ClockExchange) : Prop where
  tick : isTick e → e.replies = (e.sender, e.message) ::
    ((asked p).filter fun r => decide (r.2 = nowAfter p + 1)).map fun r =>
      (r.1, { e.message with ticks := nowAfter p + 1 })
  time : e.message.kind = some .time →
    e.replies = [(e.sender, { e.message with ticks := nowAfter p })]
  due : ∀ d, deadline (nowAfter p) e.message = some d → d ≤ nowAfter p →
    e.replies = [(e.sender, { e.message with ticks := d })]
  future : ∀ d, deadline (nowAfter p) e.message = some d → nowAfter p < d → e.replies = []

/-- After the next tick just the requests for it are due. -/
theorem dueAt_succ {now d : U32} (h : now < d) : d ≤ now + 1 ↔ d = now + 1 := by
  bv_omega

variable {h p : List ClockExchange} {a : TickClock} {e : ClockExchange} {c : ℤ} {m : ClockServerMsg}

theorem OnSchedule.takeWhile_eq (ha : OnSchedule h a) :
    a.queue.takeWhile (dueAt (a.now + 1)) =
      (asked h).filter fun r => decide (r.2 = nowAfter h + 1) := by
  rw [ha.sorted.takeWhile_eq, ← ha.arrival, ha.now]
  refine List.filter_congr fun r hr => ?_
  have hlt := ha.future r (ha.perm.mem_iff.mp hr)
  exact decide_eq_decide.mpr (dueAt_succ hlt)

/-- A request to be woken is entered or answered. -/
theorem TickClock.step_deadline {d : U32} (hd : deadline a.now m = some d) :
    a.step c m = a.request c { m with ticks := d } := by
  unfold deadline at hd
  split at hd
  · rename_i hk
    cases hd
    exact TickClock.step_delay hk
  · rename_i hk
    cases hd
    exact TickClock.step_delayUntil hk
  · cases hd

theorem OnSchedule.answered (ha : OnSchedule p a) (hr : e.replies = (a.step e.sender e.message).2) :
    Answered p e := by
  constructor
  · intro ht
    have hk : e.message.kind = some .tick := of_decide_eq_true ht
    rw [hr, TickClock.step_tick hk]
    dsimp only
    rw [ha.takeWhile_eq, ha.now]
  · intro hk
    rw [hr, TickClock.step_time hk, ha.now]
  · intro d hd hle
    rw [hr, TickClock.step_deadline (ha.now ▸ hd), TickClock.request, if_pos (ha.now ▸ hle)]
  · intro d hd hlt
    rw [hr, TickClock.step_deadline (ha.now ▸ hd), TickClock.request,
      if_neg (ha.now ▸ BitVec.not_le.mpr hlt)]

/-- The messages the server knows. -/
theorem Manageable.cases (hl : Manageable p e) : isTick e ∨ e.message.kind = some .time ∨
    ∃ d, deadline (nowAfter p) e.message = some d := by
  cases hk : e.message.kind with
  | none => exact absurd hk hl.action
  | some action =>
    cases action with
    | tick => exact Or.inl (decide_eq_true hk)
    | time => exact Or.inr (Or.inl rfl)
    | delay => exact Or.inr (Or.inr ⟨_, by rw [deadline, hk]⟩)
    | delayUntil => exact Or.inr (Or.inr ⟨_, by rw [deadline, hk]⟩)

theorem deadline_not_tick {d : U32} (hd : deadline (nowAfter p) e.message = some d) :
    isTick e = false := by
  refine decide_eq_false fun hk => ?_
  rw [deadline, hk] at hd
  cases hd

/-- A client waits for one deadline. -/
theorem OnSchedule.deadline_unique (ha : OnSchedule p a) {d d' : U32} (h : (c, d) ∈ asked p)
    (h' : (c, d') ∈ asked p) : d = d' :=
  congrArg Prod.snd (List.inj_on_of_nodup_map ha.nodup h h' rfl)

theorem mem_map_fst {l : List (ℤ × U32)} : c ∈ l.map Prod.fst ↔ ∃ d, (c, d) ∈ l := by
  simp

/-- A message that is answered at once changes nothing. -/
theorem OnSchedule.same (ha : OnSchedule p a) (ht : isTick e = false)
    (hask : ask (nowAfter p) (asked p) e = asked p)
    (hr : e.replies.map Prod.fst = [e.sender]) (hpat : Patient p e) :
    OnSchedule (p ++ [e]) a := by
  have hasked : asked (p ++ [e]) = asked p := by rw [asked_snoc, hask]
  have hnow : nowAfter (p ++ [e]) = nowAfter p := by simp [nowAfter_snoc, ht]
  refine ⟨ha.now.trans hnow.symm, ha.sorted, hasked ▸ ha.perm, hasked ▸ ha.arrival, ?_,
    hasked ▸ ha.nodup, ?_⟩
  · rw [hasked, hnow]
    exact ha.future
  · rw [waiting_snoc, hr, hasked, ← ha.waits]
    ext c
    by_cases hc : c = e.sender
    · subst hc
      have hout : e.sender ∉ waiting p := hpat
      simp [hout]
    · simp [hc]

/-- **One message** keeps the clock on schedule. -/
theorem OnSchedule.step (ha : OnSchedule p a) (hl : Manageable p e)
    (hr : e.replies = (a.step e.sender e.message).2) :
    OnSchedule (p ++ [e]) (a.step e.sender e.message).1 := by
  have hans := ha.answered hr
  have hnot : e.sender ∉ (asked p).map Prod.fst := by
    have := hl.patient
    rwa [Patient, ha.waits, List.mem_toFinset] at this
  rcases hl.cases with ht | hk | ⟨d, hd⟩
  · -- the requests that the tick makes due leave the queue, and their clients are answered
    have hk : e.message.kind = some .tick := of_decide_eq_true ht
    have hasked : asked (p ++ [e]) = (asked p).filter fun r => decide (nowAfter p + 1 < r.2) := by
      rw [asked_snoc, ask, if_pos ht]
    have hnow : nowAfter (p ++ [e]) = nowAfter p + 1 := by rw [nowAfter_snoc, if_pos ht]
    rw [TickClock.step_tick hk]
    have hqueue : a.queue.dropWhile (dueAt (a.now + 1)) =
        a.queue.filter fun r => decide (nowAfter p + 1 < r.2) := by
      rw [ha.sorted.dropWhile_eq, ha.now]
    refine ⟨?_, ?_, ?_, fun d => ?_, fun r hr => ?_, ?_, ?_⟩
    · rw [hnow, ha.now]
    · exact ha.sorted.sublist (List.dropWhile_sublist _)
    · rw [hqueue, hasked]
      exact ha.perm.filter _
    · rw [hqueue, hasked, List.filter_comm, ha.arrival d, List.filter_comm]
    · rw [hasked] at hr
      rw [hnow]
      exact of_decide_eq_true (List.mem_filter.mp hr).2
    · rw [hasked]
      exact ha.nodup.sublist (List.filter_sublist.map _)
    · ext c
      rw [hasked, mem_waiting_snoc, ha.waits, hans.tick ht]
      simp only [List.mem_toFinset, List.map_cons, List.map_map, List.mem_cons, not_or,
        Function.comp_def, List.mem_map, List.mem_filter, decide_eq_true_eq]
      constructor
      · rintro ⟨hc, hne, hnone⟩
        obtain ⟨⟨c', d⟩, hd, rfl⟩ := hc.resolve_left hne
        have hlt := ha.future _ hd
        have hd' : d ≠ nowAfter p + 1 := fun he => hnone ⟨(c', d), ⟨hd, he⟩, rfl⟩
        exact ⟨(c', d), ⟨hd, by bv_omega⟩, rfl⟩
      · rintro ⟨⟨c', d⟩, ⟨hd, hlt⟩, rfl⟩
        refine ⟨Or.inr ⟨(c', d), hd, rfl⟩, ?_, ?_⟩
        · rintro rfl
          exact hnot (mem_map_fst.mpr ⟨d, hd⟩)
        · rintro ⟨⟨c'', d'⟩, ⟨hd', heq⟩, rfl⟩
          have hdd : d = d' := ha.deadline_unique hd hd'
          rw [hdd, heq] at hlt
          exact absurd hlt (BitVec.lt_irrefl _)
  · -- the time is told at once
    have ht : isTick e = false := decide_eq_false (by rw [hk]; decide)
    have hnone : deadline (nowAfter p) e.message = none := by rw [deadline, hk]
    rw [TickClock.step_time hk]
    exact ha.same ht (by simp [ask, ht, hnone]) (by rw [hans.time hk]; rfl) hl.patient
  · have ht := deadline_not_tick hd
    rw [TickClock.step_deadline (ha.now ▸ hd), TickClock.request]
    by_cases hle : d ≤ nowAfter p
    · -- the deadline has passed: the client is answered at once
      rw [if_pos (ha.now ▸ hle)]
      exact ha.same ht (by simp [ask, ht, hd, BitVec.not_lt.mpr hle])
        (by rw [hans.due d hd hle]; rfl) hl.patient
    · -- the client is put into the queue
      have hlt : nowAfter p < d := BitVec.not_le.mp hle
      have hasked : asked (p ++ [e]) = asked p ++ [(e.sender, d)] := by
        rw [asked_snoc, ask]
        simp [ht, hd, hlt]
      have hnow : nowAfter (p ++ [e]) = nowAfter p := by simp [nowAfter_snoc, ht]
      rw [if_neg (ha.now ▸ hle)]
      refine ⟨ha.now.trans hnow.symm, ha.sorted.insertRequest _, ?_, fun d' => ?_, fun r hr => ?_,
        ?_, ?_⟩
      · rw [hasked]
        exact (insertRequest_perm _ _).trans (ha.perm.append_right _)
      · rw [hasked, ha.sorted.filter_insertRequest, List.filter_append, List.filter_append,
          ha.arrival]
      · rw [hasked] at hr
        rw [hnow]
        rcases List.mem_append.mp hr with hr | hr
        · exact ha.future r hr
        · obtain rfl := List.mem_singleton.mp hr
          exact hlt
      · rw [hasked, List.map_append]
        exact List.nodup_append.mpr ⟨ha.nodup, List.nodup_singleton _, fun x hx y hy hxy => by
          obtain rfl := List.mem_singleton.mp hy
          subst hxy
          exact hnot hx⟩
      · rw [waiting_snoc, hans.future d hd hlt, hasked, ha.waits]
        ext c
        simp

/-- The requests of the clients that wait fit into the pool. -/
theorem OnSchedule.room (ha : OnSchedule p a) (hl : Manageable p e)
    (hlen : a.queue.length ≤ memoryPoolChunks) :
    (a.step e.sender e.message).1.queue.length ≤ memoryPoolChunks := by
  rcases hl.cases with ht | hk | ⟨d, hd⟩
  · have hk : e.message.kind = some .tick := of_decide_eq_true ht
    rw [TickClock.step_tick hk]
    exact (List.length_dropWhile_le _ _).trans hlen
  · rw [TickClock.step_time hk]
    exact hlen
  · rw [TickClock.step_deadline (ha.now ▸ hd), TickClock.request]
    split
    · exact hlen
    · rename_i hle
      have hlt : nowAfter p < d := ha.now ▸ BitVec.not_le.mp hle
      have hcard : (waiting p).card = a.queue.length := by
        rw [ha.waits, List.toFinset_card_of_nodup ha.nodup, List.length_map, ha.perm.length_eq]
      have hroom := hl.room d hd hlt
      rw [Finset.card_insert_of_notMem hl.patient, hcard] at hroom
      rw [length_insertRequest]
      exact hroom

/-- The replies to one message go to waiting clients, one to each. -/
theorem OnSchedule.fair (ha : OnSchedule p a) (hl : Manageable p e) (hans : Answered p e) :
    Fair p e := by
  have hnot : e.sender ∉ (asked p).map Prod.fst := by
    have := hl.patient
    rwa [Patient, ha.waits, List.mem_toFinset] at this
  rcases hl.cases with ht | hk | ⟨d, hd⟩
  · have hfst : e.replies.map Prod.fst = e.sender ::
        ((asked p).filter fun r => decide (r.2 = nowAfter p + 1)).map Prod.fst := by
      rw [hans.tick ht, List.map_cons, List.map_map]
      rfl
    have hsub : (((asked p).filter fun r => decide (r.2 = nowAfter p + 1)).map Prod.fst).Sublist
        ((asked p).map Prod.fst) := List.filter_sublist.map _
    constructor
    · rw [hfst]
      exact List.nodup_cons.mpr ⟨fun hin => hnot (hsub.subset hin), ha.nodup.sublist hsub⟩
    · intro c hc
      rw [hfst] at hc
      rw [ha.waits, List.mem_toFinset]
      exact (List.mem_cons.mp hc).imp_right fun hin => hsub.subset hin
  · have hfst : e.replies.map Prod.fst = [e.sender] := by rw [hans.time hk]; rfl
    exact ⟨hfst ▸ List.nodup_singleton _, fun c hc => Or.inl (List.mem_singleton.mp (hfst ▸ hc))⟩
  · by_cases hle : d ≤ nowAfter p
    · have hfst : e.replies.map Prod.fst = [e.sender] := by rw [hans.due d hd hle]; rfl
      exact ⟨hfst ▸ List.nodup_singleton _, fun c hc => Or.inl (List.mem_singleton.mp (hfst ▸ hc))⟩
    · have hnil := hans.future d hd (BitVec.not_le.mp hle)
      exact ⟨by simp [hnil], by simp [hnil]⟩

/-! ### Runs -/

variable {s : ClockServer} {msg₀ : ClockServerMsg}

theorem onSchedule_nil : OnSchedule [] ⟨0, []⟩ where
  now := rfl
  sorted := List.Pairwise.nil
  perm := List.Perm.refl _
  arrival := fun _ => rfl
  future := by simp [asked]
  nodup := List.nodup_nil
  waits := rfl

/-- **The run lemma**: after any messages it relies on the server is on schedule, and it has
answered each of them as it should. -/
theorem ClockServer.onSchedule (run : Serves clockServer (clockServerInit msg₀) h s)
    (hl : Stepwise Manageable h) :
    ∃ a, s.Rep a ∧ OnSchedule h a ∧ Stepwise (fun p e => Answered p e ∧ Fair p e) h := by
  refine run.invariant (P := Manageable) (I := fun h s => ∃ a, s.Rep a ∧ OnSchedule h a ∧
    Stepwise (fun p e => Answered p e ∧ Fair p e) h) ?_ hl ?_
  · exact ⟨⟨0, []⟩, clockServerInit_rep msg₀, onSchedule_nil, stepwise_nil⟩
  · rintro h s c m s' rs ⟨a, hrep, ha, hs⟩ hle hok
    obtain ⟨s'', hok', hrep'⟩ := hrep.step c m (ha.room hle hrep.length_le)
    rw [hok'] at hok
    obtain ⟨rfl, rfl⟩ := Prod.mk.inj (Except.ok.inj hok)
    have hans := ha.answered (e := ⟨c, m, (a.step c m).2⟩) rfl
    exact ⟨_, hrep', ha.step hle rfl, stepwise_snoc.mpr ⟨hs, hans, ha.fair hle hans⟩⟩

/-- What a client gets that asked to be woken at `d`: nothing before, and one reply with the
time in the tick to `d`. -/
structure WokenOnTime (p : List ClockExchange) (e : ClockExchange) (q : List ClockExchange)
    (d : U32) : Prop where
  entered : e.replies = []
  before : ∀ q₁ f q₂, q = q₁ ++ f :: q₂ →
    (nowAfter p).toNat + ticksOf (q₁ ++ [f]) < d.toNat → e.sender ∉ f.replies.map Prod.fst
  woken : ∀ q₁ f q₂, q = q₁ ++ f :: q₂ → isTick f →
    (nowAfter p).toNat + ticksOf (q₁ ++ [f]) = d.toNat →
    f.replies.filter (fun r => decide (r.1 = e.sender)) =
      [(e.sender, { f.message with ticks := d })]

theorem nowAfter_append (h₁ h₂ : List ClockExchange)
    (hlt : (nowAfter h₁).toNat + ticksOf h₂ < 2 ^ 32) :
    (nowAfter (h₁ ++ h₂)).toNat = (nowAfter h₁).toNat + ticksOf h₂ := by
  unfold nowAfter at hlt ⊢
  rw [ticksOf_append, BitVec.toNat_ofNat]
  rw [BitVec.toNat_ofNat] at hlt ⊢
  omega

/-- A request stays with the server until its deadline. -/
theorem asked_until {d : U32} (hd : (c, d) ∈ asked p) {q : List ClockExchange}
    (hq : (nowAfter p).toNat + ticksOf q < d.toNat) : (c, d) ∈ asked (p ++ q) := by
  induction q using List.reverseRecOn with
  | nil => simpa using hd
  | append_singleton q f ih =>
    rw [ticksOf_snoc] at hq
    have hin := ih (by omega)
    have hnow := nowAfter_append p q (by have := d.isLt; omega)
    rw [← List.append_assoc, asked_snoc, ask]
    by_cases ht : isTick f
    · rw [if_pos ht] at hq ⊢
      refine List.mem_filter.mpr ⟨hin, decide_eq_true ?_⟩
      bv_omega
    · rw [if_neg ht]
      split
      · split
        · exact List.mem_append_left _ hin
        · exact hin
      · exact hin

theorem filter_fst_eq {l : List (ℤ × U32)} (hl : (l.map Prod.fst).Nodup) {d : U32}
    (hd : (c, d) ∈ l) : l.filter (fun r => decide (r.1 = c)) = [(c, d)] := by
  induction l with
  | nil => cases hd
  | cons x l ih =>
    obtain ⟨hx, hl⟩ := List.nodup_cons.mp hl
    cases hd with
    | head =>
      have hnone : l.filter (fun r => decide (r.1 = c)) = [] := by
        rw [List.filter_eq_nil_iff]
        intro r hr heq
        exact hx (List.mem_map.mpr ⟨r, hr, of_decide_eq_true heq⟩)
      rw [List.filter_cons_of_pos (by simp), hnone]
    | tail _ hd =>
      have hne : ¬ x.1 = c := fun he => hx (he ▸ List.mem_map_of_mem (f := Prod.fst) hd)
      rw [List.filter_cons_of_neg (by simpa using hne), ih hl hd]

theorem ClockServer.wokenOnTime (run : Serves clockServer (clockServerInit msg₀) h s)
    (hl : Stepwise Manageable h) {q : List ClockExchange} (hh : h = p ++ e :: q) {d : U32}
    (hd : deadline (nowAfter p) e.message = some d) (hlt : nowAfter p < d) :
    WokenOnTime p e q d := by
  obtain ⟨-, -, -, hans⟩ := ClockServer.onSchedule run hl
  have hnow : nowAfter (p ++ [e]) = nowAfter p := by
    simp [nowAfter_snoc, deadline_not_tick hd]
  have hasked : (e.sender, d) ∈ asked (p ++ [e]) := by
    rw [asked_snoc, ask, if_neg (by simp [deadline_not_tick hd]), hd]
    simp [hlt]
  -- the state of the server when it handles a later message
  have hlater : ∀ q₁ f q₂, q = q₁ ++ f :: q₂ →
      (nowAfter p).toNat + ticksOf q₁ < d.toNat → ∃ p', Answered p' f ∧ Manageable p' f ∧
        f.sender ≠ e.sender ∧ (e.sender, d) ∈ asked p' ∧ ((asked p').map Prod.fst).Nodup ∧
        (nowAfter p').toNat = (nowAfter p).toNat + ticksOf q₁ := by
    intro q₁ f q₂ hq hlt'
    have hh' : h = (p ++ [e] ++ q₁) ++ f :: q₂ := by simp [hh, hq]
    have hlf := hl _ f q₂ hh'
    obtain ⟨s₁, -, run₁, -⟩ := run.split hh'
    obtain ⟨a, -, ha, -⟩ := ClockServer.onSchedule run₁ (Stepwise.left (hh' ▸ hl))
    have hin := asked_until hasked (q := q₁) (hnow ▸ hlt')
    refine ⟨_, (hans _ f q₂ hh').1, hlf, ?_, hin, ha.nodup, ?_⟩
    · intro heq
      have hpat := hlf.patient
      rw [Patient, ha.waits, List.mem_toFinset, heq] at hpat
      exact hpat (mem_map_fst.mpr ⟨d, hin⟩)
    · rw [nowAfter_append _ _ (by rw [hnow]; have := d.isLt; omega), hnow]
  refine ⟨(hans p e q hh).1.future d hd hlt, ?_, ?_⟩
  · intro q₁ f q₂ hq hbefore hin
    rw [ticksOf_snoc] at hbefore
    obtain ⟨p', hf, hlf, hne, hask, hnodup, hnow'⟩ := hlater q₁ f q₂ hq (by omega)
    rcases hlf.cases with ht | hk | ⟨d', hd'⟩
    · rw [hf.tick ht, List.map_cons, List.map_map] at hin
      rcases List.mem_cons.mp hin with heq | hin
      · exact hne heq.symm
      · obtain ⟨⟨c', d'⟩, hr, rfl⟩ := List.mem_map.mp hin
        obtain ⟨hr, hdue⟩ := List.mem_filter.mp hr
        have hdd : d = d' := congrArg Prod.snd (List.inj_on_of_nodup_map hnodup hask hr rfl)
        have hdue : d' = nowAfter p' + 1 := of_decide_eq_true hdue
        rw [if_pos ht] at hbefore
        bv_omega
    · rw [hf.time hk] at hin
      exact hne (List.mem_singleton.mp hin).symm
    · by_cases hle : d' ≤ nowAfter p'
      · rw [hf.due d' hd' hle] at hin
        exact hne (List.mem_singleton.mp hin).symm
      · rw [hf.future d' hd' (BitVec.not_le.mp hle)] at hin
        cases hin
  · intro q₁ f q₂ hq ht hthen
    rw [ticksOf_snoc, if_pos ht] at hthen
    obtain ⟨p', hf, -, hne, hask, hnodup, hnow'⟩ := hlater q₁ f q₂ hq (by omega)
    have hd' : nowAfter p' + 1 = d := by bv_omega
    have hone : ((asked p').filter fun r => decide (r.2 = d)).filter
        (fun r => decide (r.1 = e.sender)) = [(e.sender, d)] := by
      rw [List.filter_comm, filter_fst_eq hnodup hask]
      simp
    rw [hf.tick ht, hd', List.filter_cons_of_neg (by simpa using hne), List.filter_map]
    show (List.filter _ _).map _ = _
    have hcomp : ((fun r : ℤ × ClockServerMsg => decide (r.1 = e.sender)) ∘ fun r : ℤ × U32 =>
        (r.1, ({ f.message with ticks := d } : ClockServerMsg))) =
        fun r => decide (r.1 = e.sender) := rfl
    rw [hcomp, hone]
    rfl

/-- **The clock server wakes every client exactly once and exactly on time**, in the order of
arrival among those of one tick; it answers every other message at once, loses no request and
answers none twice, and it always returns to its `Receive`. -/
theorem clock_server_on_time (msg₀ : ClockServerMsg) (h : List ClockExchange) (s : ClockServer)
    (run : Serves clockServer (clockServerInit msg₀) h s) (hl : Stepwise Legal h) :
    (∀ p e q, h = p ++ e :: q → Answered p e ∧
      ∀ d, deadline (nowAfter p) e.message = some d → nowAfter p < d → WokenOnTime p e q d) ∧
    (∀ c, requests h c = answers h c + if c ∈ waiting h then 1 else 0) ∧
    (∀ c, c ∈ waiting h ↔ ∃ d, (c, d) ∈ asked h) ∧
    (∀ e, Legal h e → ∃ s' rs, clockServer s e.sender e.message = .ok (s', rs)) := by
  have hm : Stepwise Manageable h := hl.mono fun _ _ => Legal.manageable
  obtain ⟨a, hrep, ha, hans⟩ := ClockServer.onSchedule run hm
  refine ⟨fun p e q hh => ⟨(hans p e q hh).1, fun d hd hlt =>
    ClockServer.wokenOnTime run hm hh hd hlt⟩, requests_eq fun p e q hh =>
      ⟨(hl p e q hh).patient, (hans p e q hh).2⟩, fun c => ?_, fun e he => ?_⟩
  · rw [ha.waits, List.mem_toFinset, mem_map_fst]
  · obtain ⟨s', hok, -⟩ := hrep.step e.sender e.message (ha.room he.manageable hrep.length_le)
    exact ⟨s', _, hok⟩

/-- Client 7 waits for two ticks and client 8 for the first; the notifier is client 3. -/
def delayExample : List ClockExchange :=
  [⟨7, ⟨2, 2⟩, []⟩, ⟨8, ⟨3, 1⟩, []⟩, ⟨3, ⟨0, 0⟩, [(3, ⟨0, 0⟩), (8, ⟨0, 1⟩)]⟩,
    ⟨3, ⟨0, 0⟩, [(3, ⟨0, 0⟩), (7, ⟨0, 2⟩)]⟩]

theorem delayExample_legal : Stepwise Legal delayExample :=
  stepwise_snoc (h := [_, _, _]).mpr ⟨stepwise_snoc (h := [_, _]).mpr
    ⟨stepwise_snoc (h := [_]).mpr ⟨stepwise_snoc (h := []).mpr ⟨stepwise_nil,
      ⟨by decide, by decide, fun _ _ _ => by decide, by decide⟩⟩,
      ⟨by decide, by decide, fun _ _ _ => by decide, by decide⟩⟩,
      ⟨by decide, by decide, fun _ _ _ => by decide, by decide⟩⟩,
      ⟨by decide, by decide, fun _ _ _ => by decide, by decide⟩⟩

theorem clock_server_on_time_run :
    ∃ s, Serves clockServer (clockServerInit ⟨0, 0⟩) delayExample s ∧
      WokenOnTime [] ⟨7, ⟨2, 2⟩, []⟩ (delayExample.drop 1) 2 := by
  have hrun : returns (serve clockServer (clockServerInit ⟨0, 0⟩)
      [(7, ⟨2, 2⟩), (8, ⟨3, 1⟩), (3, ⟨0, 0⟩), (3, ⟨0, 0⟩)])
      (fun r => decide (r.1 = delayExample)) = true := by decide +kernel
  obtain ⟨⟨h, s⟩, hserve, hh⟩ := returns_iff.mp hrun
  obtain rfl : h = delayExample := of_decide_eq_true hh
  have run := serves_of_serve hserve
  exact ⟨s, run, ((clock_server_on_time ⟨0, 0⟩ delayExample s run delayExample_legal).1
    [] ⟨7, ⟨2, 2⟩, []⟩ (delayExample.drop 1) rfl).2 2 (by decide) (by decide)⟩

end RealtimeKernel
