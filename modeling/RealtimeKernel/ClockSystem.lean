import RealtimeKernel.ClockTasks

/-!
# The clock server on the kernel

A client of the clock server is blocked by the kernel from the moment its message is delivered until
the server replies to it, so the tids that the server keeps in its delay queue, or still owes a
reply, are those of live tasks in state `WATIREPLY` that the server has received.  This bounds the
delay queue by the number of tasks.  The notifier is one of these clients, and each of its ticks can
be followed from the interrupt to the server's counter.
-/

namespace RealtimeKernel

open Lib

/-! ### The other tasks -/

/-- What is asked of an iteration after `p`: a task other than the server replies only to tasks that
wait for a reply and not to those whose message the server has received, and what the server
receives is a message of full length with an action it knows. -/
structure Civil (f : ServerFrame) (server : TaskPtr) (p : List (Iter Kernel Trap))
    (i : Iter Kernel Trap) : Prop where
  reply : i.mid.currentTask ≠ some server → i.input.syscall = some .reply →
    ∀ t, target i.mid i.input = some t →
      (i.mid.task t).state = .watireply ∧ receivedBy p t ≠ some server
  message : ∀ t, delivery i = some (t, server) →
    (loadMsg i.next.mem f.msg).kind ≠ none ∧ toInt32 ((i.mid.task t).x 2) = clockServerMsgSize

/-! ### The invariant -/

/-- The client with this tid is blocked until the server replies to it. -/
def Owes (server : TaskPtr) (p : List (Iter Kernel Trap)) (a : AbsKernel) (tid : ℤ) : Prop :=
  ∃ t ∈ a.jobq, (a.task t).tid = tid ∧ (a.task t).state = .watireply ∧
    receivedBy p t = some server

/-- The descriptor of the server agrees with its place. -/
def ServerAt.Fits (f : ServerFrame) (t : Task) : ServerAt → Prop
  | .calling _ => t.state.beforeReady = false
  | .given _ _ => t.state.beforeReady = false
  | .blocked => t.state = .waitreceive ∧ t.x 0 = f.tid ∧ t.x 1 = f.msg ∧
      toInt32 (t.x 2) = clockServerMsgSize
  | .stopped => False

/-- The server is in its loop, and what it owes is owed to blocked clients. -/
structure Serving (f : ServerFrame) (msg₀ : ClockServerMsg) (server : TaskPtr)
    (p : List (Iter Kernel Trap)) (σ : ServerTask) (a : AbsKernel) : Prop where
  live : server ∈ a.jobq
  place : σ.place.Fits f (a.task server)
  run : Serves clockServer (clockServerInit msg₀) σ.handled σ.vars
  legal : Stepwise Manageable σ.handled
  nodup : σ.owed.Nodup
  owes : ∀ tid ∈ σ.owed, Owes server p a tid
  known : ∀ tid msg, σ.place = .given tid msg → msg.kind ≠ none

section Handling

variable {f : ServerFrame} {msg₀ : ClockServerMsg} {server : TaskPtr} {p : List (Iter Kernel Trap)}
  {σ : ServerTask} {a : AbsKernel} {tid : ℤ} {msg : ClockServerMsg}

/-- What is owed is owed to at most as many clients as there are tasks. -/
theorem Serving.card_le (hs : Serving f msg₀ server p σ a) (hw : a.WellFormed) {w : Finset ℤ}
    (hsub : ∀ c ∈ w, c ∈ σ.owed) : w.card ≤ memoryPoolChunks := by
  have himage : w ⊆ a.jobq.toFinset.image fun t => (a.task t).tid := by
    intro c hc
    obtain ⟨t, ht, htid, -⟩ := hs.owes c (hsub c hc)
    exact Finset.mem_image.mpr ⟨t, List.mem_toFinset.mpr ht, htid⟩
  have hroom := hw.jobq_room
  calc w.card ≤ (a.jobq.toFinset.image fun t => (a.task t).tid).card := Finset.card_le_card himage
    _ ≤ a.jobq.toFinset.card := Finset.card_image_le
    _ ≤ a.jobq.length := List.toFinset_card_le _
    _ ≤ memoryPoolChunks := by
      simp only [maxTaskNum, memoryPoolChunks] at hroom ⊢
      omega

/-- The server can rely on a message from a client that it owes nothing else. -/
theorem Serving.manageable (hs : Serving f msg₀ server p σ a) (hw : a.WellFormed)
    (hplace : σ.place = .given tid msg) (replies : ClockReplies) :
    Manageable σ.handled ⟨tid, msg, replies⟩ := by
  obtain ⟨clock, -, hc, -⟩ := ClockServer.onSchedule hs.run hs.legal
  have howed : σ.owed = (asked σ.handled).map Prod.fst ++ [tid] := by
    simp [ServerTask.owed, ServerAt.pending, hplace]
  have hnot : tid ∉ (asked σ.handled).map Prod.fst := by
    have hnd := hs.nodup
    rw [howed] at hnd
    intro hin
    exact (List.nodup_append.mp hnd).2.2 tid hin tid (by simp) rfl
  refine ⟨hs.known tid msg hplace, ?_, fun d hd hlt => ?_⟩
  · show tid ∉ waiting σ.handled
    rw [hc.waits, List.mem_toFinset]
    exact hnot
  · apply hs.card_le hw
    intro c hc'
    rw [howed]
    rcases Finset.mem_insert.mp hc' with rfl | hc'
    · simp
    · rw [hc.waits, List.mem_toFinset] at hc'
      exact List.mem_append_left _ hc'

/-- The tid of a task that is not blocked in state `WATIREPLY` is not owed a reply. -/
theorem Serving.not_owed (hs : Serving f msg₀ server p σ a) (hw : a.WellFormed) {t : TaskPtr}
    (ht : t ∈ a.jobq) (hstate : (a.task t).state ≠ .watireply) : (a.task t).tid ∉ σ.owed := by
  intro hin
  obtain ⟨u, hu, htid, hwait, -⟩ := hs.owes _ hin
  rw [hw.tid_inj u hu t ht htid] at hwait
  exact hstate hwait

/-- **The body of the loop** does not fail, and afterwards the server owes what it owed before or
less. -/
theorem Serving.handles_given (hs : Serving f msg₀ server p σ a) (hw : a.WellFormed)
    (hplace : σ.place = .given tid msg) :
    ∃ vars replies, serverHandles σ =
        ⟨σ.handled ++ [⟨tid, msg, replies⟩], vars, .calling replies⟩ ∧
      Serving f msg₀ server p (serverHandles σ) a ∧
      Answered σ.handled ⟨tid, msg, replies⟩ ∧ Fair σ.handled ⟨tid, msg, replies⟩ := by
  obtain ⟨clock, hrep, hc, -⟩ := ClockServer.onSchedule hs.run hs.legal
  have hman := hs.manageable hw hplace
  have hroom : (clock.step tid msg).1.queue.length ≤ memoryPoolChunks :=
    hc.room (hman []) hrep.length_le
  obtain ⟨vars, hok, -⟩ := hrep.step tid msg hroom
  let replies := (clock.step tid msg).2
  let e : ClockExchange := ⟨tid, msg, replies⟩
  have heq : serverHandles σ = ⟨σ.handled ++ [e], vars, .calling replies⟩ := by
    unfold serverHandles
    rw [hplace]
    simp only [hok]
    rfl
  have hrun : Serves clockServer (clockServerInit msg₀) (σ.handled ++ [e]) vars := hs.run.snoc hok
  have hlegal : Stepwise Manageable (σ.handled ++ [e]) := stepwise_snoc.mpr ⟨hs.legal, hman replies⟩
  obtain ⟨clock', -, hc', hfair⟩ := ClockServer.onSchedule hrun hlegal
  obtain ⟨hans, hfair⟩ := (stepwise_snoc.mp hfair).2
  have howed : σ.owed = (asked σ.handled).map Prod.fst ++ [tid] := by
    simp [ServerTask.owed, ServerAt.pending, hplace]
  have hold : ∀ c, c = tid ∨ c ∈ waiting σ.handled → c ∈ σ.owed := by
    intro c hin
    rw [howed]
    rcases hin with rfl | hin
    · simp
    · rw [hc.waits, List.mem_toFinset] at hin
      exact List.mem_append_left _ hin
  have hafter : ∀ c, c ∈ (asked (σ.handled ++ [e])).map Prod.fst ↔
      (c = tid ∨ c ∈ waiting σ.handled) ∧ c ∉ replies.map Prod.fst := by
    intro c
    rw [← List.mem_toFinset, ← hc'.waits]
    exact mem_waiting_snoc
  refine ⟨vars, replies, heq, ?_, hans, hfair⟩
  rw [heq]
  refine ⟨hs.live, ?_, hrun, hlegal, ?_, fun c hin => ?_, fun tid₁ msg₁ h₁ => by cases h₁⟩
  · have hplace' := hs.place
    rw [hplace] at hplace'
    exact hplace'
  · apply List.nodup_append.mpr
    refine ⟨hc'.nodup, hfair.nodup, fun c hin c' hin' heq => ?_⟩
    subst heq
    exact ((hafter c).mp hin).2 hin'
  · rcases List.mem_append.mp hin with hin | hin
    · exact hs.owes c (hold c ((hafter c).mp hin).1)
    · exact hs.owes c (hold c (hfair.mem c hin))

end Handling

/-! ### On the way to the handler -/

section Enters

variable {f : ServerFrame} {msg₀ : ClockServerMsg} {server c : TaskPtr}
  {p : List (Iter Kernel Trap)} {σ : ServerTask} {a m : AbsKernel} {tid : ℤ} {trap : Trap}

theorem Owes.enters (h : Owes server p a tid) (ho : a.Orderly) (he : AbsKernel.Enters a trap c m) :
    Owes server p m tid := by
  obtain ⟨t, ht, htid, hwait, hby⟩ := h
  obtain ⟨hjobq, -, htids, -⟩ := he.traffic
  obtain ⟨-, hstate, -⟩ := he.blocked ho (t := t) (by rw [hwait]; rfl)
  exact ⟨t, hjobq ▸ ht, (htids t).trans htid, hstate.trans hwait, hby⟩

theorem Serving.enters (hs : Serving f msg₀ server p σ a) (ho : a.Orderly)
    (he : AbsKernel.Enters a trap c m) : Serving f msg₀ server p σ m := by
  obtain ⟨hjobq, -, -, -⟩ := he.traffic
  obtain ⟨-, -, hbefore, -⟩ := he.keeps ho server
  refine ⟨hjobq ▸ hs.live, ?_, hs.run, hs.legal, hs.nodup,
    fun tid htid => (hs.owes tid htid).enters ho he, hs.known⟩
  have hplace := hs.place
  cases hp : σ.place with
  | calling replies =>
    rw [hp] at hplace
    exact hbefore.trans hplace
  | given tid msg =>
    rw [hp] at hplace
    exact hbefore.trans hplace
  | blocked =>
    rw [hp] at hplace
    obtain ⟨hwait, hregs⟩ := hplace
    obtain ⟨-, hstate, hx⟩ := he.blocked ho (t := server) (by rw [hwait]; rfl)
    refine ⟨hstate.trans hwait, ?_⟩
    rw [hx]
    exact hregs
  | stopped =>
    rw [hp] at hplace
    exact absurd hplace id

end Enters

/-! ### Through the handler -/

theorem Rep.returned_eq {k : Kernel} {a : AbsKernel} (h : Rep k a) (t : TaskPtr) :
    returned k t = !(a.task t).state.beforeReady := by
  rw [returned, h.state_eq]

theorem Rep.returnValue_eq {k : Kernel} {a : AbsKernel} (h : Rep k a) {t : TaskPtr} {v : U64}
    (hp : a.passing t = some v) : returnValue k t = toInt32 v := by
  unfold AbsKernel.passing at hp
  rw [h.task_eq] at hp
  unfold returnValue
  split at hp
  · rename_i hflag
    cases hp
    exact congrArg toInt32 (if_pos hflag)
  · cases hp

/-- The iteration `i`, in which the task `c` traps, with the states without pointers before and
after the handler. -/
structure HandlerStep (img : Image) (i : Iter Kernel Trap) (c : TaskPtr) (m a' : AbsKernel) :
    Prop where
  mid : Rep i.mid m
  next : Rep i.next a'
  orderly : m.Orderly
  current : m.currentTask = some c
  running : (m.task c).state = .running
  regs : (m.task c).x = i.input.x
  mem : m.mem = i.input.mem
  replyOk : m.ReplyOk i.input
  effect : AbsKernel.Effect img m c i.input a'

section Handler

variable {img : Image} {f : ServerFrame} {msg₀ : ClockServerMsg} {server c t : TaskPtr}
  {p : List (Iter Kernel Trap)} {i : Iter Kernel Trap} {σ : ServerTask} {m a' : AbsKernel} {tid : ℤ}

namespace HandlerStep

open AbsKernel

theorem current_eq (h : HandlerStep img i c m a') : i.mid.currentTask = some c := by
  rw [← h.mid.currentTask_eq, h.current]

theorem fate (h : HandlerStep img i c m a') (ht : t ∈ m.jobq) (htc : t ≠ c) :
    AbsKernel.Fate m c i.input a' t :=
  h.effect.fate h.orderly h.current h.regs h.replyOk ht htc

theorem deed (h : HandlerStep img i c m a') : AbsKernel.Deed img m c a' i.input.syscall :=
  h.effect.deed h.orderly h.current h.running

/-- A live task that does not exit keeps its tid, its registers and its parent. -/
theorem keeps (h : HandlerStep img i c m a') (ht : t ∈ m.jobq)
    (hexit : t = c → i.input.syscall ≠ some .exit) :
    t ∈ a'.jobq ∧ (a'.task t).tid = (m.task t).tid ∧ (a'.task t).x = (m.task t).x ∧
      (a'.task t).parentTid = (m.task t).parentTid := by
  have hlive := h.effect.live h.orderly.toWellFormed ht hexit
  obtain ⟨hx, htid⟩ := h.effect.kept h.orderly.toWellFormed ht hlive
  exact ⟨hlive, htid, hx, h.effect.parentTid h.orderly.toWellFormed ht hlive⟩

theorem delivery_eq (h : HandlerStep img i c m a') {s : TaskPtr}
    (before : (m.task s).state ≠ .watireply) (after : (a'.task s).state = .watireply) :
    ∃ r, delivery i = some (s, r) ∧
      (i.input.syscall = some .send ∧ s = c ∧ m.getTaskByTid (toInt32 ((m.task c).x 0)) = some r ∨
        i.input.syscall = some .receive ∧ r = c) :=
  (h.effect.traffic h.orderly.toWellFormed h.current h.running).delivery_eq h.mid h.next h.current
    h.regs before after

/-- A message is delivered by a Send to a task that waits for one, or by a Receive. -/
theorem of_delivery (h : HandlerStep img i c m a') {s r : TaskPtr} (hd : delivery i = some (s, r)) :
    i.input.syscall = some .send ∧ (m.task r).state = .waitreceive ∧ (a'.task r).state = .ready ∨
      i.input.syscall = some .receive ∧ r = c ∧ (a'.task s).state = .watireply ∧
        (m.task s).state ≠ .watireply := by
  obtain ⟨before, after⟩ := delivery_before hd
  rw [← h.mid.state_eq] at before
  rw [← h.next.state_eq] at after
  obtain ⟨r', hd', hr⟩ := h.delivery_eq before after
  obtain rfl : r' = r := by
    have := hd'.symm.trans hd
    simpa using this
  rcases hr with ⟨call, rfl, lookup⟩ | ⟨call, hrc⟩
  · left
    have hdeed := h.deed
    rw [call] at hdeed
    generalize ha : a' = b at hdeed
    cases hdeed with
    | noTask hl =>
      rw [lookup] at hl
      cases hl
    | @direct r hl state =>
      obtain rfl := Option.some.inj (lookup.symm.trans hl)
      have hne : r' ≠ s := by
        rintro rfl
        rw [h.running] at state
        cases state
      refine ⟨call, state, ?_⟩
      rw [setState_state, if_neg hne, makeReady_task, setState_state, if_pos rfl]
    | queued =>
      rw [ha, setState_state, if_pos rfl] at after
      cases after
    | full =>
      rw [ha, assign_state] at after
      exact absurd after before
  · exact Or.inr ⟨call, hrc, after, before⟩

end HandlerStep

/-- A client goes on waiting for the server unless this iteration replies to it. -/
theorem Owes.handled (ho : Owes server p m tid) (h : HandlerStep img i c m a')
    (hnot : i.input.syscall = some .reply → ∀ t,
      m.getTaskByTid (toInt32 ((m.task c).x 0)) = some t → (m.task t).tid ≠ tid) :
    Owes server (p ++ [i]) a' tid := by
  obtain ⟨t, ht, htid, hwait, hby⟩ := ho
  have htc : t ≠ c := by
    rintro rfl
    rw [h.running] at hwait
    cases hwait
  obtain ⟨hlive, htid', -, -⟩ := h.keeps ht fun he => absurd he htc
  have hstate : (a'.task t).state = .watireply := by
    cases h.fate ht htc with
    | stays state => exact state.trans hwait
    | woken cause was =>
      rw [hwait] at was
      cases was
    | handed call lookup was =>
      rw [hwait] at was
      cases was
    | picked call ring was =>
      rw [hwait] at was
      cases was
    | answered call lookup => exact absurd htid (hnot call t lookup)
  refine ⟨t, hlive, htid'.trans htid, hstate, ?_⟩
  rw [receivedBy_snoc_of_waiting (by rw [← h.mid.state_eq]; exact hwait)]
  exact hby

/-- A sender whose message is delivered to the server is owed a reply. -/
theorem Owes.delivered (h : HandlerStep img i c m a') {s : TaskPtr} (hs : s ∈ m.jobq)
    (hexit : s = c → i.input.syscall ≠ some .exit) (after : (a'.task s).state = .watireply)
    (hd : delivery i = some (s, server)) : Owes server (p ++ [i]) a' (m.task s).tid := by
  obtain ⟨hlive, htid, -, -⟩ := h.keeps hs hexit
  refine ⟨s, hlive, htid, after, ?_⟩
  rw [receivedBy_snoc, hd]
  exact if_pos rfl

/-- A message of full length reaches the variables of the server with the tid of its sender. -/
theorem loadInt_delivered {s : TaskPtr} (hx : (m.task server).x 0 = f.tid ∧
      (m.task server).x 1 = f.msg ∧ toInt32 ((m.task server).x 2) = clockServerMsgSize)
    (hlen : toInt32 ((m.task s).x 2) = clockServerMsgSize) (hw : m.WellFormed) (hs : s ∈ m.jobq) :
    loadInt (m.delivered s server) f.tid = (m.task s).tid ∧ m.deliveredLen s server = 8 := by
  obtain ⟨h₀, h₁, h₂⟩ := hx
  have hlen' : m.deliveredLen s server = 8 := by
    unfold AbsKernel.deliveredLen
    rw [hlen, h₂]
    rfl
  refine ⟨?_, hlen'⟩
  obtain ⟨hl, hu⟩ := hw.tid_lt hs
  simp only [maxTaskNum] at hu
  have hbytes : load32 (m.delivered s server) f.tid =
      load32 (storeInt m.mem f.tid (m.task s).tid) f.tid := by
    apply load32_congr
    intro j hj
    unfold AbsKernel.delivered AbsKernel.copied
    rw [hlen, h₂, h₀, h₁]
    apply copyBytes_of_ne
    intro j' hj'
    exact f.apart j hj j' hj'
  unfold loadInt
  rw [hbytes, storeInt, load32_store32, BitVec.toInt_ofInt, Int.bmod_def]
  norm_num
  omega

/-- The server only blocks in Receive. -/
theorem ServerAt.Fits.state {place : ServerAt} {t : Task} (h : place.Fits f t) :
    t.state.beforeReady = false ∨ place = .blocked ∧ t.state = .waitreceive := by
  cases place with
  | calling replies => exact Or.inl h
  | given tid msg => exact Or.inl h
  | blocked => exact Or.inr ⟨rfl, h.1⟩
  | stopped => exact absurd h id

theorem ServerAt.Fits.congr {place : ServerAt} {t t' : Task} (h : place.Fits f t)
    (hstate : t'.state = t.state) (hx : t'.x = t.x) : place.Fits f t' := by
  cases place with
  | calling replies => exact (congrArg TaskState.beforeReady hstate).trans h
  | given tid msg => exact (congrArg TaskState.beforeReady hstate).trans h
  | blocked =>
    show t'.state = .waitreceive ∧ _
    rw [hstate, hx]
    exact h
  | stopped => exact absurd h id

/-- A Reply of another task is not to a client of the server. -/
theorem Owes.not_answered (ho : Owes server p m tid) (h : HandlerStep img i c m a')
    (hcs : c ≠ server) (hcivil : Civil f server p i) :
    i.input.syscall = some .reply → ∀ t,
      m.getTaskByTid (toInt32 ((m.task c).x 0)) = some t → (m.task t).tid ≠ tid := by
  intro call t lookup htid
  obtain ⟨u, hu, hutid, -, hby⟩ := ho
  have htj := AbsKernel.WellFormed.mem_of_lookup lookup
  have htu : t = u := h.orderly.tid_inj t htj u hu (htid.trans hutid.symm)
  have hcur : i.mid.currentTask ≠ some server := by
    rw [h.current_eq]
    exact fun he => hcs (Option.some.inj he)
  rw [h.regs] at lookup
  apply (hcivil.reply hcur call t ((h.mid.target_eq i.input).trans lookup)).2
  rw [htu, hby]

/-- A message that the server receives has full length. -/
theorem HandlerStep.length_eq (h : HandlerStep img i c m a') (hcivil : Civil f server p i)
    {s : TaskPtr} (hd : delivery i = some (s, server)) :
    toInt32 ((m.task s).x 2) = clockServerMsgSize := by
  rw [h.mid.x_eq]
  exact (hcivil.message s hd).2

/-- Where an iteration takes the server. -/
inductive ServerMove (f : ServerFrame) (server : TaskPtr) (i : Iter Kernel Trap) (σ : ServerTask)
    (m a' : AbsKernel) : ServerTask → Prop
  | stays (quiet : ∀ s, delivery i ≠ some (s, server))
      (silent : i.mid.currentTask = some server → i.input.syscall ≠ some .reply) :
      ServerMove f server i σ m a' σ
  | waits (place : σ.place = .calling []) (quiet : ∀ s, delivery i ≠ some (s, server)) :
      ServerMove f server i σ m a' { σ with place := .blocked }
  /-- It is given the message of `s`. -/
  | given {s : TaskPtr} (place : σ.place = .blocked ∨ σ.place = .calling []) (live : s ∈ m.jobq)
      (before : (m.task s).state ≠ .watireply) (after : (a'.task s).state = .watireply)
      (arrives : delivery i = some (s, server)) :
      ServerMove f server i σ m a'
        { σ with place := .given (m.task s).tid (loadMsg i.next.mem f.msg) }
  /-- It replies to `t`. -/
  | replies {t : TaskPtr} {msg : ClockServerMsg} {replies : ClockReplies}
      (place : σ.place = .calling (((m.task t).tid, msg) :: replies))
      (client : m.getTaskByTid (toInt32 ((m.task server).x 0)) = some t)
      (ready : (a'.task t).state = .ready)
      (passed : a'.passing t = some (ofInt (m.repliedLen server t)))
      (len : toInt32 ((m.task server).x 2) = clockServerMsgSize)
      (quiet : ∀ s, delivery i ≠ some (s, server)) :
      ServerMove f server i σ m a' { σ with place := .calling replies }

/-- **A delivery to the server** lets its Receive return, and the server owes the sender a reply. -/
theorem Serving.given (hs : Serving f msg₀ server p σ m) (h : HandlerStep img i c m a')
    (hcivil : Civil f server p i) {s : TaskPtr} (hsj : s ∈ m.jobq)
    (hexit : s = c → i.input.syscall ≠ some .exit)
    (hplace : σ.place = .blocked ∨ σ.place = .calling [])
    (hargs : (m.task server).x 0 = f.tid ∧ (m.task server).x 1 = f.msg ∧
      toInt32 ((m.task server).x 2) = clockServerMsgSize)
    (hbefore : (m.task s).state ≠ .watireply) (hafter : (a'.task s).state = .watireply)
    (hd : delivery i = some (s, server)) (hlive : server ∈ a'.jobq)
    (hawake : (a'.task server).state.beforeReady = false)
    (hpassed : a'.passing server = some (ofInt (m.deliveredLen s server)))
    (hmem : a'.mem = m.delivered s server)
    (howes : ∀ tid ∈ σ.owed, Owes server (p ++ [i]) a' tid) :
    Serving f msg₀ server (p ++ [i]) (serverReceives f server i.next σ) a' ∧
      ServerMove f server i σ m a' (serverReceives f server i.next σ) := by
  have hw := h.orderly.toWellFormed
  obtain ⟨hload, hdlen⟩ := loadInt_delivered hargs (h.length_eq hcivil hd) hw hsj
  have hret : returned i.next server = true := by
    rw [h.next.returned_eq, hawake]
    rfl
  have hvalue : returnValue i.next server = 8 := by
    rw [h.next.returnValue_eq hpassed, hdlen]
    decide
  have hmem' : i.next.mem = m.delivered s server := by rw [← h.next.mem_eq, hmem]
  let σ' : ServerTask := { σ with place := .given (m.task s).tid (loadMsg i.next.mem f.msg) }
  have hσ' : serverReceives f server i.next σ = σ' := by
    unfold serverReceives
    rw [if_pos hret, hvalue, if_neg (by decide)]
    show ({ σ with place := .given (loadInt i.next.mem f.tid) _ } : ServerTask) = _
    rw [hmem', hload, ← hmem']
  have howed : σ'.owed = σ.owed ++ [(m.task s).tid] := by
    have hnone : σ.owed = (asked σ.handled).map Prod.fst := by
      rcases hplace with hplace | hplace
      · simp [ServerTask.owed, ServerAt.pending, hplace]
      · simp [ServerTask.owed, ServerAt.pending, hplace]
    rw [hnone]
    rfl
  rw [hσ']
  refine ⟨⟨hlive, hawake, hs.run, hs.legal, ?_, fun tid htid => ?_, ?_⟩,
    .given hplace hsj hbefore hafter hd⟩
  · rw [howed]
    refine List.nodup_append.mpr
      ⟨hs.nodup, List.nodup_singleton _, fun tid hin tid' hin' he => ?_⟩
    rw [List.mem_singleton] at hin'
    rw [he, hin'] at hin
    exact hs.not_owed hw hsj hbefore hin
  · rw [howed, List.mem_append, List.mem_singleton] at htid
    rcases htid with htid | rfl
    · exact howes tid htid
    · exact Owes.delivered h hsj hexit hafter hd
  · rintro tid msg he
    cases he
    exact (hcivil.message s hd).1

/-- **An iteration of another task** leaves the server where it is, or hands it a message of that
task. -/
theorem Serving.bystander (hs : Serving f msg₀ server p σ m) (h : HandlerStep img i c m a')
    (hcs : c ≠ server) (hcivil : Civil f server p i) :
    ∃ σ', serverStep f server false i σ = some σ' ∧ Serving f msg₀ server (p ++ [i]) σ' a' ∧
      ServerMove f server i σ m a' σ' := by
  have hcur : i.mid.currentTask ≠ some server := by
    rw [h.current_eq]
    exact fun he => hcs (Option.some.inj he)
  obtain ⟨hlive, -, hx, -⟩ := h.keeps hs.live fun he => absurd he.symm hcs
  have howes : ∀ tid ∈ σ.owed, Owes server (p ++ [i]) a' tid := fun tid htid =>
    (hs.owes tid htid).handled h ((hs.owes tid htid).not_answered h hcs hcivil)
  have hblocked : σ.place = .blocked →
      serverStep f server false i σ = some (serverReceives f server i.next σ) := by
    intro hp
    unfold serverStep
    rw [if_neg hcur, hp]
  have hfree : σ.place ≠ .blocked → serverStep f server false i σ = some σ := by
    intro hp
    unfold serverStep
    rw [if_neg hcur]
    cases hq : σ.place with
    | blocked => exact absurd hq hp
    | _ => rfl
  have hother : ∀ {s : TaskState}, (m.task server).state = s → s.beforeReady = true →
      s ≠ .waitreceive → False := by
    intro s hst hb hne
    rcases hs.place.state with hfree | ⟨-, hwait⟩
    · rw [hst, hb] at hfree
      cases hfree
    · exact hne (hst.symm.trans hwait)
  cases h.fate hs.live (fun he => hcs he.symm) with
  | stays state =>
    have hquiet : ∀ s, delivery i ≠ some (s, server) := by
      intro s hd
      rcases h.of_delivery hd with ⟨-, was, ready⟩ | ⟨-, hrc, -⟩
      · rw [state, was] at ready
        cases ready
      · exact hcs hrc.symm
    refine ⟨σ, ?_, ⟨hlive, hs.place.congr state hx, hs.run, hs.legal, hs.nodup, howes, hs.known⟩,
      .stays hquiet fun he => absurd he hcur⟩
    by_cases hp : σ.place = .blocked
    · rw [hblocked hp]
      have hwait := hs.place
      rw [hp] at hwait
      have hret : returned i.next server = false := by
        rw [h.next.returned_eq, state, hwait.1]
        rfl
      obtain ⟨handled, vars, place⟩ := σ
      obtain rfl : place = .blocked := hp
      simp [serverReceives, hret]
    · exact hfree hp
  | woken cause was => exact (hother was rfl (by decide)).elim
  | handed call lookup was ready passed mem sender =>
    have hplace : σ.place = .blocked := by
      rcases hs.place.state with hfree | ⟨hplace, -⟩
      · rw [was] at hfree
        cases hfree
      · exact hplace
    have hfits := hs.place
    rw [hplace] at hfits
    have hcj : c ∈ m.jobq := h.orderly.live_of_state (by rw [h.running]; decide)
    have hbefore : (m.task c).state ≠ .watireply := by
      rw [h.running]
      decide
    obtain ⟨r, hd, hr⟩ := h.delivery_eq hbefore sender
    obtain rfl : server = r := by
      rcases hr with ⟨-, -, hlookup⟩ | ⟨hcall, -⟩
      · exact Option.some.inj (lookup.symm.trans hlookup)
      · rw [call] at hcall
        cases hcall
    rw [hblocked hplace]
    exact ⟨_, rfl, hs.given h hcivil hcj (fun _ => by rw [call]; decide) (Or.inl hplace) hfits.2
      hbefore sender hd hlive (by rw [ready]; rfl) passed mem howes⟩
  | picked call ring was => exact (hother was rfl (by decide)).elim
  | answered call lookup was => exact (hother was rfl (by decide)).elim

/-- What the next call of the server is. -/
inductive ServerCall (f : ServerFrame) (server : TaskPtr) (i : Iter Kernel Trap) (σ : ServerTask) :
    ServerTask → Prop
  | receive (place : σ.place = .calling []) (call : i.input.syscall = some .receive)
      (regs : i.input.x 0 = f.tid ∧ i.input.x 1 = f.msg ∧
        toInt32 (i.input.x 2) = clockServerMsgSize) :
      ServerCall f server i σ (serverReceives f server i.next σ)
  | reply {tid : ℤ} {msg : ClockServerMsg} {replies : ClockReplies}
      (place : σ.place = .calling ((tid, msg) :: replies))
      (call : i.input.syscall = some .reply) (client : toInt32 (i.input.x 0) = tid)
      (len : toInt32 (i.input.x 2) = clockServerMsgSize) :
      ServerCall f server i σ { σ with place := .calling replies }

theorem serverCall_cases {σ' : ServerTask} (h : serverCall f server false i σ = some σ') :
    ServerCall f server i σ σ' := by
  unfold serverCall at h
  split at h
  · rename_i hplace
    split at h
    · rename_i hcall
      cases h
      simp only [staleArgument, Bool.false_and, Bool.false_eq_true, or_false] at hcall
      exact .receive hplace hcall.1 hcall.2
    · cases h
  · rename_i tid msg replies hplace
    split at h
    · rename_i hcall
      cases h
      simp only [staleArgument, Bool.false_and, Bool.false_eq_true, or_false] at hcall
      exact .reply hplace hcall.1 hcall.2.1 hcall.2.2.2
    · cases h
  · cases h

/-- The client that the server replies to waits for it. -/
theorem Serving.client (hs : Serving f msg₀ server p σ m) (hw : m.WellFormed) {msg : ClockServerMsg}
    {replies : ClockReplies} (place : σ.place = .calling ((tid, msg) :: replies)) :
    ∃ t, m.getTaskByTid tid = some t ∧ (m.task t).tid = tid ∧ (m.task t).state = .watireply ∧
      receivedBy p t = some server := by
  have hin : tid ∈ σ.owed := by
    rw [ServerTask.owed, place]
    simp [ServerAt.pending]
  obtain ⟨t, ht, htid, hwait, hby⟩ := hs.owes tid hin
  refine ⟨t, ?_, htid, hwait, hby⟩
  rw [← htid]
  exact hw.lookup_eq ht

/-- **The server replies only to tasks that wait for a reply.** -/
theorem Serving.replyOk (hs : Serving f msg₀ server p σ m) (hw : m.WellFormed) {σ' : ServerTask}
    (hcall : ServerCall f server i σ σ') : m.ReplyOk i.input := by
  intro call s lookup
  cases hcall with
  | receive _ hcall =>
    rw [call] at hcall
    cases hcall
  | reply place _ client =>
    obtain ⟨t, hl, -, hwait, -⟩ := hs.client hw place
    rw [client, hl] at lookup
    rwa [← Option.some.inj lookup]

/-- The Receive of the server blocks it, or gives it the first message of its ring. -/
theorem Serving.acts_receive (hs : Serving f msg₀ server p σ m) (h : HandlerStep img i server m a')
    (hcivil : Civil f server p i) (place : σ.place = .calling [])
    (call : i.input.syscall = some .receive)
    (regs : i.input.x 0 = f.tid ∧ i.input.x 1 = f.msg ∧
      toInt32 (i.input.x 2) = clockServerMsgSize) :
    Serving f msg₀ server (p ++ [i]) (serverReceives f server i.next σ) a' ∧
      ServerMove f server i σ m a' (serverReceives f server i.next σ) := by
  obtain ⟨hlive, -, hx, -⟩ := h.keeps hs.live fun _ => by rw [call]; decide
  have howes : ∀ tid ∈ σ.owed, Owes server (p ++ [i]) a' tid := fun tid htid =>
    (hs.owes tid htid).handled h fun hreply => by
      rw [call] at hreply
      cases hreply
  have hregs : (m.task server).x 0 = f.tid ∧ (m.task server).x 1 = f.msg ∧
      toInt32 ((m.task server).x 2) = clockServerMsgSize := by
    rw [h.regs]
    exact regs
  have hdeed := h.deed
  rw [call] at hdeed
  generalize ha : a' = b at hdeed
  cases hdeed with
  | blocked ring =>
    have hstate : (a'.task server).state = .waitreceive := by
      rw [ha, AbsKernel.setState_state, if_pos rfl]
    have hret : returned i.next server = false := by
      rw [h.next.returned_eq, hstate]
      rfl
    have hσ' : serverReceives f server i.next σ = { σ with place := .blocked } := by
      unfold serverReceives
      rw [hret]
      rfl
    have hquiet : ∀ s, delivery i ≠ some (s, server) := by
      intro s hd
      rcases h.of_delivery hd with ⟨hsend, -⟩ | ⟨-, -, after, before⟩
      · rw [call] at hsend
        cases hsend
      · rw [ha, AbsKernel.setState_state] at after
        split at after
        · cases after
        · exact before after
    have howed : σ.owed = ({ σ with place := .blocked } : ServerTask).owed := by
      simp [ServerTask.owed, ServerAt.pending, place]
    rw [hσ', ← ha]
    refine ⟨⟨hlive, ?_, hs.run, hs.legal, ?_, ?_, fun tid msg he => by cases he⟩,
      .waits place hquiet⟩
    · show (_ : TaskState) = .waitreceive ∧ _
      rw [hx]
      exact ⟨hstate, hregs⟩
    · rw [← howed]
      exact hs.nodup
    · rw [← howed]
      exact howes
  | @received s live state ring =>
    have hss : s ≠ server := by
      rintro rfl
      rw [h.running] at state
      cases state
    have hafter : (a'.task s).state = .watireply := by
      rw [ha, AbsKernel.setState_state, if_pos rfl]
    have hbefore : (m.task s).state ≠ .watireply := by
      rw [state]
      decide
    obtain ⟨r, hd, hr⟩ := h.delivery_eq hbefore hafter
    obtain rfl : r = server := by
      rcases hr with ⟨hsend, -⟩ | ⟨-, hr⟩
      · rw [call] at hsend
        cases hsend
      · exact hr
    have hpassed : a'.passing r = some (ofInt (m.deliveredLen s r)) := by
      rw [ha, AbsKernel.passing_setState, AbsKernel.passing_assign, if_pos rfl]
    have hstate : (a'.task r).state = .running := by
      rw [ha, AbsKernel.setState_state, if_neg hss.symm, AbsKernel.assign_state,
        AbsKernel.setMem_task, (AbsKernel.task_nextSender m r r).2.2, h.running]
    have hmem : a'.mem = m.delivered s r := by
      rw [ha]
      rfl
    rw [← ha]
    exact hs.given h hcivil live (fun he => absurd he hss) (Or.inr place) hregs hbefore hafter hd
      hlive (by rw [hstate]; rfl) hpassed hmem howes

/-- A Reply of the server settles the first of the replies that it has decided on. -/
theorem Serving.acts_reply (hs : Serving f msg₀ server p σ m) (h : HandlerStep img i server m a')
    {msg : ClockServerMsg} {replies : ClockReplies}
    (place : σ.place = .calling ((tid, msg) :: replies))
    (call : i.input.syscall = some .reply) (client : toInt32 (i.input.x 0) = tid)
    (len : toInt32 (i.input.x 2) = clockServerMsgSize) :
    Serving f msg₀ server (p ++ [i]) { σ with place := .calling replies } a' ∧
      ServerMove f server i σ m a' { σ with place := .calling replies } := by
  have hdeed := h.deed
  rw [call] at hdeed
  obtain ⟨hlive, -, -, -⟩ := h.keeps hs.live fun _ => by rw [call]; decide
  obtain ⟨t, hl, htid, hwait, hby⟩ := hs.client h.orderly.toWellFormed place
  have hlookup : m.getTaskByTid (toInt32 ((m.task server).x 0)) = some t := by
    rw [h.regs, client]
    exact hl
  have howed : σ.owed = (asked σ.handled).map Prod.fst ++ tid :: replies.map Prod.fst := by
    simp [ServerTask.owed, ServerAt.pending, place]
  have howed' : ({ σ with place := .calling replies } : ServerTask).owed =
      (asked σ.handled).map Prod.fst ++ replies.map Prod.fst := rfl
  have hnd := hs.nodup
  rw [howed] at hnd
  have hts : t ≠ server := by
    rintro rfl
    rw [h.running] at hwait
    cases hwait
  obtain ⟨⟨v, hv⟩, hanswers⟩ := hdeed
  obtain ⟨hready, hpassed⟩ := hanswers t hts hlookup
  have hlen : toInt32 ((m.task server).x 2) = clockServerMsgSize := by
    rw [h.regs]
    exact len
  have hquiet : ∀ s, delivery i ≠ some (s, server) := by
    intro s hd
    rcases h.of_delivery hd with ⟨hsend, -⟩ | ⟨hreceive, -⟩
    · rw [call] at hsend
      cases hsend
    · rw [call] at hreceive
      cases hreceive
  refine ⟨⟨hlive, ?_, hs.run, hs.legal, ?_, fun tid' htid' => ?_, fun tid msg he => by cases he⟩,
    .replies (by rw [htid]; exact place) hlookup hready hpassed hlen hquiet⟩
  · show (a'.task server).state.beforeReady = false
    rw [hv]
    show (m.task server).state.beforeReady = false
    rw [h.running]
    rfl
  · rw [howed']
    exact hnd.sublist (List.Sublist.append_left (List.sublist_cons_self _ _) _)
  · rw [howed'] at htid'
    have hne : tid' ≠ tid := by
      rintro rfl
      have hmid := List.nodup_middle.mp hnd
      exact (List.nodup_cons.mp hmid).1 htid'
    apply Owes.handled (hs.owes tid' ?_) h
    · intro _ t' hl' htid₁
      rw [hlookup] at hl'
      obtain rfl := Option.some.inj hl'
      exact hne (htid₁.symm.trans htid)
    · rw [howed]
      rcases List.mem_append.mp htid' with hin | hin
      · exact List.mem_append_left _ hin
      · exact List.mem_append_right _ (List.mem_cons_of_mem _ hin)

/-- **A call of the server** leaves it serving. -/
theorem Serving.acts (hs : Serving f msg₀ server p σ m) (h : HandlerStep img i server m a')
    {σ' : ServerTask} (hcall : ServerCall f server i σ σ') (hcivil : Civil f server p i) :
    Serving f msg₀ server (p ++ [i]) σ' a' ∧ ServerMove f server i σ m a' σ' := by
  cases hcall with
  | receive place call regs => exact hs.acts_receive h hcivil place call regs
  | reply place call client len => exact hs.acts_reply h place call client len

/-- The server when the trap is handled: before a call its C code has handled the last message. -/
def serverAtTrap (server : TaskPtr) (i : Iter Kernel Trap) (σ : ServerTask) : ServerTask :=
  if i.mid.currentTask = some server ∧ i.input.syscall ≠ none then serverHandles σ else σ

theorem Serving.handles (hs : Serving f msg₀ server p σ m) (hw : m.WellFormed) :
    Serving f msg₀ server p (serverHandles σ) m := by
  cases hplace : σ.place with
  | given tid msg =>
    obtain ⟨vars, replies, -, hs', -⟩ := hs.handles_given hw hplace
    exact hs'
  | _ =>
    have hsame : serverHandles σ = σ := by
      unfold serverHandles
      rw [hplace]
    rw [hsame]
    exact hs

theorem Serving.atTrap (hs : Serving f msg₀ server p σ m) (hw : m.WellFormed) :
    Serving f msg₀ server p (serverAtTrap server i σ) m := by
  unfold serverAtTrap
  split
  · exact hs.handles hw
  · exact hs

/-- The call with which the server traps. -/
theorem serverStep_call {σ' : ServerTask} (hstep : serverStep f server false i σ = some σ')
    (hcur : i.mid.currentTask = some server) (hcall : i.input.syscall ≠ none) :
    serverAtTrap server i σ = serverHandles σ ∧ ServerCall f server i (serverHandles σ) σ' := by
  unfold serverStep at hstep
  rw [if_pos hcur, if_neg hcall] at hstep
  exact ⟨if_pos ⟨hcur, hcall⟩, serverCall_cases hstep⟩

/-- The server does not exit. -/
theorem serverStep_not_exit {σ' : ServerTask} (hstep : serverStep f server false i σ = some σ')
    (hcur : i.mid.currentTask = some server) : i.input.syscall ≠ some .exit := by
  intro hexit
  have hcall : i.input.syscall ≠ none := by
    rw [hexit]
    exact Option.some_ne_none _
  cases (serverStep_call hstep hcur hcall).2 with
  | receive _ call =>
    rw [hexit] at call
    cases call
  | reply _ call =>
    rw [hexit] at call
    cases call

/-- Every Reply of the run is to a task that waits for one. -/
theorem Serving.mid_replyOk (hs : Serving f msg₀ server p σ m) (hw : m.WellFormed)
    (hrep : Rep i.mid m) (hcivil : Civil f server p i) {σ' : ServerTask}
    (hstep : serverStep f server false i σ = some σ') : m.ReplyOk i.input := by
  by_cases hcur : i.mid.currentTask = some server
  · by_cases hcall : i.input.syscall = none
    · intro call
      rw [hcall] at call
      cases call
    · exact (hs.handles hw).replyOk hw (serverStep_call hstep hcur hcall).2
  · intro call t lookup
    rw [hrep.state_eq]
    exact (hcivil.reply hcur call t ((hrep.target_eq i.input).trans lookup)).1

/-- **One iteration** keeps the server in its loop. -/
theorem Serving.step (hs : Serving f msg₀ server p σ m) (h : HandlerStep img i c m a')
    (hcivil : Civil f server p i) {σ' : ServerTask}
    (hstep : serverStep f server false i σ = some σ') :
    Serving f msg₀ server (p ++ [i]) σ' a' ∧
      ServerMove f server i (serverAtTrap server i σ) m a' σ' := by
  have hw := h.orderly.toWellFormed
  by_cases hcs : c = server
  · subst hcs
    by_cases hcall : i.input.syscall = none
    · have hsame : serverAtTrap c i σ = σ := if_neg fun hc => hc.2 hcall
      have hno : ∀ {call : Syscall}, i.input.syscall ≠ some call := by
        intro call he
        rw [hcall] at he
        cases he
      have hdeed := h.deed
      rw [hcall] at hdeed
      have htask : a'.task c = m.task c := hdeed
      obtain ⟨hlive, -⟩ := h.keeps hs.live fun _ => hno
      unfold serverStep at hstep
      rw [if_pos h.current_eq, if_pos hcall] at hstep
      obtain rfl := Option.some.inj hstep
      rw [hsame]
      refine ⟨⟨hlive, htask ▸ hs.place, hs.run, hs.legal, hs.nodup, fun tid htid =>
        (hs.owes tid htid).handled h fun he => absurd he hno, hs.known⟩, .stays ?_ fun _ => hno⟩
      intro s hd
      rcases h.of_delivery hd with ⟨he, -⟩ | ⟨he, -⟩
      · exact hno he
      · exact hno he
    · obtain ⟨hat, hc⟩ := serverStep_call hstep h.current_eq hcall
      rw [hat]
      exact (hs.handles hw).acts h hc hcivil
  · have hcur : ¬ i.mid.currentTask = some server := by
      rw [h.current_eq]
      exact fun he => hcs (Option.some.inj he)
    have hat : serverAtTrap server i σ = σ := if_neg fun hc => hcur hc.1
    obtain ⟨σ₁, hstep₁, hs₁, hmove⟩ := hs.bystander h hcs hcivil
    obtain rfl : σ₁ = σ' := Option.some.inj (hstep₁.symm.trans hstep)
    rw [hat]
    exact ⟨hs₁, hmove⟩

end Handler

end RealtimeKernel
