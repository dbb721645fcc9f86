import RealtimeKernel.Replies

/-!
# The registers a task resumes with

`activate` puts the result of a task into its saved `x0` whenever `should_pass_result` is set, and
nothing ever clears the flag.  So a task that was given a result once is given its latest result at
every later activation, also when its last trap was an interrupt or a call without a result.

Whether a handler assigned a result to a task shows when the handler is run on the state in which
the flag of that task is clear: no handler looks at the flag, and `assign_result` sets it.
-/

namespace RealtimeKernel

open Lib

/-- The result that the handler of `trap` assigns to the task `t`, if it assigns one. -/
def assigned (img : Image) (m : Kernel) (trap : Trap) (t : TaskPtr) : Option U64 :=
  match handleCurrentException img (m.modify t fun u => { u with shouldPassResult := false })
    trap with
  | .ok k => if (k.task t).shouldPassResult then some (k.task t).result else none
  | .error _ => none

/-- The registers saved at the last trap of the task `t`. -/
def savedRegisters (h : List (Iter Kernel Trap)) (t : TaskPtr) : Option (Fin 31 → U64) :=
  h.foldl (fun x i => if i.mid.currentTask = some t then some i.input.x else x) none

/-- The last result that was assigned to the task `t`. -/
def lastResult (img : Image) (h : List (Iter Kernel Trap)) (t : TaskPtr) : Option U64 :=
  h.foldl (fun v i => (assigned img i.mid i.input t).or v) none

/-- The last result that was assigned to the task `t` since its last trap. -/
def resultSince (img : Image) (h : List (Iter Kernel Trap)) (t : TaskPtr) : Option U64 :=
  h.foldl (fun v i => (assigned img i.mid i.input t).or
    (if i.mid.currentTask = some t then none else v)) none

namespace AbsKernel

variable {a a' b m : AbsKernel} {img : Image} {c t : TaskPtr} {trap : Trap} {o : Task}

/-! ### Handlers do not look at the flag -/

/-- The flag of `t` cleared. -/
def unflag (a : AbsKernel) (t : TaskPtr) : AbsKernel :=
  a.modify t fun u => { u with shouldPassResult := false }

section Unflag

variable (a : AbsKernel) (t u : TaskPtr)

@[simp] theorem unflag_state : ((a.unflag t).task u).state = (a.task u).state :=
  modify_field a t _ Task.state rfl u
@[simp] theorem unflag_tid : ((a.unflag t).task u).tid = (a.task u).tid :=
  modify_field a t _ Task.tid rfl u
@[simp] theorem unflag_parentTid : ((a.unflag t).task u).parentTid = (a.task u).parentTid :=
  modify_field a t _ Task.parentTid rfl u
@[simp] theorem unflag_x : ((a.unflag t).task u).x = (a.task u).x :=
  modify_field a t _ Task.x rfl u
@[simp] theorem unflag_priority : ((a.unflag t).task u).priority = (a.task u).priority :=
  modify_field a t _ Task.priority rfl u
@[simp] theorem unflag_memoryBlock :
    ((a.unflag t).task u).memoryBlock = (a.task u).memoryBlock :=
  modify_field a t _ Task.memoryBlock rfl u
@[simp] theorem unflag_senders : ((a.unflag t).task u).senders = (a.task u).senders :=
  modify_field a t _ Task.senders rfl u

@[simp] theorem unflag_getTaskByTid (tid : ℤ) :
    (a.unflag t).getTaskByTid tid = a.getTaskByTid tid := by
  unfold getTaskByTid
  simp only [unflag_tid]
  rfl

theorem unflag_pushable : (a.unflag t).Pushable u ↔ a.Pushable u := by
  constructor
  · rintro ⟨h₁, h₂, h₃⟩
    exact ⟨by simpa using h₁, by simpa [Task.PrioOk] using h₂, h₃⟩
  · rintro ⟨h₁, h₂, h₃⟩
    exact ⟨by simpa using h₁, by simpa [Task.PrioOk] using h₂, h₃⟩

end Unflag

/-- What has become of the result of `t` since its descriptor was `o`: in `a` it is a new one, that
`b`, which started with a clear flag, has too, or it is the old one, and `b` has a clear flag. -/
inductive Tracks (o : Task) (t : TaskPtr) (a b : AbsKernel) : Prop
  | assigned (flag : (a.task t).shouldPassResult = true)
      (flag' : (b.task t).shouldPassResult = true)
      (result : (b.task t).result = (a.task t).result)
  | kept (flag : (a.task t).shouldPassResult = o.shouldPassResult)
      (result : o.shouldPassResult = true → (a.task t).result = o.result)
      (flag' : (b.task t).shouldPassResult = false)

namespace Tracks

theorem unflag (a : AbsKernel) (t : TaskPtr) : Tracks (a.task t) t a (a.unflag t) :=
  .kept rfl (fun _ => rfl) (by simp [AbsKernel.unflag])

theorem congr (h : Tracks o t a b) {a' b' : AbsKernel} (ha : a'.task t = a.task t)
    (hb : b'.task t = b.task t) : Tracks o t a' b' := by
  cases h with
  | assigned flag flag' result => exact .assigned (by rwa [ha]) (by rwa [hb]) (by rwa [ha, hb])
  | kept flag result flag' => exact .kept (by rwa [ha]) (by rwa [ha]) (by rwa [hb])

theorem modify (h : Tracks o t a b) (u : TaskPtr) {f g : Task → Task}
    (hf : (f (a.task u)).shouldPassResult = (a.task u).shouldPassResult ∧
      (f (a.task u)).result = (a.task u).result)
    (hg : (g (b.task u)).shouldPassResult = (b.task u).shouldPassResult ∧
      (g (b.task u)).result = (b.task u).result) :
    Tracks o t (a.modify u f) (b.modify u g) := by
  have ha₁ := modify_field a u f Task.shouldPassResult hf.1 t
  have ha₂ := modify_field a u f Task.result hf.2 t
  have hb₁ := modify_field b u g Task.shouldPassResult hg.1 t
  have hb₂ := modify_field b u g Task.result hg.2 t
  cases h with
  | assigned flag flag' result =>
    exact .assigned (ha₁ ▸ flag) (hb₁ ▸ flag') (by rw [ha₂, hb₂, result])
  | kept flag result flag' => exact .kept (ha₁ ▸ flag) (fun hf => ha₂ ▸ result hf) (hb₁ ▸ flag')

theorem setState (h : Tracks o t a b) (u : TaskPtr) (s : TaskState) :
    Tracks o t (a.setState u s) (b.setState u s) :=
  h.modify u ⟨rfl, rfl⟩ ⟨rfl, rfl⟩

theorem makeReady (h : Tracks o t a b) (u : TaskPtr) :
    Tracks o t (a.makeReady u) (b.makeReady u) :=
  (h.setState u .ready).congr rfl rfl

theorem setMem (h : Tracks o t a b) (mem mem' : Mem) :
    Tracks o t (a.setMem mem) (b.setMem mem') :=
  h.congr rfl rfl

theorem assign (h : Tracks o t a b) (u : TaskPtr) (v : ℤ) :
    Tracks o t (a.assign u v) (b.assign u v) := by
  by_cases hu : u = t
  · subst hu
    exact .assigned (by simp [AbsKernel.assign, assignResult])
      (by simp [AbsKernel.assign, assignResult]) (by simp [AbsKernel.assign, assignResult])
  · have hut : t ≠ u := fun he => hu he.symm
    exact h.congr (by simp [AbsKernel.assign, hut]) (by simp [AbsKernel.assign, hut])

end Tracks

theorem unflag_deliveredLen (a : AbsKernel) (t s r : TaskPtr) :
    (a.unflag t).deliveredLen s r = a.deliveredLen s r := by
  simp only [deliveredLen, unflag_x]

theorem unflag_repliedLen (a : AbsKernel) (t r s : TaskPtr) :
    (a.unflag t).repliedLen r s = a.repliedLen r s := by
  simp only [repliedLen, unflag_x]

/-- **Run with a clear flag, a handler takes the same way** and assigns the same results.  Only the
task that exits is left out. -/
theorem Effect.tracks (he : Effect img a c trap a') (hc : a.currentTask = some c)
    (h : a.WellFormed) (hfree : ∀ u ∈ a.free, (a.task u).shouldPassResult = false)
    (t : TaskPtr) :
    ∃ b, Effect img (a.unflag t) c trap b ∧
      (t ∈ a'.jobq ∨ t ∈ a'.free → Tracks (a.task t) t a' b) := by
  have h₀ := Tracks.unflag a t
  cases he with
  | ignored cause cls => exact ⟨_, .ignored cause cls, fun _ => h₀⟩
  | yielded call => exact ⟨_, .yielded call, fun _ => h₀⟩
  | toldTid call =>
    refine ⟨_, .toldTid call, fun _ => ?_⟩
    rw [unflag_tid]
    exact h₀.assign c _
  | toldParentTid call =>
    refine ⟨_, .toldParentTid call, fun _ => ?_⟩
    rw [unflag_parentTid]
    exact h₀.assign c _
  | @created u free block used call hfree' alloc room push =>
    refine ⟨_, .created call hfree' alloc room ⟨?_, ?_, push.room⟩, fun _ => ?_⟩
    · simp [addTask, newTask, taskInit]
    · simpa [Task.PrioOk, addTask, newTask] using push.prio
    · have h₁ : Tracks (a.task t) t (a.addTask img (toInt32 ((a.task c).x 0)) ((a.task c).x 1)
          (a.task c).tid u free block used) ((a.unflag t).addTask img
          (toInt32 (((a.unflag t).task c).x 0)) (((a.unflag t).task c).x 1)
          ((a.unflag t).task c).tid u free block used) := by
        by_cases htu : t = u
        · subst htu
          have hoff := hfree t (by simp [hfree'])
          exact .kept (by simp [addTask, newTask, taskInit, hoff]) (by simp [hoff])
            (by simp [addTask, newTask, taskInit])
        · exact h₀.congr (by simp [addTask, htu]) (by simp [addTask, htu])
      exact (h₁.makeReady u).assign c _
  | createFailed call hfree' => exact ⟨_, .createFailed call hfree', fun _ => h₀.assign c _⟩
  | @exited block call live hblock =>
    refine ⟨_, .exited call live (by simpa using hblock), fun ht => ?_⟩
    have htc : t ≠ c := by
      rintro rfl
      rcases ht with ht | ht
      · exact (h.jobq_nodup.mem_erase_iff.mp ht).1 rfl
      · exact h.not_free live ht
    exact h₀.congr (by simp [removed, htc]) (by simp [removed, htc])
  | sendNoTask call lookup =>
    exact ⟨_, .sendNoTask call (by simpa using lookup), fun _ => h₀.assign c _⟩
  | @sendDirect r call lookup state push =>
    refine ⟨_, .sendDirect call (by simpa using lookup) (by simpa using state)
      ((unflag_pushable a t r).mpr push), fun _ => ?_⟩
    rw [unflag_deliveredLen]
    exact (((h₀.setMem _ _).assign r _).makeReady r).setState c _
  | @sendQueued r call lookup state room =>
    refine ⟨_, .sendQueued (r := r) call (by simpa using lookup) (by simpa using state)
      (by simpa [registerSender] using room), fun _ => ?_⟩
    exact (h₀.modify r ⟨rfl, rfl⟩ ⟨rfl, rfl⟩).setState c _
  | @sendFull r call lookup state full =>
    exact ⟨_, .sendFull (r := r) call (by simpa using lookup) (by simpa using state)
      (by simpa [registerSender] using full), fun _ => h₀.assign c _⟩
  | receiveBlocked call empty =>
    exact ⟨_, .receiveBlocked call (by simpa using empty), fun _ => h₀.setState c _⟩
  | receiveVanished call nonempty lookup =>
    exact ⟨_, .receiveVanished call (by simpa using nonempty)
      (by simpa [nextSender] using lookup), fun _ => (h₀.modify c ⟨rfl, rfl⟩ ⟨rfl, rfl⟩).assign c _⟩
  | @received s call nonempty lookup state =>
    refine ⟨_, .received (s := s) call (by simpa using nonempty)
      (by simpa [nextSender] using lookup) (by simpa using state), fun _ => ?_⟩
    rw [unflag_deliveredLen]
    exact (((h₀.modify c ⟨rfl, rfl⟩ ⟨rfl, rfl⟩).setMem _ _).assign c _).setState s _
  | replyNoTask call lookup =>
    exact ⟨_, .replyNoTask call (by simpa using lookup), fun _ => h₀.assign c _⟩
  | @replied s call lookup state push =>
    refine ⟨_, .replied (s := s) call (by simpa using lookup) (by simpa using state)
      ((unflag_pushable a t s).mpr push), fun _ => ?_⟩
    rw [unflag_repliedLen]
    exact (((h₀.setMem _ _).assign s _).makeReady s).assign c _
  | @repliedRunning s call lookup state =>
    refine ⟨_, .repliedRunning (s := s) call (by simpa using lookup) (by simpa using state),
      fun _ => ?_⟩
    rw [unflag_repliedLen]
    exact ((h₀.setMem _ _).assign s _).assign c _
  | @awaited i call valid prio room =>
    refine ⟨_, .awaited (i := i) call (by simpa using valid)
      (by simpa [Task.PrioOk] using prio) room, fun _ => ?_⟩
    exact (h₀.setState c _).congr rfl rfl
  | tickIdle cause tick idle => exact ⟨_, .tickIdle cause tick idle, fun _ => h₀.congr rfl rfl⟩
  | @tickWoke chi clo clocks u q cause tick pop state push =>
    refine ⟨_, .tickWoke cause tick pop (by simpa using state)
      ((unflag_pushable a t u).mpr push), fun _ => ?_⟩
    exact (h₀.setState u .ready).congr rfl rfl

/-- No handler changes the saved registers or the tid of a task. -/
theorem Effect.x_tid_eq (he : Effect img a c trap a') (h : a.WellFormed) (t : TaskPtr) :
    ((a'.task t).x = (a.task t).x ∧ (a'.task t).tid = (a.task t).tid) ∨ t ∈ a.free ∨
      t ∉ a'.jobq := by
  by_cases hfree : t ∈ a.free
  · exact Or.inr (Or.inl hfree)
  by_cases hlive : t ∈ a'.jobq
  swap
  · exact Or.inr (Or.inr hlive)
  left
  cases he with
  | ignored => exact ⟨rfl, rfl⟩
  | yielded => exact ⟨rfl, rfl⟩
  | toldTid => simp
  | toldParentTid => simp
  | @created u free block used call hfree' =>
    have htu : t ≠ u := by
      rintro rfl
      exact hfree (by simp [hfree'])
    simp [addTask, htu]
  | createFailed => simp
  | exited call live =>
    have htc : t ≠ c := (h.jobq_nodup.mem_erase_iff.mp hlive).1
    simp [removed, htc]
  | sendNoTask => simp
  | sendDirect => simp
  | @sendQueued r =>
    rw [setState_x, setState_tid, modify_field a r _ Task.x rfl, modify_field a r _ Task.tid rfl]
    exact ⟨rfl, rfl⟩
  | sendFull => simp
  | receiveBlocked => simp
  | receiveVanished =>
    rw [assign_x, assign_tid, (task_nextSender a c t).1, (task_nextSender a c t).2.1]
    exact ⟨rfl, rfl⟩
  | @received s =>
    rw [setState_x, setState_tid, assign_x, assign_tid, setMem_task, (task_nextSender a c t).1,
      (task_nextSender a c t).2.1]
    exact ⟨rfl, rfl⟩
  | replyNoTask => simp
  | replied => simp
  | repliedRunning => simp
  | awaited => exact ⟨setState_x a c _ t, setState_tid a c _ t⟩
  | tickIdle => exact ⟨rfl, rfl⟩
  | tickWoke => simp

/-- A task that is live before and after keeps its saved registers and its tid. -/
theorem Effect.kept (he : Effect img a c trap a') (h : a.WellFormed) {t : TaskPtr}
    (ht : t ∈ a.jobq) (ht' : t ∈ a'.jobq) :
    (a'.task t).x = (a.task t).x ∧ (a'.task t).tid = (a.task t).tid := by
  rcases he.x_tid_eq h t with heq | hfree | hdead
  · exact heq
  · exact absurd ht (h.free_jobq t hfree)
  · exact absurd ht' hdead

/-- On the way to the handler only the registers of the task that trapped change. -/
theorem Enters.results (he : Enters a trap c m) (t : TaskPtr) :
    (m.task t).shouldPassResult = (a.task t).shouldPassResult ∧
      (m.task t).result = (a.task t).result ∧
      (m.task t).x = if t = c then trap.x else (a.task t).x := by
  cases he with
  | @intro a₁ rq hr pop state =>
    have h₁ : (a₁.task t).shouldPassResult = (a.task t).shouldPassResult ∧
        (a₁.task t).result = (a.task t).result ∧ (a₁.task t).x = (a.task t).x := by
      cases hr with
      | running => simp
      | blocked => simp
      | gone => simp
    by_cases htc : t = c
    · subst htc
      simp [dispatch, saveContext, h₁]
    · simp [dispatch, htc, h₁]

end AbsKernel

/-! ### Histories -/

section Histories

variable {img : Image} {h : List (Iter Kernel Trap)} {i : Iter Kernel Trap} {t : TaskPtr}

@[simp] theorem savedRegisters_snoc : savedRegisters (h ++ [i]) t
    = if i.mid.currentTask = some t then some i.input.x else savedRegisters h t := by
  simp [savedRegisters]

@[simp] theorem lastResult_snoc : lastResult img (h ++ [i]) t
    = (assigned img i.mid i.input t).or (lastResult img h t) := by
  simp [lastResult]

@[simp] theorem resultSince_snoc : resultSince img (h ++ [i]) t
    = (assigned img i.mid i.input t).or
      (if i.mid.currentTask = some t then none else resultSince img h t) := by
  simp [resultSince]

/-- A result assigned since the last trap is the last one. -/
theorem lastResult_of_resultSince {v : U64} (hv : resultSince img h t = some v) :
    lastResult img h t = some v := by
  induction h using List.reverseRecOn with
  | nil => simp [resultSince] at hv
  | append_singleton h i ih =>
    rw [resultSince_snoc] at hv
    rw [lastResult_snoc]
    cases ha : assigned img i.mid i.input t with
    | some w => simpa [ha] using hv
    | none =>
      rw [ha, Option.none_or] at hv
      rw [Option.none_or]
      split at hv
      · cases hv
      · exact ih hv

end Histories

theorem Rep.assigned_eq {img : Image} {m : Kernel} {a b : AbsKernel} {trap : Trap} {t : TaskPtr}
    (h : Rep m a) (hb : (a.unflag t).handleCurrentException img trap = .ok b) :
    assigned img m trap t
      = if (b.task t).shouldPassResult then some (b.task t).result else none := by
  have hun : Rep (m.modify t fun u => { u with shouldPassResult := false }) (a.unflag t) :=
    h.modify t rfl rfl rfl
  obtain ⟨k, hk, hkb⟩ := (hun.handleCurrentException img trap).ok_right hb
  unfold assigned
  rw [hk, hkb.task_eq]
  rfl

/-- What the descriptors say about the history. -/
structure Remembers (img : Image) (h : List (Iter Kernel Trap)) (a : AbsKernel) : Prop where
  wellFormed : a.WellFormed
  flag : ∀ t ∈ a.jobq, (a.task t).shouldPassResult = (lastResult img h t).isSome
  result : ∀ t ∈ a.jobq, ∀ v, lastResult img h t = some v → (a.task t).result = v
  saved : ∀ t ∈ a.jobq, ∀ x, savedRegisters h t = some x → (a.task t).x = x
  unused : ∀ t ∈ a.free, (a.task t).shouldPassResult = false ∧ lastResult img h t = none ∧
    savedRegisters h t = none

namespace Remembers

variable {img : Image} {h : List (Iter Kernel Trap)} {a m' a' : AbsKernel} {k m k' : Kernel}
  {c : TaskPtr} {trap : Trap}

/-- A handler either assigned `t` the result it has now, or left it as it was. -/
theorem assigned_cases (hm : m'.WellFormed)
    (hfree : ∀ u ∈ m'.free, (m'.task u).shouldPassResult = false)
    (hrep : Rep m m') (hc : m'.currentTask = some c) (hrun : (m'.task c).state = .running)
    (he : AbsKernel.Effect img m' c trap a') {t : TaskPtr} (ht : t ∈ a'.jobq ∨ t ∈ a'.free) :
    (assigned img m trap t = some (a'.task t).result ∧ (a'.task t).shouldPassResult = true) ∨
    (assigned img m trap t = none ∧
      (a'.task t).shouldPassResult = (m'.task t).shouldPassResult ∧
      ((m'.task t).shouldPassResult = true → (a'.task t).result = (m'.task t).result)) := by
  obtain ⟨b, heb, htr⟩ := he.tracks hc hm hfree t
  have hb := AbsKernel.effect_handle (a := m'.unflag t) hc (by simpa using hrun) heb
  rw [hrep.assigned_eq hb]
  cases htr ht with
  | assigned flag flag' result => exact Or.inl ⟨by rw [if_pos flag', result], flag⟩
  | kept flag result flag' => exact Or.inr ⟨by rw [flag']; rfl, flag, result⟩

theorem step (hr : Remembers img h a) (hrep : Rep m m') (hst : AbsKernel.Step img a trap c m' a') :
    Remembers img (h ++ [⟨k, trap, m, k'⟩]) a' := by
  obtain ⟨hwm, hwa⟩ := hst.wellFormed hr.wellFormed
  obtain ⟨hfree, hjobq, -, htask⟩ := hst.enters.task_free hr.wellFormed
  obtain ⟨hc, hrun, -, -⟩ := hst.enters.current
  have hcur : m.currentTask = some c := by rw [← hrep.currentTask_eq, hc]
  have hoff : ∀ u ∈ m'.free, (m'.task u).shouldPassResult = false := fun u hu => by
    rw [hfree] at hu
    rw [htask u hu]
    exact (hr.unused u hu).1
  -- what the descriptors say at the handler
  have hmid : ∀ t, t ∈ m'.jobq ∨ t ∈ m'.free →
      (m'.task t).shouldPassResult = (lastResult img h t).isSome ∧
        ∀ v, lastResult img h t = some v → (m'.task t).result = v := by
    intro t ht
    obtain ⟨h₁, h₂, -⟩ := hst.enters.results t
    rw [hjobq, hfree] at ht
    rw [h₁, h₂]
    rcases ht with ht | ht
    · exact ⟨hr.flag t ht, hr.result t ht⟩
    · obtain ⟨h₃, h₄, -⟩ := hr.unused t ht
      rw [h₃, h₄]
      exact ⟨rfl, fun v hv => by cases hv⟩
  have hback : ∀ t ∈ a'.jobq, t ∈ m'.jobq ∨ t ∈ m'.free := by
    intro t ht
    cases hst.effect.turnover with
    | exited call live jobq =>
      rw [jobq] at ht
      exact Or.inl (List.mem_of_mem_erase ht)
    | created call jobq free =>
      rw [jobq, List.mem_append, List.mem_singleton] at ht
      exact ht.imp_right fun he => by simp [free, he]
    | kept call jobq => exact Or.inl (jobq ▸ ht)
  refine ⟨hwa, fun t ht => ?_, fun t ht v hv => ?_, fun t ht x hx => ?_, fun t ht => ?_⟩
  · rw [lastResult_snoc]
    rcases assigned_cases hwm hoff hrep hc hrun hst.effect (Or.inl ht) with
      ⟨has, hflag⟩ | ⟨has, hflag, -⟩
    · rw [has, hflag]
      rfl
    · rw [has, hflag, Option.none_or]
      exact (hmid t (hback t ht)).1
  · rw [lastResult_snoc] at hv
    rcases assigned_cases hwm hoff hrep hc hrun hst.effect (Or.inl ht) with
      ⟨has, -⟩ | ⟨has, -, hres⟩
    · rw [has] at hv
      exact Option.some.inj hv
    · rw [has, Option.none_or] at hv
      obtain ⟨hflag, hval⟩ := hmid t (hback t ht)
      rw [hres (by rw [hflag, hv]; rfl)]
      exact hval v hv
  · rw [savedRegisters_snoc] at hx
    simp only [hcur] at hx
    have hxm := (hst.enters.results t).2.2
    rcases hst.effect.x_tid_eq hwm t with ⟨hxa, -⟩ | htf | hdead
    · rw [hxa, hxm]
      by_cases htc : t = c
      · subst htc
        rw [if_pos rfl] at hx ⊢
        exact Option.some.inj hx
      · have hne : (some c : Option TaskPtr) ≠ some t := fun he => htc (Option.some.inj he).symm
        rw [if_neg hne] at hx
        rw [if_neg htc]
        rcases hback t ht with htj | htf
        · exact hr.saved t (hjobq ▸ htj) x hx
        · rw [(hr.unused t (hfree ▸ htf)).2.2] at hx
          cases hx
    · have htc : t ≠ c := fun he => hwm.current_free c hc (he ▸ htf)
      have hne : (some c : Option TaskPtr) ≠ some t := fun he => htc (Option.some.inj he).symm
      rw [if_neg hne, (hr.unused t (hfree ▸ htf)).2.2] at hx
      cases hx
    · exact absurd ht hdead
  · obtain ⟨htm, heq⟩ := hst.effect.task_free hwm hc t ht
    have hflag := hoff t htm
    obtain ⟨-, hlast, hsaved⟩ := hr.unused t (hfree ▸ htm)
    have htc : t ≠ c := fun he => hwm.current_free c hc (he ▸ htm)
    have hne : (some c : Option TaskPtr) ≠ some t := fun he => htc (Option.some.inj he).symm
    rw [lastResult_snoc, savedRegisters_snoc, heq]
    simp only [hcur, if_neg hne]
    refine ⟨hflag, ?_, hsaved⟩
    rcases assigned_cases hwm hoff hrep hc hrun hst.effect (Or.inr ht) with ⟨-, hf⟩ | ⟨has, -, -⟩
    · rw [heq, hflag] at hf
      cases hf
    · rw [has, hlast]
      rfl

end Remembers

/-- **The descriptors remember the history** in every run. -/
theorem Boot.Reaches.remembers {b : Boot} {h : List (Iter Kernel Trap)} {k : Kernel}
    (r : b.Reaches h k) : ∃ a, Rep k a ∧ Remembers b.img h a := by
  obtain ⟨k₀, hk₀, hrun⟩ := r
  refine hrun.history (I := fun h k => ∃ a, Rep k a ∧ Remembers b.img h a) (P := fun _ => True)
    ?_ (fun _ _ => trivial) ?_
  · obtain ⟨a₀, ha₀, ho, hfresh⟩ := AbsKernel.boot_ok b
    obtain ⟨a₁, ha₁, hrep⟩ := Refines.ok_left (y := AbsKernel.boot b) b.kernel_refines hk₀
    obtain rfl : a₀ = a₁ := Except.ok.inj (ha₀.symm.trans ha₁)
    exact ⟨a₀, hrep, ho.toWellFormed, fun t _ => hfresh.result t, by simp [lastResult],
      by simp [savedRegisters], fun t _ => ⟨hfresh.result t, rfl, rfl⟩⟩
  · rintro h k trap m k' - - ⟨a, hrep, hrem⟩ - hm hk'
    obtain ⟨c, m', a', hrepm, hrep', hst⟩ := hrep.iteration b.img hm hk'
    exact ⟨a', hrep', hrem.step hrepm hst⟩

/-- What `activate` loads from the descriptor. -/
theorem activate_x {a a₁ a₂ : AbsKernel} {c : TaskPtr} (hs : a.schedule = .ok (some c, a₁))
    (ha : a₁.activate c = .ok a₂) :
    (a₂.task c).x = if (a.task c).shouldPassResult
      then Function.update (a.task c).x 0 (a.task c).result else (a.task c).x := by
  obtain ⟨-, rfl⟩ := AbsKernel.activate_eq_ok.mp ha
  obtain ⟨a', hr, ⟨ho, -, -⟩ | ⟨c', rq, ho, -, rfl⟩⟩ := AbsKernel.schedule_eq_ok.mp hs
  · cases ho
  · have hsame : (a'.task c).shouldPassResult = (a.task c).shouldPassResult ∧
        (a'.task c).result = (a.task c).result ∧ (a'.task c).x = (a.task c).x := by
      cases hr with
      | running => simp
      | blocked => simp
      | gone => simp
    simp [hsame]

/-- The registers of a task that resumes with the result `v`, if it was given one. -/
def resumed (x : Fin 31 → U64) (v : Option U64) : Fin 31 → U64 :=
  match v with
  | some v => Function.update x 0 v
  | none => x

/-- **Resuming a task.**  A live task that has trapped before resumes with the registers saved at
its last trap and the result assigned since, just when it was assigned one since, or never was
assigned one, or the last one happens to be the saved `x0`. -/
theorem resumed_registers (b : Boot) (h : List (Iter Kernel Trap)) (k : Kernel)
    (r : b.Reaches h k) (c : TaskPtr) (hlive : c ∈ k.live) (x : Fin 31 → U64)
    (hx : savedRegisters h c = some x) (k₁ k₂ : Kernel) (hs : schedule k = .ok (some c, k₁))
    (ha : activate k₁ c = .ok k₂) :
    (k₂.task c).x = resumed x (resultSince b.img h c) ↔
      (resultSince b.img h c = none → ∀ v, lastResult b.img h c = some v → v = x 0) := by
  obtain ⟨a, hrep, hrem⟩ := r.remembers
  obtain ⟨⟨o, a₁⟩, hs', ho, hrep₁⟩ := hrep.schedule.ok_left hs
  obtain rfl : some c = o := ho
  obtain ⟨a₂, ha', hrep₂⟩ := (hrep₁.activate c).ok_left ha
  rw [hrep.live_eq] at hlive
  rw [← hrep₂.x_eq, activate_x hs' ha', hrem.saved c hlive x hx, hrem.flag c hlive]
  cases hlast : lastResult b.img h c with
  | none =>
    have hsince : resultSince b.img h c = none := by
      cases hsince : resultSince b.img h c with
      | none => rfl
      | some v => simp [lastResult_of_resultSince hsince] at hlast
    simp [hsince, resumed]
  | some v =>
    rw [hrem.result c hlive v hlast, Option.isSome_some, if_pos rfl]
    cases hsince : resultSince b.img h c with
    | some w =>
      obtain rfl : w = v := Option.some.inj ((lastResult_of_resultSince hsince).symm.trans hlast)
      simp [resumed]
    | none =>
      simp only [resumed, Option.some.injEq, forall_eq', true_implies]
      exact Function.update_eq_self_iff

/-- The kernel resumes `c` next, in a state with `p`. -/
def resumes (k : Kernel) (c : TaskPtr) (p : Kernel → Bool) : Bool :=
  match schedule k >>= fun r => activate r.2 c >>= fun k₂ => .ok (r.1, k₂) with
  | .ok (o, k₂) => decide (o = some c) && p k₂
  | .error _ => false

theorem of_resumes {k : Kernel} {c : TaskPtr} {p : Kernel → Bool} (h : resumes k c p = true) :
    ∃ k₁ k₂, schedule k = .ok (some c, k₁) ∧ activate k₁ c = .ok k₂ ∧ p k₂ = true := by
  unfold resumes at h
  split at h
  · rename_i o k₂ heq
    obtain ⟨ho, hp⟩ := Bool.and_eq_true_iff.mp h
    simp only [bind_eq_ok] at heq
    obtain ⟨⟨o', k₁⟩, hs, k₃, ha, hlast⟩ := heq
    cases hlast
    obtain rfl := of_decide_eq_true ho
    exact ⟨k₁, k₂, hs, ha, hp⟩
  · cases h

/-- A task asks for its tid and is resumed with it. -/
theorem resumed_registers_told : ∃ hist k k₁ k₂, zeroBoot.Reaches hist k ∧
    schedule k = .ok (some 0, k₁) ∧ activate k₁ 0 = .ok k₂ ∧
    (k₂.task 0).x = resumed (svc 11 [7]).x (some 0) := by
  obtain ⟨hist, k, r, -, hk⟩ := Boot.reaches_of_check zeroBoot
    [svc 11 [7]]
    (fun h k => decide (0 ∈ k.live ∧ savedRegisters h 0 = some (svc 11 [7]).x ∧
      resultSince zeroBoot.img h 0 = some 0) && resumes k 0 fun _ => true) (by decide +kernel)
  obtain ⟨hfacts, hres⟩ := Bool.and_eq_true_iff.mp hk
  obtain ⟨hlive, hsaved, hsince⟩ := of_decide_eq_true hfacts
  obtain ⟨k₁, k₂, hs, ha, -⟩ := of_resumes hres
  refine ⟨hist, k, k₁, k₂, r, hs, ha, ?_⟩
  rw [← hsince]
  refine (resumed_registers zeroBoot hist k r 0 hlive _ hsaved k₁ k₂ hs ha).mpr fun hno => ?_
  rw [hsince] at hno
  cases hno

/-- A task asks for its tid and is then interrupted with another value in `x0`: it resumes with its
tid there. -/
theorem resumed_with_stale_result : ∃ hist k k₁ k₂, zeroBoot.Reaches hist k ∧
    hist.map Iter.input = [svc 11 [], tick [5]] ∧ 0 ∈ k.live ∧
    savedRegisters hist 0 = some (tick [5]).x ∧ resultSince zeroBoot.img hist 0 = none ∧
    schedule k = .ok (some 0, k₁) ∧ activate k₁ 0 = .ok k₂ ∧
    (tick [5]).x 0 = 5 ∧ (k₂.task 0).x 0 = 0 := by
  obtain ⟨hist, k, r, hmap, hk⟩ := Boot.reaches_of_check zeroBoot
    [svc 11 [], tick [5]]
    (fun h k => decide (0 ∈ k.live ∧ savedRegisters h 0 = some (tick [5]).x ∧
      resultSince zeroBoot.img h 0 = none) &&
      resumes k 0 fun k₂ => decide ((k₂.task 0).x 0 = 0)) (by decide +kernel)
  obtain ⟨hfacts, hres⟩ := Bool.and_eq_true_iff.mp hk
  obtain ⟨hlive, hsaved, hsince⟩ := of_decide_eq_true hfacts
  obtain ⟨k₁, k₂, hs, ha, hx⟩ := of_resumes hres
  exact ⟨hist, k, k₁, k₂, r, hmap, hlive, hsaved, hsince, hs, ha, rfl, of_decide_eq_true hx⟩

end RealtimeKernel
