import RealtimeKernel.DelayedClients
import RealtimeKernel.TaskFates

/-!
# `clock_server` and `clock_server_tick` as tasks of the kernel

The server and its notifier are followed from the Create with which the server makes the notifier.
What a task does between two system calls is attributed to the second: `serverStep` and
`notifierStep` say where a task is after an iteration of the kernel, or `none` if its trap is not
what its C code does next.  A call has returned when the task is ready or running again.

`activate` puts the last result of a task into its `x0` also when the task was interrupted, and it
may have been about to make a call with another argument there.  So the steps are told whether `x0`
has been overwritten since the last call, and then admit a call that is made with the stale result.
What else an overwritten `x0` can do to the code of a task is not followed: where it matters the
runs are those with `X0Intact`, in which no resume of the interrupted task changes its `x0`.
-/

namespace RealtimeKernel

open Lib

/-! ### Calls of a task -/

/-- A `ClockServerMsg` in memory. -/
def loadMsg (mem : Mem) (p : U64) : ClockServerMsg := ⟨load32 mem p, load32 mem (Addr.offset p 4)⟩

/-- `sizeof(ClockServerMsg)` -/
abbrev clockServerMsgSize : ℤ := 8

/-- The task is not blocked in its call. -/
def returned (k : Kernel) (t : TaskPtr) : Bool := !(k.task t).state.beforeReady

/-- What its last call returns. -/
def returnValue (k : Kernel) (t : TaskPtr) : ℤ :=
  toInt32 (if (k.task t).shouldPassResult then (k.task t).result else (k.task t).x 0)

/-! ### The register `x0` of an interrupted task -/

/-- What has become of the `x0` of a task since its last call. -/
inductive X0
  | fresh
  /-- The task was interrupted, and has been resumed with the `x0` it had. -/
  | interrupted
  | overwritten
  deriving DecidableEq

/-- `activate` gives the task another `x0` than was saved. -/
def overwrites (me : TaskPtr) (i : Iter Kernel Trap) : Bool :=
  (i.head.task me).shouldPassResult && (i.head.task me).result != (i.head.task me).x 0

namespace X0

/-- When the task runs in the iteration. -/
def resume (me : TaskPtr) (i : Iter Kernel Trap) : X0 → X0
  | interrupted => if overwrites me i then overwritten else interrupted
  | x => x

/-- After the iteration. -/
def trap (me : TaskPtr) (i : Iter Kernel Trap) (x : X0) : X0 :=
  if i.mid.currentTask = some me then
    if i.input.syscall = none then
      match x.resume me i with
      | fresh => interrupted
      | x => x
    else fresh
  else x

/-- The task runs in the iteration, and its `x0` has been overwritten. -/
def spoilt (me : TaskPtr) (i : Iter Kernel Trap) (x : X0) : Bool :=
  decide (i.mid.currentTask = some me ∧ x.resume me i = overwritten)

end X0

/-- What has become of `x0` after the iterations. -/
def x0After (me : TaskPtr) (h : List (Iter Kernel Trap)) : X0 :=
  h.foldl (fun x i => x.trap me i) .fresh

/-- No resume of the interrupted task changes its `x0`. -/
def X0Intact (me : TaskPtr) (h : List (Iter Kernel Trap)) : Prop :=
  Along (fun p i => (x0After me p).spoilt me i = false) h

instance (me : TaskPtr) (h : List (Iter Kernel Trap)) : Decidable (X0Intact me h) :=
  inferInstanceAs (Decidable (Along _ _))

/-- The first argument of the call is the last result of the task, which has overwritten it. -/
def staleArgument (overwritten : Bool) (me : TaskPtr) (i : Iter Kernel Trap) : Bool :=
  overwritten && decide (i.input.x 0 = (i.mid.task me).result)

/-- A task followed through iterations, by a step that is told whether `x0` was overwritten. -/
def follow {S : Type} (me : TaskPtr) (step : Bool → Iter Kernel Trap → S → Option S) :
    X0 → S → List (Iter Kernel Trap) → Option S
  | _, s, [] => some s
  | x, s, i :: h => (step (x.spoilt me i) i s).bind fun s' => follow me step (x.trap me i) s' h

theorem follow_append {S : Type} (me : TaskPtr)
    (step : Bool → Iter Kernel Trap → S → Option S) (h q : List (Iter Kernel Trap)) (x : X0)
    (s : S) : follow me step x s (h ++ q) =
      (follow me step x s h).bind fun s' =>
        follow me step (h.foldl (fun x i => x.trap me i) x) s' q := by
  induction h generalizing x s with
  | nil => rfl
  | cons i h ih =>
    rw [List.cons_append, follow, follow, Option.bind_assoc]
    exact congrArg _ (funext fun s' => ih (x.trap me i) s')

/-- Where `x0` is intact the step is never told otherwise. -/
theorem follow_snoc {S : Type} {me : TaskPtr} (step : Bool → Iter Kernel Trap → S → Option S)
    {h : List (Iter Kernel Trap)} {i : Iter Kernel Trap} (hx : X0Intact me (h ++ [i])) (s : S) :
    follow me step .fresh s (h ++ [i]) =
      (follow me step .fresh s h).bind (step false i) := by
  rw [follow_append]
  have hi : (x0After me h).spoilt me i = false := hx h i [] rfl
  unfold x0After at hi
  simp [follow, hi]

/-! ### `clock_server` -/

/-- Where the variables `tid` and `msg` of the server are. -/
structure ServerFrame where
  tid : U64
  msg : U64
  apart : Apart tid 4 msg 8

/-- Where the server is in its loop. -/
inductive ServerAt
  /-- These replies are still to be made; then it calls Receive. -/
  | calling (replies : ClockReplies)
  /-- Receive has not returned. -/
  | blocked
  /-- Receive has returned. -/
  | given (tid : ℤ) (msg : ClockServerMsg)
  /-- It has left its loop, or dereferenced `NULL`. -/
  | stopped

/-- The replies the server still owes for the message it handles. -/
def ServerAt.pending : ServerAt → List ℤ
  | .calling replies => replies.map Prod.fst
  | .given tid _ => [tid]
  | _ => []

structure ServerTask where
  handled : List ClockExchange
  vars : ClockServer
  place : ServerAt

/-- The server when it has made the notifier. -/
def serverStart (msg₀ : ClockServerMsg) : ServerTask :=
  { handled := [], vars := clockServerInit msg₀, place := .calling [] }

/-- The clients that have not got their reply. -/
def ServerTask.owed (σ : ServerTask) : List ℤ := (asked σ.handled).map Prod.fst ++ σ.place.pending

/-- After a Receive. -/
def serverReceives (f : ServerFrame) (me : TaskPtr) (k : Kernel) (σ : ServerTask) : ServerTask :=
  if returned k me then
    if returnValue k me = 0 then { σ with place := .stopped }
    else { σ with place := .given (loadInt k.mem f.tid) (loadMsg k.mem f.msg) }
  else { σ with place := .blocked }

/-- The next call of the server. -/
def serverCall (f : ServerFrame) (me : TaskPtr) (overwritten : Bool) (i : Iter Kernel Trap)
    (σ : ServerTask) : Option ServerTask :=
  match σ.place with
  | .calling [] =>
    if i.input.syscall = some .receive ∧
        (i.input.x 0 = f.tid ∨ staleArgument overwritten me i = true) ∧ i.input.x 1 = f.msg ∧
        toInt32 (i.input.x 2) = clockServerMsgSize then
      some (serverReceives f me i.next σ)
    else none
  | .calling ((tid, msg) :: replies) =>
    if i.input.syscall = some .reply ∧
        (toInt32 (i.input.x 0) = tid ∨ staleArgument overwritten me i = true) ∧
        loadMsg i.input.mem (i.input.x 1) = msg ∧
        toInt32 (i.input.x 2) = clockServerMsgSize then
      some { σ with place := .calling replies }
    else none
  | _ => none

/-- The body of the loop. -/
def serverHandles (σ : ServerTask) : ServerTask :=
  match σ.place with
  | .given tid msg =>
    match clockServer σ.vars tid msg with
    | .ok (vars, replies) =>
      { handled := σ.handled ++ [⟨tid, msg, replies⟩], vars := vars, place := .calling replies }
    | .error _ => { σ with place := .stopped }
  | _ => σ

def serverStep (f : ServerFrame) (me : TaskPtr) (overwritten : Bool) (i : Iter Kernel Trap)
    (σ : ServerTask) : Option ServerTask :=
  if i.mid.currentTask = some me then
    if i.input.syscall = none then some σ else serverCall f me overwritten i (serverHandles σ)
  else
    match σ.place with
    | .blocked => some (serverReceives f me i.next σ)
    | _ => some σ

/-! ### `clock_server_tick` -/

/-- Where the notifier is; `tid` is its variable. -/
inductive NotifierAt
  | start
  | await (tid : ℤ)
  | awaiting (tid : ℤ)
  | send (tid : ℤ)
  | sending (tid : ℤ)
  /-- It has left its loop. -/
  | leaving
  deriving DecidableEq

/-- After an AwaitEvent. -/
def notifierAwaits (me : TaskPtr) (k : Kernel) (tid : ℤ) : NotifierAt :=
  if returned k me then if 0 ≤ returnValue k me then .send tid else .leaving
  else .awaiting tid

/-- After a Send. -/
def notifierSends (me : TaskPtr) (k : Kernel) (tid : ℤ) : NotifierAt :=
  if returned k me then if returnValue k me < 0 then .leaving else .await tid
  else .sending tid

/-- The next call of the notifier.  The message is its variable `msg`, and so is the reply. -/
def notifierCall (me : TaskPtr) (overwritten : Bool) (i : Iter Kernel Trap) (ν : NotifierAt) :
    Option NotifierAt :=
  match ν with
  | .start =>
    if i.input.syscall = some .myParentTid then some (.await (returnValue i.next me)) else none
  | .await tid =>
    if i.input.syscall = some .awaitEvent ∧
        (toInt32 (i.input.x 0) = waitTimer1 ∨ staleArgument overwritten me i = true) then
      some (notifierAwaits me i.next tid)
    else none
  | .send tid =>
    if i.input.syscall = some .send ∧
        (toInt32 (i.input.x 0) = tid ∨ staleArgument overwritten me i = true) ∧
        (loadMsg i.input.mem (i.input.x 1)).kind = some .tick ∧
        toInt32 (i.input.x 2) = clockServerMsgSize ∧ i.input.x 3 = i.input.x 1 ∧
        toInt32 (i.input.x 4) = clockServerMsgSize then
      some (notifierSends me i.next tid)
    else none
  | _ => none

def notifierStep (me : TaskPtr) (overwritten : Bool) (i : Iter Kernel Trap) (ν : NotifierAt) :
    Option NotifierAt :=
  if i.mid.currentTask = some me then
    if i.input.syscall = none then some ν else notifierCall me overwritten i ν
  else
    match ν with
    | .awaiting tid => some (notifierAwaits me i.next tid)
    | .sending tid => some (notifierSends me i.next tid)
    | _ => some ν

/-! ### Over a history -/

/-- The server after the iterations. -/
def serverTask (f : ServerFrame) (server : TaskPtr) (msg₀ : ClockServerMsg)
    (h : List (Iter Kernel Trap)) : Option ServerTask :=
  follow server (serverStep f server) .fresh (serverStart msg₀) h

/-- The notifier after the iterations. -/
def notifierTask (notifier : TaskPtr) (h : List (Iter Kernel Trap)) : Option NotifierAt :=
  follow notifier (notifierStep notifier) .fresh .start h

theorem serverTask_snoc {f : ServerFrame} {server : TaskPtr} {msg₀ : ClockServerMsg}
    {h : List (Iter Kernel Trap)} {i : Iter Kernel Trap} (hx : X0Intact server (h ++ [i])) :
    serverTask f server msg₀ (h ++ [i]) =
      (serverTask f server msg₀ h).bind (serverStep f server false i) :=
  follow_snoc _ hx _

theorem notifierTask_snoc {notifier : TaskPtr} {h : List (Iter Kernel Trap)}
    {i : Iter Kernel Trap} (hx : X0Intact notifier (h ++ [i])) :
    notifierTask notifier (h ++ [i]) =
      (notifierTask notifier h).bind (notifierStep notifier false i) :=
  follow_snoc _ hx _

theorem X0Intact.left {me : TaskPtr} {h q : List (Iter Kernel Trap)}
    (hx : X0Intact me (h ++ q)) : X0Intact me h :=
  Along.left hx

end RealtimeKernel
