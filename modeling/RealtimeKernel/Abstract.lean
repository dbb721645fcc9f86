import RealtimeKernel.KernelMain

/-!
# The kernel without pointers

`AbsKernel` says what the scheduler's data structures are for: the free list and the job queue
are lists of tasks, a priority queue is one list for each priority.  Nodes, pools and links are
gone, and with them the fields `job_node` and `next` of a descriptor, which `Task.erase` clears.

The operations have the names of the functions they stand for and stop for the same reasons.
A pool that runs out of nodes is the bound of `pushQueues` on the number of entries.
-/

namespace RealtimeKernel

open Lib

/-- A descriptor without its two pointers into the kernel's own lists. -/
def Task.erase (t : Task) : Task := { t with jobNode := none, next := none }

structure AbsKernel extends Core where
  free : List TaskPtr
  jobq : List TaskPtr
  readyq : Fin taskPriorityMax → List TaskPtr
  irqq : Fin numInterrupt → Fin taskPriorityMax → List TaskPtr

namespace AbsKernel

def modify (a : AbsKernel) (t : TaskPtr) (f : Task → Task) : AbsKernel :=
  { a with toCore := a.toCore.modify t f }

def setMem (a : AbsKernel) (mem : Mem) : AbsKernel := { a with mem := mem }

/-! ### The scheduler -/

/-- `ptask_queue_push` on the ready queue. -/
def pushReady (a : AbsKernel) (task : TaskPtr) : Except Halt AbsKernel := do
  let readyq ← pushQueues (fun _ : Unit => a.readyq) () task (a.task task).priority
  .ok { a with readyq := readyq () }

def changeTaskState (a : AbsKernel) (task : TaskPtr) (state : TaskState) :
    Except Halt AbsKernel :=
  if (a.task task).state = state then .error .changeTaskState
  else do
    let a ← (match state with
      | .running => .ok { a with currentTask := some task }
      | .ready => a.pushReady task
      | _ => .ok a)
    .ok (a.modify task fun t => { t with state := state })

def createTask (img : Image) (a : AbsKernel) (priority : ℤ) (func : U64) (parentTid : ℤ) :
    Except Halt (Option TaskPtr × AbsKernel) :=
  match a.free with
  | task :: free => do
    let (block, used) := memoryAllocateBlock a.memoryBlocksUsed
    let block ← deref block
    let a := { a with
      free := free, taskIdCnt := a.taskIdCnt + 1, memoryBlocksUsed := used
      task := Function.update a.task task
        (newTask img a.taskIdCnt parentTid (i32Clamp priority taskPriorityMin
          (taskPriorityMax - 1)) block func (a.task task)) }
    if a.jobq.length < maxTaskNum then do
      let a ← changeTaskState { a with jobq := a.jobq ++ [task] } task .ready
      .ok (some task, a)
    else .error .taskNodeAlloc
  | [] => .ok (none, a)

def removeCurrentTask (img : Image) (a : AbsKernel) : Except Halt AbsKernel := do
  let currentTask ← deref a.currentTask
  if currentTask ∈ a.jobq then do
    let block ← deref (a.task currentTask).memoryBlock
    let a := { a with
      jobq := a.jobq.erase currentTask
      toCore := memoryFreeBlock img a.toCore block }
    let a := a.modify currentTask taskInit
    .ok { a with currentTask := none }
  else .error .taskListRemoveNode

/-- `ptask_queue_pop` on the ready queue. -/
def popReady (a : AbsKernel) : Except Halt (TaskPtr × AbsKernel) := do
  let (task, readyq) ← popQueues (fun _ : Unit => a.readyq) ()
  .ok (task, { a with readyq := readyq () })

/-- The first half of `schedule`. -/
def requeueCurrent (a : AbsKernel) : Except Halt AbsKernel :=
  match a.currentTask with
  | some currentTask =>
    if (a.task currentTask).state = .running then a.changeTaskState currentTask .ready
    else if (a.task currentTask).state.beforeReady then .ok a
    else .error .schedule
  | none => .ok a

def schedule (a : AbsKernel) : Except Halt (Option TaskPtr × AbsKernel) := do
  let a ← a.requeueCurrent
  if ∀ p, a.readyq p = [] then .ok (none, a)
  else do
    let (task, a) ← a.popReady
    .ok (some task, a)

def wakeUpIrqBlockedTasks (a : AbsKernel) (intid : ℤ) : Except Halt AbsKernel :=
  if h : 0 ≤ intid ∧ intid < 1022 then
    let i : Fin numInterrupt := ⟨intid.toNat, toNat_lt_numInterrupt h⟩
    if ∀ p, a.irqq i p = [] then .ok a
    else do
      let (task, irqq) ← popQueues a.irqq i
      let a := { a with irqq := irqq }
      if (a.task task).state = .awatievent then a.changeTaskState task .ready
      else .error .wakeUpState
  else .error .wakeUpIntid

def addToIrqQueue (a : AbsKernel) (intid : ℤ) (task : TaskPtr) : Except Halt AbsKernel :=
  if h : 0 ≤ intid ∧ intid < 1022 then do
    let irqq ← pushQueues a.irqq ⟨intid.toNat, toNat_lt_numInterrupt h⟩ task
      (a.task task).priority
    .ok { a with irqq := irqq }
  else .error .addToIrqQueue

def getTaskByTid (a : AbsKernel) (tid : ℤ) : Option TaskPtr :=
  a.jobq.find? fun t => (a.task t).tid = tid

/-! ### Message passing -/

def synchronizedSendReceive (a : AbsKernel) (msgFrom : U64) (lenMsgFrom : ℤ)
    (receiver : TaskPtr) (msgTo : U64) (lenMsgTo : ℤ) : Except Halt (ℤ × AbsKernel) := do
  let (len, mem) := copyMessage a.mem msgFrom lenMsgFrom msgTo lenMsgTo
  let a := (a.setMem mem).modify receiver fun t => assignResult t (ofInt len)
  let a ← (if (a.task receiver).state ≠ .running then a.changeTaskState receiver .ready else .ok a)
  .ok (len, a)

def sysSend (a : AbsKernel) : Except Halt AbsKernel := do
  let sender ← deref a.currentTask
  let args := getSendArgs (a.task sender)
  match a.getTaskByTid (toInt32 args.tid) with
  | none => .ok (a.modify sender fun t => assignResult t (ofInt (-1)))
  | some receiver =>
    if (a.task receiver).state = .waitreceive then do
      let receiveArgs := getReceiveArgs (a.task receiver)
      let a := a.setMem (storeInt a.mem receiveArgs.tid (a.task sender).tid)
      let (_, a) ← a.synchronizedSendReceive args.msg (toInt32 args.msgLen) receiver
        receiveArgs.msg (toInt32 receiveArgs.msgLen)
      a.changeTaskState sender .watireply
    else
      let (success, receiverTask) := registerSender (a.task receiver) (a.task sender).tid
      if success then (a.modify receiver fun _ => receiverTask).changeTaskState sender .watisend
      else .ok (a.modify sender fun t => assignResult t (ofInt (-2)))

def sysReceive (a : AbsKernel) : Except Halt AbsKernel := do
  let receiver ← deref a.currentTask
  let args := getReceiveArgs (a.task receiver)
  if queueIsEmpty (a.task receiver).senders then a.changeTaskState receiver .waitreceive
  else
    let (senderId, receiverTask) := nextSender (a.task receiver)
    let a := a.modify receiver fun _ => receiverTask
    match a.getTaskByTid senderId with
    | none => .ok (a.modify receiver fun t => assignResult t (ofInt (-1)))
    | some sender => do
      let sendArgs := getSendArgs (a.task sender)
      let a := a.setMem (storeInt a.mem args.tid (a.task sender).tid)
      let (_, a) ← a.synchronizedSendReceive sendArgs.msg (toInt32 sendArgs.msgLen) receiver
        args.msg (toInt32 args.msgLen)
      a.changeTaskState sender .watireply

def sysReply (a : AbsKernel) : Except Halt AbsKernel := do
  let receiver ← deref a.currentTask
  let args := getReplyArgs (a.task receiver)
  match a.getTaskByTid (toInt32 args.tid) with
  | none => .ok (a.modify receiver fun t => assignResult t (ofInt (-1)))
  | some sender => do
    let sendArgs := getSendArgs (a.task sender)
    let (len, a) ← a.synchronizedSendReceive args.reply (toInt32 args.replyLen) sender
      sendArgs.reply (toInt32 sendArgs.replyLen)
    .ok (a.modify receiver fun t => assignResult t (ofInt len))

/-! ### The handlers and the loop -/

def sysCreate (img : Image) (a : AbsKernel) : Except Halt AbsKernel := do
  let currentTask ← deref a.currentTask
  let (newTask, a') ← a.createTask img (toInt32 ((a.task currentTask).x 0))
    ((a.task currentTask).x 1) (a.task currentTask).tid
  match newTask with
  | some newTask =>
    .ok (a'.modify currentTask fun t => assignResult t (ofInt (a'.task newTask).tid))
  | none => .ok (a'.modify currentTask fun t => assignResult t (ofInt (-1)))

def sysTid (a : AbsKernel) : Except Halt AbsKernel := do
  let currentTask ← deref a.currentTask
  .ok (a.modify currentTask fun t => assignResult t (ofInt t.tid))

def sysParentTid (a : AbsKernel) : Except Halt AbsKernel := do
  let currentTask ← deref a.currentTask
  .ok (a.modify currentTask fun t => assignResult t (ofInt t.parentTid))

def sysAwaitEvent (a : AbsKernel) : Except Halt AbsKernel := do
  let currentTask ← deref a.currentTask
  let a ← a.changeTaskState currentTask .awatievent
  a.addToIrqQueue (toInt32 ((a.task currentTask).x 0)) currentTask

def synchronousExceptionHandlers (img : Image) :
    Syscall → AbsKernel → Except Halt AbsKernel
  | .create => sysCreate img
  | .yield => .ok
  | .exit => removeCurrentTask img
  | .myTid => sysTid
  | .myParentTid => sysParentTid
  | .send => sysSend
  | .receive => sysReceive
  | .reply => sysReply
  | .awaitEvent => sysAwaitEvent

def handleSynchronousException (img : Image) (a : AbsKernel) (esr : U64) :
    Except Halt AbsKernel :=
  if exceptionClass esr = svcClass then do
    let call ← deref (Syscall.ofCode (svcImm esr).toNat)
    synchronousExceptionHandlers img call a
  else .ok a

def handleIrq (a : AbsKernel) (intid : ℕ) (chi clo : U32) : Except Halt AbsKernel :=
  if intid = waitTimer1 then do
    let clocks ← sysClockNotifyTick a.clocks 1 chi clo
    wakeUpIrqBlockedTasks { a with clocks := clocks } intid
  else .error .irqNotImplemented

def handleCurrentException (img : Image) (a : AbsKernel) (trap : Trap) :
    Except Halt AbsKernel :=
  match trap.cause with
  | .sync esr => a.handleSynchronousException img esr
  | .irq intid chi clo => a.handleIrq intid chi clo

def activate (a : AbsKernel) (task : TaskPtr) : Except Halt AbsKernel := do
  let a ← a.changeTaskState task .running
  if (a.task task).shouldPassResult then
    .ok (a.modify task fun t => { t with x := Function.update t.x 0 t.result })
  else .ok a

def enterTrap (a : AbsKernel) (trap : Trap) : Except Halt AbsKernel := do
  let (task, a) ← a.schedule
  match task with
  | none => .error .allTasksFinished
  | some task => do
    let a ← a.activate task
    let currentTask ← deref a.currentTask
    .ok ((a.modify currentTask fun t => saveContext t trap).setMem trap.mem)

/-- The loop of `kmain`, without pointers. -/
def loop (img : Image) : Loop AbsKernel Trap Halt where
  enter := enterTrap
  handle := handleCurrentException img

/-- What `init_kernel` leaves: every descriptor free, all queues empty. -/
def init (b : Boot) : AbsKernel :=
  { toCore := { (initKernel b.img (zeroKernel b.mem) b.chi b.clo).toCore with
      task := fun _ => (taskInit zeroTask).erase }
    free := List.finRange taskPoolSize
    jobq := []
    readyq := fun _ => []
    irqq := fun _ _ => [] }

def initTasks (img : Image) (a : AbsKernel) : Except Halt AbsKernel := do
  let (_, a) ← a.createTask img initialPriority img.initialUserTask (-1)
  let (_, a) ← a.createTask img taskPriorityMin img.idleTask (-1)
  .ok a

end AbsKernel

end RealtimeKernel
