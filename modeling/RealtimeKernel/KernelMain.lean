import RealtimeKernel.MessagePassing

/-!
# `kernel_syscall.c`, `interrupt.c`, `exception.c` and `kernel.c`: the kernel loop

`kmain` runs `schedule`, `activate` and `handle_current_exception` for ever.  What a user task
does between its activation and the next exception is not constrained: a `Trap` is the
register file that the exception entry saves, the memory the task leaves behind and the cause
of the exception.  `kmainLoop` takes one trap for each iteration; `enter` is the part up to the
saved context, `handle` the handler.
-/

namespace RealtimeKernel

open Lib

/-! ### `kernel_syscall.c` -/

def sysCreate (img : Image) (k : Kernel) : Except Halt Kernel := do
  let currentTask ← deref (getCurrentTask k.toCore)
  let priority := toInt32 ((k.task currentTask).x 0)
  let funcPtr := (k.task currentTask).x 1
  let (newTask, k) ← createTask img k priority funcPtr (k.task currentTask).tid
  match newTask with
  | some newTask =>
    .ok (k.modify currentTask fun t => assignResult t (ofInt (k.task newTask).tid))
  | none => .ok (k.modify currentTask fun t => assignResult t (ofInt (-1)))

def sysTid (k : Kernel) : Except Halt Kernel := do
  let currentTask ← deref (getCurrentTask k.toCore)
  .ok (k.modify currentTask fun t => assignResult t (ofInt t.tid))

def sysParentTid (k : Kernel) : Except Halt Kernel := do
  let currentTask ← deref (getCurrentTask k.toCore)
  .ok (k.modify currentTask fun t => assignResult t (ofInt t.parentTid))

def sysYield (k : Kernel) : Except Halt Kernel := .ok k

def sysExit (img : Image) (k : Kernel) : Except Halt Kernel := removeCurrentTask img k

/-! ### `interrupt.c` -/

def sysAwaitEvent (k : Kernel) : Except Halt Kernel := do
  let currentTask ← deref k.currentTask
  let k ← changeTaskState k currentTask .awatievent
  let intid := toInt32 ((k.task currentTask).x 0)
  addToIrqQueue k intid currentTask

/-! ### Traps -/

/-- The system calls of `asm_syscall.S`. -/
inductive Syscall
  | create
  | yield
  | exit
  | myTid
  | myParentTid
  | send
  | receive
  | reply
  | awaitEvent
  deriving DecidableEq, Repr

/-- The `svc` immediates, as `init_exception_handlers` registers them. -/
def Syscall.ofCode : ℕ → Option Syscall
  | 1 => some .create
  | 2 => some .yield
  | 3 => some .exit
  | 11 => some .myTid
  | 12 => some .myParentTid
  | 21 => some .send
  | 22 => some .receive
  | 23 => some .reply
  | 31 => some .awaitEvent
  | _ => none

/-- Why the processor left user mode: a synchronous exception with its syndrome register, or an
interrupt with its id and with what the handler reads from the two timer registers. -/
inductive Cause
  | sync (esr : U64)
  | irq (intid : ℕ) (chi clo : U32)

/-- What a user task leaves behind at its next exception. -/
structure Trap where
  x : Fin 31 → U64
  sp : U64
  spsr : U64
  pc : U64
  mem : Mem
  cause : Cause

/-- `SVC_CLASS`, compared with the exception class of the syndrome. -/
def svcClass : U8 := 0x15

def exceptionClass (esr : U64) : U8 := (esr >>> 26).setWidth 8

/-- The lower 16 bits of the syndrome. -/
def svcImm (esr : U64) : U16 := esr.setWidth 16

/-- The syndrome register of `svc #code`. -/
def esrOfCode (code : ℕ) : U64 := (0x15#64 <<< 26) ||| (1#64 <<< 25) ||| BitVec.ofNat 64 code

/-- The system call a trap makes, if it is one of the registered ones. -/
def Trap.syscall (t : Trap) : Option Syscall :=
  match t.cause with
  | .sync esr =>
    if exceptionClass esr = svcClass then Syscall.ofCode (svcImm esr).toNat else none
  | .irq _ _ _ => none

/-! ### `exception.c` -/

/-- The save macro of the exception entry: the context of the trap goes to `current_task`. -/
def saveContext (t : Task) (trap : Trap) : Task :=
  { t with x := trap.x, sp := trap.sp, spsr := trap.spsr, pc := trap.pc, x30Copy := trap.x 30 }

/-- `activate` up to the switch to user mode. -/
def activate (k : Kernel) (task : TaskPtr) : Except Halt Kernel := do
  let k ← changeTaskState k task .running
  if (k.task task).shouldPassResult then
    .ok (k.modify task fun t => { t with x := Function.update t.x 0 t.result })
  else .ok k

/-- The handlers that `init_exception_handlers` registers. -/
def synchronousExceptionHandlers (img : Image) : Syscall → Kernel → Except Halt Kernel
  | .create => sysCreate img
  | .yield => sysYield
  | .exit => sysExit img
  | .myTid => sysTid
  | .myParentTid => sysParentTid
  | .send => sysSend
  | .receive => sysReceive
  | .reply => sysReply
  | .awaitEvent => sysAwaitEvent

/-- An `svc` with an unregistered immediate calls a null handler; another exception class is
reported and otherwise ignored. -/
def handleSynchronousException (img : Image) (k : Kernel) (esr : U64) : Except Halt Kernel :=
  if exceptionClass esr = svcClass then do
    let call ← deref (Syscall.ofCode (svcImm esr).toNat)
    synchronousExceptionHandlers img call k
  else .ok k

/-- `handle_timer_1` is the only registered irq handler. -/
def handleTimer1 (k : Kernel) (chi clo : U32) : Except Halt Kernel := do
  let clocks ← sysClockNotifyTick k.clocks 1 chi clo
  .ok { k with clocks := clocks }

def handleIrq (k : Kernel) (intid : ℕ) (chi clo : U32) : Except Halt Kernel :=
  if intid = waitTimer1 then do
    let k ← handleTimer1 k chi clo
    wakeUpIrqBlockedTasks k intid
  else .error .irqNotImplemented

def handleCurrentException (img : Image) (k : Kernel) (trap : Trap) : Except Halt Kernel :=
  match trap.cause with
  | .sync esr => handleSynchronousException img k esr
  | .irq intid chi clo => handleIrq k intid chi clo

/-! ### `kernel.c` and `init_kernel.c` -/

/-- The state in which a trap is handled: the scheduled task was activated, ran, and trapped.
The entry code saves the context through `current_task`, which `activate` has just set. -/
def enterTrap (k : Kernel) (trap : Trap) : Except Halt Kernel := do
  let (task, k) ← schedule k
  match task with
  | none => .error .allTasksFinished
  | some task => do
    let k ← activate k task
    let currentTask ← deref k.currentTask
    let k := k.modify currentTask fun t => saveContext t trap
    .ok { k with mem := trap.mem }

/-- The loop of `kmain`. -/
def kmainLoop (img : Image) : Loop Kernel Trap Halt where
  enter := enterTrap
  handle := handleCurrentException img

def initTasks (img : Image) (k : Kernel) : Except Halt Kernel := do
  let (_, k) ← createTask img k initialPriority img.initialUserTask (-1)
  let (_, k) ← createTask img k taskPriorityMin img.idleTask (-1)
  .ok k

/-- `init_kernel`, given the two timer registers as `sys_clock_init` reads them. -/
def initKernel (img : Image) (k : Kernel) (chi clo : U32) : Kernel :=
  let k := { k with toCore := memoryInit img k.toCore }
  let k := initScheduler k
  { k with clocks := sysClockInit k.clocks 1 tickTime chi clo }

/-- A descriptor of the zeroed static array. -/
def zeroTask : Task :=
  { x := fun _ => 0, sp := 0, spsr := 0, pc := 0, x30Copy := 0, result := 0,
    shouldPassResult := false, tid := 0, parentTid := 0, priority := 0, state := .initialized,
    senders := { container := fun _ => 0, capacity := 0, head := 0, tail := 0 },
    jobNode := none, memoryBlock := none, next := none }

def zeroPool : TaskNodePool :=
  { availableIndices := fun _ => 0, size := 0,
    nodes := fun _ => { task := none, prev := none, next := none } }

/-- The zeroed static variables the kernel starts with, over any memory. -/
def zeroKernel (mem : Mem) : Kernel :=
  { task := fun _ => zeroTask, taskIdCnt := 0, currentTask := none,
    memoryBlocksUsed := fun _ => false,
    clocks := { sysClocks := fun _ => ⟨0, 0, 0, 0⟩, comparator := fun _ => 0 }, mem := mem,
    taskPoolPtr := none, jobqPool := zeroPool, readyqPool := zeroPool, irqqPool := zeroPool,
    jobq := taskListInit, readyq := ptaskQueueInit, irqq := fun _ => ptaskQueueInit }

/-- What a boot is given: the image, the memory and the timer registers. -/
structure Boot where
  img : Image
  mem : Mem
  chi : U32
  clo : U32

/-- The kernel when `kmain` reaches its loop. -/
def Boot.kernel (b : Boot) : Except Halt Kernel :=
  initTasks b.img (initKernel b.img (zeroKernel b.mem) b.chi b.clo)

end RealtimeKernel
