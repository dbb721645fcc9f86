import RealtimeKernel.Timer
import RealtimeKernel.TaskQueueSpec

/-!
# `memory.c` and `task_scheduler.c`: descriptors, stacks and the ready queue

`Core` holds the static variables that no queue is made of: the descriptors themselves, the
stack flags, the clocks and the memory that user tasks read and write.  `Kernel` adds the free
list of descriptors, the three node pools and the job, ready and irq queues.  User memory is
taken apart from the kernel's own data, so that a user pointer never names a kernel variable.
-/

namespace RealtimeKernel

open Lib

/-- The addresses the linker and `config.c` choose. -/
structure Image where
  memoryBlocks : U64
  exit : U64
  initialUserTask : U64
  idleTask : U64

structure Core where
  task : TaskPtr → Task
  taskIdCnt : ℤ
  currentTask : Option TaskPtr
  memoryBlocksUsed : BlockPtr → Bool
  clocks : Clocks
  mem : Mem

/-- Replaces one descriptor. -/
def Core.modify (c : Core) (t : TaskPtr) (f : Task → Task) : Core :=
  { c with task := Function.update c.task t (f (c.task t)) }

structure Kernel extends Core where
  taskPoolPtr : Option TaskPtr
  jobqPool : TaskNodePool
  readyqPool : TaskNodePool
  irqqPool : TaskNodePool
  jobq : TaskList
  readyq : PriorityTaskQueue
  irqq : Fin numInterrupt → PriorityTaskQueue

/-- Writes through a `Task *`. -/
def Kernel.modify (k : Kernel) (t : TaskPtr) (f : Task → Task) : Kernel :=
  { k with toCore := k.toCore.modify t f }

/-- A dereference of a pointer. -/
def deref {α : Type} : Option α → Except Halt α
  | some a => .ok a
  | none => .error .nullPointer

/-! ### `memory.c` -/

/-- The address of `memory_blocks[i]`. -/
def blockAddr (img : Image) (i : ℕ) : U64 := Addr.offset img.memoryBlocks (i * memoryBlockSize)

/-- The first unused block, marked as used. -/
def memoryAllocateBlock (used : BlockPtr → Bool) : Option BlockPtr × (BlockPtr → Bool) :=
  match (List.finRange memoryBlockMaxNum).find? fun i => used i == false with
  | some i => (some i, Function.update used i true)
  | none => (none, used)

/-- Clears the block and its flag. -/
def memoryFreeBlock (img : Image) (c : Core) (block : BlockPtr) : Core :=
  { c with
    mem := zeroBytes c.mem (blockAddr img block) memoryBlockSize
    memoryBlocksUsed := Function.update c.memoryBlocksUsed block false }

def memoryGetBlockEnd (img : Image) (block : BlockPtr) : U64 := blockAddr img (block + 1)

/-- `memory_init` clears the blocks and their flags. -/
def memoryInit (img : Image) (c : Core) : Core :=
  { c with
    mem := zeroBytes c.mem (blockAddr img 0) (memoryBlockMaxNum * memoryBlockSize)
    memoryBlocksUsed := fun _ => false }

/-! ### `task_scheduler.c` -/

def changeTaskState (k : Kernel) (task : TaskPtr) (state : TaskState) : Except Halt Kernel :=
  if (k.task task).state = state then .error .changeTaskState
  else do
    let k ← (match state with
      | .running => .ok { k with currentTask := some task }
      | .ready => do
        let (pool, readyq) ←
          ptaskQueuePush k.readyqPool k.readyq task (k.task task).priority
        .ok { k with readyqPool := pool, readyq := readyq }
      | _ => .ok k)
    .ok (k.modify task fun t => { t with state := state })

/-- `task_queue_init`: every descriptor is initialised and linked to the next one. -/
def taskQueueInit (k : Kernel) : Kernel :=
  { k with
    currentTask := none
    task := fun i =>
      { taskInit (k.task i) with
        next := if h : i.val + 1 < taskPoolSize then some ⟨i.val + 1, h⟩ else none }
    taskPoolPtr := some 0
    taskIdCnt := 0 }

def initScheduler (k : Kernel) : Kernel :=
  let k := taskQueueInit k
  { k with
    jobqPool := taskNodePoolInit k.jobqPool
    jobq := taskListInit
    readyqPool := taskNodePoolInit k.readyqPool
    readyq := ptaskQueueInit
    irqqPool := taskNodePoolInit k.irqqPool
    irqq := fun _ => ptaskQueueInit }

def i32Clamp (value min max : ℤ) : ℤ :=
  if value < min then min else if value > max then max else value

/-- The fields `create_task` fills in on a descriptor that `task_init` has reset. -/
def newTask (img : Image) (tid parentTid priority : ℤ) (block : BlockPtr) (func : U64)
    (t : Task) : Task :=
  { taskInit t with
    tid := tid
    parentTid := parentTid
    priority := priority
    memoryBlock := some block
    sp := memoryGetBlockEnd img block
    pc := func
    x := Function.update (taskInit t).x 30 img.exit
    spsr := 0
    next := none }

def createTask (img : Image) (k : Kernel) (priority : ℤ) (func : U64) (parentTid : ℤ) :
    Except Halt (Option TaskPtr × Kernel) :=
  let priority := i32Clamp priority taskPriorityMin (taskPriorityMax - 1)
  match k.taskPoolPtr with
  | some task => do
    let k := { k with taskPoolPtr := (k.task task).next }
    let tid := k.taskIdCnt
    let k := { k with taskIdCnt := k.taskIdCnt + 1 }
    let (block, used) := memoryAllocateBlock k.memoryBlocksUsed
    let k := { k with memoryBlocksUsed := used }
    let block ← deref block
    let k := k.modify task (newTask img tid parentTid priority block func)
    let (pool, jobq) ← taskListPushBack k.jobqPool k.jobq task
    let k := { k with jobqPool := pool, jobq := jobq }
    let k := k.modify task fun t => { t with jobNode := jobq.tail }
    let k ← changeTaskState k task .ready
    .ok (some task, k)
  | none => .ok (none, k)

def removeCurrentTask (img : Image) (k : Kernel) : Except Halt Kernel := do
  let currentTask ← deref k.currentTask
  let (_, pool, jobq) ← taskListRemoveNode k.jobqPool k.jobq (k.task currentTask).jobNode
  let k := { k with jobqPool := pool, jobq := jobq }
  let block ← deref (k.task currentTask).memoryBlock
  let k := { k with toCore := memoryFreeBlock img k.toCore block }
  let k := k.modify currentTask taskInit
  .ok { k with currentTask := none }

def getCurrentTask (c : Core) : Option TaskPtr := c.currentTask

def schedule (k : Kernel) : Except Halt (Option TaskPtr × Kernel) := do
  let k ← (match k.currentTask with
    | some currentTask =>
      if (k.task currentTask).state = .running then changeTaskState k currentTask .ready
      else if (k.task currentTask).state.beforeReady then .ok k
      else .error .schedule
    | none => .ok k)
  if ptaskQueueEmpty k.readyq then .ok (none, k)
  else do
    let (result, pool, readyq) ← ptaskQueuePop k.readyqPool k.readyq
    .ok (result, { k with readyqPool := pool, readyq := readyq })

theorem toNat_lt_numInterrupt {intid : ℤ} (h : 0 ≤ intid ∧ intid < 1022) :
    intid.toNat < numInterrupt := by
  simp only [numInterrupt]
  omega

def wakeUpIrqBlockedTasks (k : Kernel) (intid : ℤ) : Except Halt Kernel :=
  if h : 0 ≤ intid ∧ intid < 1022 then
    let i : Fin numInterrupt := ⟨intid.toNat, toNat_lt_numInterrupt h⟩
    if ptaskQueueEmpty (k.irqq i) then .ok k
    else do
      let (task, pool, curIntq) ← ptaskQueuePop k.irqqPool (k.irqq i)
      let k := { k with irqqPool := pool, irqq := Function.update k.irqq i curIntq }
      let task ← deref task
      if (k.task task).state = .awatievent then changeTaskState k task .ready
      else .error .wakeUpState
  else .error .wakeUpIntid

def addToIrqQueue (k : Kernel) (intid : ℤ) (task : TaskPtr) : Except Halt Kernel :=
  if h : 0 ≤ intid ∧ intid < 1022 then do
    let i : Fin numInterrupt := ⟨intid.toNat, toNat_lt_numInterrupt h⟩
    let (pool, curIntq) ← ptaskQueuePush k.irqqPool (k.irqq i) task (k.task task).priority
    .ok { k with irqqPool := pool, irqq := Function.update k.irqq i curIntq }
  else .error .addToIrqQueue

/-- The loop of `get_task_by_tid` from a node on. -/
def findTask (pool : TaskNodePool) (task : TaskPtr → Task) (tid : ℤ) :
    ℕ → Option NodePtr → Except Halt (Option TaskPtr)
  | _, none => .ok none
  | 0, some _ => .error .endlessWalk
  | n + 1, some node => do
    let t ← deref (pool.nodes node).task
    if (task t).tid = tid then .ok (some t)
    else findTask pool task tid n (pool.nodes node).next

def getTaskByTid (k : Kernel) (tid : ℤ) : Except Halt (Option TaskPtr) :=
  findTask k.jobqPool k.task tid maxTaskNum k.jobq.head

end RealtimeKernel
