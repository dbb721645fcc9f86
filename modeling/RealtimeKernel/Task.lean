import RealtimeKernel.Queue

/-!
# `task.h` and `task.c`: task descriptors

A `Task *` is an index into the static array `task_pool`, a `TaskNode *` an index into the
`nodes` of its pool and a `MemoryBlock *` an index into `memory_blocks`; `Option` adds `NULL`.
-/

namespace RealtimeKernel

abbrev TaskPtr := Fin taskPoolSize
abbrev NodePtr := Fin maxTaskNum
abbrev BlockPtr := Fin memoryBlockMaxNum

/-- The states of a task, in the order of the C enumeration. -/
inductive TaskState
  | initialized
  | watisend
  | waitreceive
  | watireply
  | awatievent
  | ready
  | running
  deriving DecidableEq, Repr

/-- The comparison `state < READY` of the enumeration. -/
def TaskState.beforeReady : TaskState → Bool
  | .ready | .running => false
  | _ => true

/-- A task descriptor.  `senders` carries `sender_container`, the array it is a ring over. -/
structure Task where
  x : Fin 31 → U64
  sp : U64
  spsr : U64
  pc : U64
  x30Copy : U64
  result : U64
  shouldPassResult : Bool
  tid : ℤ
  parentTid : ℤ
  priority : ℤ
  state : TaskState
  senders : Queue
  jobNode : Option NodePtr
  memoryBlock : Option BlockPtr
  next : Option TaskPtr

def assignResult (task : Task) (result : U64) : Task :=
  { task with shouldPassResult := true, result := result }

/-- `task_init` writes every field but `x30_copy` and the old contents of the ring. -/
def taskInit (self : Task) : Task :=
  { self with
    tid := -1
    parentTid := -1
    priority := taskPriorityMin
    x := fun _ => 0
    sp := 0
    spsr := 0
    pc := 0
    result := 0
    shouldPassResult := false
    memoryBlock := none
    state := .initialized
    jobNode := none
    next := none
    senders := queueInit self.senders.container maxSenderCapacity }

end RealtimeKernel
