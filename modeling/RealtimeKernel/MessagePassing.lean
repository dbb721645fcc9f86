import RealtimeKernel.Scheduler

/-!
# `message_passing.c`: Send, Receive and Reply

The arguments of a system call are the saved registers of the task that made it, read again
through `get_send_args` and `get_receive_args` when the call of a blocked partner is completed
later.  `register_sender` and `next_sender` work on the ring of the receiver.
-/

namespace RealtimeKernel

open Lib

structure SendArgs where
  tid : U64
  msg : U64
  msgLen : U64
  reply : U64
  replyLen : U64

structure ReceiveArgs where
  tid : U64
  msg : U64
  msgLen : U64

structure ReplyArgs where
  tid : U64
  reply : U64
  replyLen : U64

/-- `(SendArgs *) task->x` -/
def getSendArgs (task : Task) : SendArgs :=
  { tid := task.x 0, msg := task.x 1, msgLen := task.x 2, reply := task.x 3,
    replyLen := task.x 4 }

/-- `(ReceiveArgs *) task->x` -/
def getReceiveArgs (task : Task) : ReceiveArgs :=
  { tid := task.x 0, msg := task.x 1, msgLen := task.x 2 }

/-- `(ReplyArgs *) task->x` -/
def getReplyArgs (task : Task) : ReplyArgs :=
  { tid := task.x 0, reply := task.x 1, replyLen := task.x 2 }

/-- `memcpy` of `utilities.c`, `n` bytes from the lowest address upwards.  Here it returns for every
`n`; what a negative length is converted to no memory has room for. -/
def memcpy (mem : Mem) (dest src : U64) (n : ℕ) : Mem := copyBytes mem dest src n

/-- The length `copy_message` computes. -/
def actualLen (lenMsgFrom lenMsgTo : ℤ) : ℤ :=
  if lenMsgFrom < lenMsgTo then lenMsgFrom else lenMsgTo

def copyMessage (mem : Mem) (msgFrom : U64) (lenMsgFrom : ℤ) (msgTo : U64) (lenMsgTo : ℤ) :
    ℤ × Mem :=
  let len := actualLen lenMsgFrom lenMsgTo
  (len, memcpy mem msgTo msgFrom (toUsize len))

/-- `*tid = sender->tid`, a store of an `int`. -/
def storeInt (mem : Mem) (tid : U64) (v : ℤ) : Mem := store32 mem tid (BitVec.ofInt 32 v)

/-- The `int` at a user address. -/
def loadInt (mem : Mem) (tid : U64) : ℤ := (load32 mem tid).toInt

/-- `next_sender` narrows the ring element to an `int`. -/
def nextSender (receiver : Task) : ℤ × Task :=
  let (elem, senders) := queuePop receiver.senders
  (toInt32 elem, { receiver with senders := senders })

def registerSender (receiver : Task) (tid : ℤ) : Bool × Task :=
  let (success, senders) := queuePush receiver.senders (ofInt tid)
  (success, { receiver with senders := senders })

/-- `receiver` is the task that is given the message; its callers never pass `NULL`. -/
def synchronizedSendReceive (k : Kernel) (msgFrom : U64) (lenMsgFrom : ℤ) (receiver : TaskPtr)
    (msgTo : U64) (lenMsgTo : ℤ) : Except Halt (ℤ × Kernel) := do
  let (len, mem) := copyMessage k.mem msgFrom lenMsgFrom msgTo lenMsgTo
  let k := { k with mem := mem }
  let k := k.modify receiver fun t => assignResult t (ofInt len)
  let k ←
    (if (k.task receiver).state ≠ .running then changeTaskState k receiver .ready else .ok k)
  .ok (len, k)

def sysSend (k : Kernel) : Except Halt Kernel := do
  let sender ← deref (getCurrentTask k.toCore)
  let args := getSendArgs (k.task sender)
  let receiver ← getTaskByTid k (toInt32 args.tid)
  match receiver with
  | none => .ok (k.modify sender fun t => assignResult t (ofInt (-1)))
  | some receiver =>
    if (k.task receiver).state = .waitreceive then do
      let receiveArgs := getReceiveArgs (k.task receiver)
      let k := { k with mem := storeInt k.mem receiveArgs.tid (k.task sender).tid }
      let (_, k) ← synchronizedSendReceive k args.msg (toInt32 args.msgLen) receiver
        receiveArgs.msg (toInt32 receiveArgs.msgLen)
      changeTaskState k sender .watireply
    else
      let (success, receiverTask) := registerSender (k.task receiver) (k.task sender).tid
      if success then changeTaskState (k.modify receiver fun _ => receiverTask) sender .watisend
      else .ok (k.modify sender fun t => assignResult t (ofInt (-2)))

def sysReceive (k : Kernel) : Except Halt Kernel := do
  let receiver ← deref (getCurrentTask k.toCore)
  let args := getReceiveArgs (k.task receiver)
  if queueIsEmpty (k.task receiver).senders then changeTaskState k receiver .waitreceive
  else
    let (senderId, receiverTask) := nextSender (k.task receiver)
    let k := k.modify receiver fun _ => receiverTask
    let sender ← getTaskByTid k senderId
    match sender with
    | none => .ok (k.modify receiver fun t => assignResult t (ofInt (-1)))
    | some sender => do
      let sendArgs := getSendArgs (k.task sender)
      let k := { k with mem := storeInt k.mem args.tid (k.task sender).tid }
      let (_, k) ← synchronizedSendReceive k sendArgs.msg (toInt32 sendArgs.msgLen) receiver
        args.msg (toInt32 args.msgLen)
      changeTaskState k sender .watireply

def sysReply (k : Kernel) : Except Halt Kernel := do
  let receiver ← deref (getCurrentTask k.toCore)
  let args := getReplyArgs (k.task receiver)
  let sender ← getTaskByTid k (toInt32 args.tid)
  match sender with
  | none => .ok (k.modify receiver fun t => assignResult t (ofInt (-1)))
  | some sender => do
    let sendArgs := getSendArgs (k.task sender)
    let (len, k) ← synchronizedSendReceive k args.reply (toInt32 args.replyLen) sender
      sendArgs.reply (toInt32 sendArgs.replyLen)
    .ok (k.modify receiver fun t => assignResult t (ofInt len))

end RealtimeKernel
