import Mathlib.Tactic.Linarith
import Mathlib.Tactic.NormNum
import RealtimeKernel.Lib.Bytes

/-!
# Constants, machine integers and the ways the kernel stops

The constants of `config.h` and of the headers that size a table, the conversions between C's
`int` and the 64-bit registers, and the assertions whose failure stops the machine.

`assert` and `assert_p` print a line and enter `exit_all`, an endless `wfi` loop, so a failed
assertion is the end of a run.  A dereference of `NULL` has no defined outcome and is the end
of a run as well.
-/

namespace RealtimeKernel

open Lib

abbrev U8 := BitVec 8
abbrev U16 := BitVec 16
abbrev U32 := BitVec 32
abbrev U64 := BitVec 64

/-! ### `config.h`, `task.h`, `memory.h`, `memory_block.h` -/

abbrev maxTaskNum : ℕ := 64
abbrev taskPoolSize : ℕ := maxTaskNum
abbrev taskPriorityMin : ℤ := 0
abbrev taskPriorityMax : ℕ := 10
abbrev numInterrupt : ℕ := 1024
abbrev maxSenderCapacity : ℕ := 64
abbrev memoryBlockMaxNum : ℕ := 64
abbrev memoryBlockSize : ℕ := 0x100000

/-- There is a register `x0`. -/
instance neZero_registers : NeZero 31 := ⟨by decide⟩

instance neZero_maxTaskNum : NeZero maxTaskNum := ⟨by decide⟩

/-- `TICK_TIME`, the interval of system clock 1 in timer counts. -/
def tickTime : ℤ := 10000

/-- `INITIAL_PRIORITY`, from the headers of the user tasks. -/
def initialPriority : ℤ := 5

/-- `WAIT_TIMER_1`, the interrupt id of system timer 1. -/
def waitTimer1 : ℕ := 97

/-! ### Integer conversions -/

/-- A 64-bit register narrowed to an `int`. -/
def toInt32 (x : U64) : ℤ := (x.setWidth 32).toInt

/-- An `int` converted to a 64-bit register. -/
def ofInt (n : ℤ) : U64 := BitVec.ofInt 64 n

/-- An `int` converted to `usize`, as `memcpy` receives a length. -/
def toUsize (n : ℤ) : ℕ := (ofInt n).toNat

theorem toInt32_range (x : U64) : -2 ^ 31 ≤ toInt32 x ∧ toInt32 x < 2 ^ 31 :=
  ⟨BitVec.le_toInt _, BitVec.toInt_lt⟩

theorem toInt32_ofInt {n : ℤ} (hl : -2 ^ 31 ≤ n) (hu : n < 2 ^ 31) : toInt32 (ofInt n) = n := by
  unfold toInt32 ofInt
  rw [BitVec.toInt_setWidth, BitVec.toNat_ofInt,
    Int.toNat_of_nonneg (Int.emod_nonneg _ (by norm_num)), Int.bmod_def]
  norm_num
  split <;> omega

theorem toUsize_of_nonneg {n : ℤ} (hl : 0 ≤ n) (hu : n < 2 ^ 31) : toUsize n = n.toNat := by
  unfold toUsize ofInt
  rw [BitVec.toNat_ofInt]
  congr 1
  omega

/-! ### How a run of the kernel ends -/

/-- The assertion that failed, by the function it stands in, or another way to stop. -/
inductive Halt
  | changeTaskState
  | schedule
  | wakeUpIntid
  | wakeUpState
  | addToIrqQueue
  | taskNodeAlloc
  | taskNodeFree
  | taskListPushBack
  | taskListRemoveNode
  | ptaskQueuePop
  | ptaskQueuePush
  | irqNotImplemented
  | tickMissed
  /-- A dereference or call of `NULL`. -/
  | nullPointer
  /-- A walk along a chain of nodes that does not end. -/
  | endlessWalk
  /-- `kmain` found no ready task and returned. -/
  | allTasksFinished
  deriving DecidableEq, Repr

end RealtimeKernel
