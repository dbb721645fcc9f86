import RealtimeKernel.KernelRuns
import RealtimeKernel.Lib.Copies

/-!
# Message copies stay inside their buffers

`Transfers k call t` says that the system call `call`, made in the state `k`, copies a message:
from which buffer to which and with the two lengths as they stand in the saved registers.  A
transfer is `Safe` when it stays inside the two buffers, delivers the bytes of the source and
returns how many there are.

The lengths are narrowed to `int` before they are compared, and the smaller one is converted to
`usize`: a negative one makes the copy run through almost the whole address space.
-/

namespace RealtimeKernel

open Lib

/-- A message on its way: the memory when `copy_message` is entered, the two buffers with the
registers that hold their lengths, and the task that is given the length. -/
structure Transfer where
  mem : Mem
  msgFrom : U64
  lenFrom : U64
  msgTo : U64
  lenTo : U64
  receiver : TaskPtr

namespace Transfer

/-- The length that is returned. -/
def len (t : Transfer) : ℤ := actualLen (toInt32 t.lenFrom) (toInt32 t.lenTo)

/-- What `memcpy` reads and writes. -/
def accesses (t : Transfer) : List Access :=
  copyAccesses t.mem t.msgTo t.msgFrom (toUsize t.len)

/-- The memory after the copy. -/
def copied (t : Transfer) : Mem := memcpy t.mem t.msgTo t.msgFrom (toUsize t.len)

end Transfer

/-- One of the first `max 0 len` bytes of a buffer. -/
def InFirst (base len : U64) (a : U64) : Prop :=
  ∃ i : ℕ, (i : ℤ) < max 0 len.toInt ∧ a = Addr.offset base i

/-- The transfer stays inside its buffers, delivers the source and returns its length. -/
structure Transfer.Safe (t : Transfer) (mem' : Mem) (result : U64) : Prop where
  writes : ∀ a ∈ t.accesses, InFirst t.msgTo t.lenTo a.write
  reads : ∀ a ∈ t.accesses, InFirst t.msgFrom t.lenFrom a.read
  bytes : ∀ i < t.accesses.length,
    mem' (Addr.offset t.msgTo i) = t.mem (Addr.offset t.msgFrom i)
  result : toInt32 result = t.accesses.length

/-- The two lengths are not negative, neither as they are nor narrowed, and the source is not
overwritten before it is read. -/
structure Transfer.Contained (t : Transfer) : Prop where
  from_nonneg : 0 ≤ toInt32 t.lenFrom
  to_nonneg : 0 ≤ toInt32 t.lenTo
  sign : toInt32 t.lenFrom = 0 ∨ toInt32 t.lenTo = 0 ∨ (0 ≤ t.lenFrom.toInt ∧ 0 ≤ t.lenTo.toInt)
  undisturbed : Undisturbed t.mem t.msgTo t.msgFrom
    (min (toInt32 t.lenFrom).toNat (toInt32 t.lenTo).toNat)

/-! ### One copy -/

/-- Narrowing does not make a length greater. -/
theorem toInt32_le {x : U64} (hx : 0 ≤ x.toInt) : toInt32 x ≤ x.toInt := by
  have hnat := BitVec.toInt_eq_toNat_cond x
  have hlt := x.isLt
  have htoNat : x.toInt = x.toNat := by
    split at hnat
    · exact hnat
    · omega
  rw [toInt32, BitVec.toInt_setWidth, htoNat, Int.bmod_def]
  split
  · omega
  · omega

theorem actualLen_range (a b : U64) :
    -2 ^ 31 ≤ actualLen (toInt32 a) (toInt32 b) ∧ actualLen (toInt32 a) (toInt32 b) < 2 ^ 31 := by
  have ha := toInt32_range a
  have hb := toInt32_range b
  unfold actualLen
  split <;> omega

/-- A negative length becomes a length near the end of the address space. -/
theorem toUsize_of_neg {n : ℤ} (hl : -2 ^ 31 ≤ n) (hu : n < 0) : 2 ^ 63 < toUsize n := by
  unfold toUsize ofInt
  rw [BitVec.toNat_ofInt]
  omega

theorem toUsize_le (n : ℤ) : toUsize n ≤ 2 ^ 64 := (ofInt n).isLt.le

namespace Transfer

variable {t : Transfer}

theorem length_accesses (t : Transfer) : t.accesses.length = toUsize t.len :=
  length_copyAccesses _ _ _ _

theorem Contained.len_nonneg (h : t.Contained) : 0 ≤ t.len := by
  have hf := h.from_nonneg
  have ht := h.to_nonneg
  unfold len actualLen
  split <;> assumption

/-- The smaller of two lengths that are not negative, as a number of bytes. -/
theorem len_toNat (hlen : 0 ≤ t.len) :
    t.len.toNat = min (toInt32 t.lenFrom).toNat (toInt32 t.lenTo).toNat := by
  unfold len actualLen at hlen ⊢
  split at hlen
  · rename_i h
    rw [if_pos h]
    omega
  · rename_i h
    rw [if_neg h]
    omega

/-- An offset that an access reaches lies inside the buffer. -/
theorem inFirst_offset {base len : U64} {i : ℕ} (hi : i < 2 ^ 64)
    (h : InFirst base len (Addr.offset base i)) : (i : ℤ) < max 0 len.toInt := by
  obtain ⟨j, hj, heq⟩ := h
  have hlt := BitVec.toInt_lt (x := len)
  have hij := (Addr.offset_inj hi (by omega)).mp heq
  rw [hij]
  exact hj

theorem Safe.len_nonneg {mem' : Mem} {result : U64} (h : t.Safe mem' result) : 0 ≤ t.len := by
  by_contra hneg
  have hbig := toUsize_of_neg (actualLen_range t.lenFrom t.lenTo).1 (not_le.mp hneg)
  have hin := h.writes _ (mem_copyAccesses.mpr ⟨2 ^ 63, hbig, rfl⟩)
  have hlt := inFirst_offset (by norm_num) hin
  have hmax := BitVec.toInt_lt (x := t.lenTo)
  omega

/-- **A transfer is safe** just when its lengths are sound and its source undisturbed. -/
theorem safe_iff (t : Transfer) : t.Safe t.copied (ofInt t.len) ↔ t.Contained := by
  have hrange := actualLen_range t.lenFrom t.lenTo
  constructor
  · intro h
    have hlen := h.len_nonneg
    have hn : toUsize t.len = t.len.toNat := toUsize_of_nonneg hlen hrange.2
    have hmin := len_toNat hlen
    have hpos : 0 ≤ toInt32 t.lenFrom ∧ 0 ≤ toInt32 t.lenTo := by
      unfold len actualLen at hlen
      split at hlen <;> omega
    refine ⟨hpos.1, hpos.2, ?_, ?_⟩
    · by_cases hz : t.len = 0
      · unfold len actualLen at hz
        split at hz
        · exact Or.inl hz
        · exact Or.inr (Or.inl hz)
      · have hfirst : 0 < toUsize t.len := by omega
        have ha : _ ∈ t.accesses := mem_copyAccesses.mpr ⟨0, hfirst, rfl⟩
        have hw := inFirst_offset (by norm_num) (h.writes _ ha)
        have hr := inFirst_offset (by norm_num) (h.reads _ ha)
        exact Or.inr (Or.inr ⟨by omega, by omega⟩)
    · rw [← hmin, ← hn]
      refine (copyBytes_faithful_iff t.mem t.msgTo t.msgFrom (toUsize_le _)).mp fun i hi => ?_
      exact h.bytes i (by rw [length_accesses]; exact hi)
  · intro h
    have hlen := h.len_nonneg
    have hn : toUsize t.len = t.len.toNat := toUsize_of_nonneg hlen hrange.2
    have hmin := len_toNat hlen
    -- a byte that is copied lies inside both lengths
    have hbound : ∀ i < toUsize t.len,
        (i : ℤ) < max 0 t.lenFrom.toInt ∧ (i : ℤ) < max 0 t.lenTo.toInt := by
      intro i hi
      rcases h.sign with hz | hz | ⟨hf, ht⟩
      · omega
      · omega
      · have := toInt32_le hf
        have := toInt32_le ht
        omega
    refine ⟨fun a ha => ?_, fun a ha => ?_, fun i hi => ?_, ?_⟩
    · obtain ⟨i, hi, rfl⟩ := mem_copyAccesses.mp ha
      exact ⟨i, (hbound i hi).2, rfl⟩
    · obtain ⟨i, hi, rfl⟩ := mem_copyAccesses.mp ha
      exact ⟨i, (hbound i hi).1, rfl⟩
    · rw [length_accesses] at hi
      have hund := h.undisturbed
      rw [← hmin, ← hn] at hund
      exact (copyBytes_faithful_iff t.mem t.msgTo t.msgFrom (toUsize_le _)).mpr hund i hi
    · rw [length_accesses, toInt32_ofInt (show -2 ^ 31 ≤ t.len from hrange.1) hrange.2, hn]
      exact (Int.toNat_of_nonneg hlen).symm

end Transfer

/-! ### The transfers of the system calls -/

/-- The kernel after `next_sender`. -/
def Kernel.popSender (k : Kernel) (c : TaskPtr) : Kernel :=
  k.modify c fun _ => (nextSender (k.task c)).2

/-- The system call copies a message: Send to a task that waits in Receive, Receive with a live
task at the head of the ring, and Reply to a live task. -/
inductive Transfers (k : Kernel) : Syscall → Transfer → Prop
  | send {c r : TaskPtr} (current : k.currentTask = some c)
      (found : getTaskByTid k (toInt32 (getSendArgs (k.task c)).tid) = .ok (some r))
      (waits : (k.task r).state = .waitreceive) :
      Transfers k .send
        { mem := storeInt k.mem (getReceiveArgs (k.task r)).tid (k.task c).tid
          msgFrom := (getSendArgs (k.task c)).msg
          lenFrom := (getSendArgs (k.task c)).msgLen
          msgTo := (getReceiveArgs (k.task r)).msg
          lenTo := (getReceiveArgs (k.task r)).msgLen
          receiver := r }
  | receive {c s : TaskPtr} (current : k.currentTask = some c)
      (queued : queueIsEmpty (k.task c).senders = false)
      (found : getTaskByTid (k.popSender c) (nextSender (k.task c)).1 = .ok (some s)) :
      Transfers k .receive
        { mem := storeInt k.mem (getReceiveArgs (k.task c)).tid ((k.popSender c).task s).tid
          msgFrom := (getSendArgs ((k.popSender c).task s)).msg
          lenFrom := (getSendArgs ((k.popSender c).task s)).msgLen
          msgTo := (getReceiveArgs (k.task c)).msg
          lenTo := (getReceiveArgs (k.task c)).msgLen
          receiver := c }
  | reply {c s : TaskPtr} (current : k.currentTask = some c)
      (found : getTaskByTid k (toInt32 (getReplyArgs (k.task c)).tid) = .ok (some s)) :
      Transfers k .reply
        { mem := k.mem
          msgFrom := (getReplyArgs (k.task c)).reply
          lenFrom := (getReplyArgs (k.task c)).replyLen
          msgTo := (getSendArgs (k.task s)).reply
          lenTo := (getSendArgs (k.task s)).replyLen
          receiver := s }

/-- Every copy of the trap comes to its end.  With a negative length `memcpy` counts over `2 ^ 63`
bytes, through addresses that no memory has, and does not return. -/
def Kernel.CopiesEnd (k : Kernel) (trap : Trap) : Prop :=
  ∀ call t, trap.syscall = some call → Transfers k call t → 0 ≤ t.len

/-- The trap is handled, and the handler returns. -/
structure Completes (img : Image) (k : Kernel) (trap : Trap) (k' : Kernel) : Prop where
  handled : handleCurrentException img k trap = .ok k'
  copies : k.CopiesEnd trap

/-- The message has arrived: the memory is as after the copy, and the receiver is given the
length. -/
structure Arrived (t : Transfer) (k' : Kernel) : Prop where
  mem : k'.mem = t.copied
  result : (k'.task t.receiver).result = ofInt t.len
  passed : (k'.task t.receiver).shouldPassResult = true

theorem changeTaskState_mem_task {k k' : Kernel} {u : TaskPtr} {s : TaskState}
    (h : changeTaskState k u s = .ok k') : k'.mem = k.mem ∧
      k'.task = Function.update k.task u { k.task u with state := s } := by
  unfold changeTaskState at h
  split at h
  · cases h
  · obtain ⟨k₁, h₁, h₂⟩ := bind_eq_ok.mp h
    have hkeep : k₁.mem = k.mem ∧ k₁.task = k.task := by
      split at h₁
      · cases h₁
        exact ⟨rfl, rfl⟩
      · obtain ⟨r, -, h₁⟩ := bind_eq_ok.mp h₁
        cases h₁
        exact ⟨rfl, rfl⟩
      · cases h₁
        exact ⟨rfl, rfl⟩
    cases h₂
    refine ⟨hkeep.1, ?_⟩
    show Function.update k₁.task u _ = _
    rw [hkeep.2]

theorem Arrived.changeTaskState {t : Transfer} {k k' : Kernel} {u : TaskPtr} {s : TaskState}
    (ha : Arrived t k) (h : changeTaskState k u s = .ok k') : Arrived t k' := by
  obtain ⟨hmem, htask⟩ := changeTaskState_mem_task h
  refine ⟨hmem.trans ha.mem, ?_, ?_⟩
  · rw [htask]
    by_cases hu : t.receiver = u
    · subst hu
      rw [Function.update_self]
      exact ha.result
    · rw [Function.update_of_ne hu]
      exact ha.result
  · rw [htask]
    by_cases hu : t.receiver = u
    · subst hu
      rw [Function.update_self]
      exact ha.passed
    · rw [Function.update_of_ne hu]
      exact ha.passed

/-- The length may be given to the receiver once more. -/
theorem Arrived.assign {t : Transfer} {k : Kernel} (ha : Arrived t k) (c : TaskPtr) :
    Arrived t (k.modify c fun u => assignResult u (ofInt t.len)) := by
  refine ⟨ha.mem, ?_, ?_⟩
  · by_cases hc : t.receiver = c
    · simp [Kernel.modify, Core.modify, assignResult, hc]
    · simp [Kernel.modify, Core.modify, hc, ha.result]
  · by_cases hc : t.receiver = c
    · simp [Kernel.modify, Core.modify, assignResult, hc]
    · simp [Kernel.modify, Core.modify, hc, ha.passed]

/-- **`synchronized_send_receive`** makes the transfer of its arguments. -/
theorem synchronizedSendReceive_arrived {k k' : Kernel} {t : Transfer} {len : ℤ}
    (hmem : k.mem = t.mem)
    (h : synchronizedSendReceive k t.msgFrom (toInt32 t.lenFrom) t.receiver t.msgTo
      (toInt32 t.lenTo) = .ok (len, k')) : len = t.len ∧ Arrived t k' := by
  have hcopy : copyMessage k.mem t.msgFrom (toInt32 t.lenFrom) t.msgTo (toInt32 t.lenTo) =
      (t.len, t.copied) := by
    rw [hmem]
    rfl
  have hcopied : Arrived t (Kernel.modify { k with mem := t.copied } t.receiver
      fun u => assignResult u (ofInt t.len)) := by
    refine ⟨rfl, ?_, ?_⟩
    · simp [Kernel.modify, Core.modify, assignResult]
    · simp [Kernel.modify, Core.modify, assignResult]
  unfold synchronizedSendReceive at h
  rw [hcopy] at h
  obtain ⟨k₁, h₁, h₂⟩ := bind_eq_ok.mp h
  cases h₂
  refine ⟨rfl, ?_⟩
  split at h₁
  · exact hcopied.changeTaskState h₁
  · cases h₁
    exact hcopied

/-- **The message of a system call arrives.**  A Reply tells its caller the length as well. -/
theorem Transfers.arrived {img : Image} {k k' : Kernel} {call : Syscall} {t : Transfer}
    (ht : Transfers k call t) (h : synchronousExceptionHandlers img call k = .ok k') :
    Arrived t k' ∧
      (call = .reply → ∀ c, k.currentTask = some c → (k'.task c).result = ofInt t.len) := by
  cases ht with
  | @send c r current found waits =>
    simp only [synchronousExceptionHandlers, sysSend, getCurrentTask, current, deref, ok_bind,
      found, waits, if_true] at h
    obtain ⟨⟨len, k₁⟩, h₁, h₂⟩ := bind_eq_ok.mp h
    have harr := synchronizedSendReceive_arrived
      (t := ⟨storeInt k.mem (getReceiveArgs (k.task r)).tid (k.task c).tid,
        (getSendArgs (k.task c)).msg, (getSendArgs (k.task c)).msgLen,
        (getReceiveArgs (k.task r)).msg, (getReceiveArgs (k.task r)).msgLen, r⟩) rfl h₁
    refine ⟨harr.2.changeTaskState h₂, ?_⟩
    intro hcall
    cases hcall
  | @receive c s current queued found =>
    unfold Kernel.popSender at found
    simp only [synchronousExceptionHandlers, sysReceive, getCurrentTask, current, deref, ok_bind,
      queued, found] at h
    obtain ⟨⟨len, k₁⟩, h₁, h₂⟩ := bind_eq_ok.mp h
    have harr := synchronizedSendReceive_arrived
      (t := ⟨storeInt k.mem (getReceiveArgs (k.task c)).tid ((k.popSender c).task s).tid,
        (getSendArgs ((k.popSender c).task s)).msg, (getSendArgs ((k.popSender c).task s)).msgLen,
        (getReceiveArgs (k.task c)).msg, (getReceiveArgs (k.task c)).msgLen, c⟩) rfl h₁
    refine ⟨harr.2.changeTaskState h₂, ?_⟩
    intro hcall
    cases hcall
  | @reply c s current found =>
    simp only [synchronousExceptionHandlers, sysReply, getCurrentTask, current, deref, ok_bind,
      found] at h
    obtain ⟨⟨len, k₁⟩, h₁, h₂⟩ := bind_eq_ok.mp h
    cases h₂
    -- the caller may be the task it replies to: it is given the same length twice
    obtain ⟨rfl, harr⟩ := synchronizedSendReceive_arrived (k := k)
      (t := ⟨k.mem, (getReplyArgs (k.task c)).reply, (getReplyArgs (k.task c)).replyLen,
        (getSendArgs (k.task s)).reply, (getSendArgs (k.task s)).replyLen, s⟩) rfl h₁
    refine ⟨harr.assign c, fun _ c' hc' => ?_⟩
    obtain rfl : c = c' := Option.some.inj (current.symm.trans hc')
    simp [Kernel.modify, Core.modify, assignResult]

/-- A Send, Receive or Reply that makes no transfer leaves the memory alone. -/
theorem mem_of_no_transfer {img : Image} {k k' : Kernel} {call : Syscall}
    (hcall : call = .send ∨ call = .receive ∨ call = .reply) (hnone : ∀ t, ¬ Transfers k call t)
    (h : synchronousExceptionHandlers img call k = .ok k') : k'.mem = k.mem := by
  rcases hcall with rfl | rfl | rfl
  · show k'.mem = _
    simp only [synchronousExceptionHandlers, sysSend, getCurrentTask] at h
    obtain ⟨c, hc, h⟩ := bind_eq_ok.mp h
    obtain ⟨o, ho, h⟩ := bind_eq_ok.mp h
    have hcur : k.currentTask = some c := deref_eq_ok.mp hc
    cases o with
    | none =>
      cases h
      rfl
    | some r =>
      dsimp only at h
      split at h
      · rename_i hw
        exact absurd (.send hcur ho hw) (hnone _)
      · split at h
        · exact (changeTaskState_mem_task h).1
        · cases h
          rfl
  · simp only [synchronousExceptionHandlers, sysReceive, getCurrentTask] at h
    obtain ⟨c, hc, h⟩ := bind_eq_ok.mp h
    have hcur : k.currentTask = some c := deref_eq_ok.mp hc
    split at h
    · exact (changeTaskState_mem_task h).1
    · rename_i hq
      obtain ⟨o, ho, h⟩ := bind_eq_ok.mp h
      cases o with
      | none =>
        cases h
        rfl
      | some s => exact absurd (.receive hcur (Bool.eq_false_of_not_eq_true hq) ho) (hnone _)
  · simp only [synchronousExceptionHandlers, sysReply, getCurrentTask] at h
    obtain ⟨c, hc, h⟩ := bind_eq_ok.mp h
    obtain ⟨o, ho, h⟩ := bind_eq_ok.mp h
    have hcur : k.currentTask = some c := deref_eq_ok.mp hc
    cases o with
    | none =>
      cases h
      rfl
    | some s => exact absurd (.reply hcur ho) (hnone _)

/-- **Message copies stay inside their buffers** just when the lengths are not negative, neither
in the registers nor narrowed, and the source is not overwritten before it is read.  Both ends
of a Reply are given the same length, and calls that make no transfer leave the memory alone. -/
theorem message_copy_safe_iff (img : Image) (k : Kernel) (call : Syscall) :
    (∀ t, Transfers k call t →
      (t.Safe t.copied (ofInt t.len) ↔ t.Contained) ∧
      ∀ k', synchronousExceptionHandlers img call k = .ok k' →
        (t.Safe k'.mem (k'.task t.receiver).result ↔ t.Contained) ∧
        (call = .reply → ∀ c, k.currentTask = some c →
          (k'.task c).result = (k'.task t.receiver).result)) ∧
    ((call = .send ∨ call = .receive ∨ call = .reply) → (∀ t, ¬ Transfers k call t) →
      ∀ k', synchronousExceptionHandlers img call k = .ok k' → k'.mem = k.mem) := by
  refine ⟨fun t ht => ⟨t.safe_iff, fun k' hk' => ?_⟩, fun hcall hnone k' hk' =>
    mem_of_no_transfer hcall hnone hk'⟩
  obtain ⟨harr, hreply⟩ := ht.arrived hk'
  rw [harr.mem, harr.result]
  exact ⟨t.safe_iff, hreply⟩

/-- The idle task sends four bytes to the first task, which has room for `len`. -/
theorem send_to_receiver (len : U64) (hlen : zeroBoot.check [svc 22 [0x100, 0x200, len]] (fun _ k =>
      returns (enterTrap k (svc 21 [0, 0x300, 4, 0x400, 8])) fun m =>
        decide (m.currentTask = some 1 ∧ getTaskByTid m 0 = .ok (some 0) ∧
          (m.task 0).state = .waitreceive ∧ (m.task 1).x 0 = 0 ∧ (m.task 1).x 1 = 0x300 ∧
          (m.task 1).x 2 = 4 ∧ (m.task 0).x 1 = 0x200 ∧ (m.task 0).x 2 = len) &&
        returns (synchronousExceptionHandlers zeroBoot.img .send m) fun _ => true) = true) :
    ∃ hist k m t k', zeroBoot.Reaches hist k ∧
      enterTrap k (svc 21 [0, 0x300, 4, 0x400, 8]) = .ok m ∧ Transfers m .send t ∧
      synchronousExceptionHandlers zeroBoot.img .send m = .ok k' ∧
      t.msgFrom = 0x300 ∧ t.lenFrom = 4 ∧ t.msgTo = 0x200 ∧ t.lenTo = len := by
  obtain ⟨hist, k, r, -, hk⟩ := Boot.reaches_of_check zeroBoot _ _ hlen
  obtain ⟨m, hm, hk⟩ := returns_iff.mp hk
  obtain ⟨hk, hok⟩ := Bool.and_eq_true_iff.mp hk
  obtain ⟨k', hk', -⟩ := returns_iff.mp hok
  obtain ⟨hc, hs, hw, h₀, h₁, h₂, h₁', h₂'⟩ := of_decide_eq_true hk
  have hfound : getTaskByTid m (toInt32 (getSendArgs (m.task 1)).tid) = .ok (some 0) := by
    show getTaskByTid m (toInt32 ((m.task 1).x 0)) = _
    rw [h₀]
    exact hs
  exact ⟨hist, k, m, _, k', r, hm, .send hc hfound hw, hk', h₁, h₂, h₁', h₂'⟩

theorem message_copy_safe_run : ∃ hist k m t k', zeroBoot.Reaches hist k ∧
    enterTrap k (svc 21 [0, 0x300, 4, 0x400, 8]) = .ok m ∧ Transfers m .send t ∧
    synchronousExceptionHandlers zeroBoot.img .send m = .ok k' ∧
    t.Safe k'.mem (k'.task t.receiver).result := by
  obtain ⟨hist, k, m, t, k', r, hm, ht, hk', hfrom, hlf, hto, hlt⟩ :=
    send_to_receiver 8 (by decide +kernel)
  have hapart : Apart (0x300 : U64) 4 0x200 4 := by
    unfold Apart
    decide
  have hcontained : t.Contained := by
    constructor
    · rw [hlf]
      decide
    · rw [hlt]
      decide
    · rw [hlf, hlt]
      decide
    · rw [hlf, hlt, hfrom, hto]
      exact hapart.undisturbed
  have hsafe := (((message_copy_safe_iff zeroBoot.img m .send).1 t ht).2 k' hk').1.mpr hcontained
  exact ⟨hist, k, m, t, k', r, hm, ht, hk', hsafe⟩

/-- The length of the receiver is -1: the copy runs through the address space. -/
theorem message_copy_overrun : ∃ hist k m t k', zeroBoot.Reaches hist k ∧
    enterTrap k (svc 21 [0, 0x300, 4, 0x400, 8]) = .ok m ∧ Transfers m .send t ∧
    synchronousExceptionHandlers zeroBoot.img .send m = .ok k' ∧
    t.lenTo = BitVec.ofInt 64 (-1) ∧ ¬ t.Safe k'.mem (k'.task t.receiver).result := by
  obtain ⟨hist, k, m, t, k', r, hm, ht, hk', -, -, -, hlt⟩ :=
    send_to_receiver (BitVec.ofInt 64 (-1)) (by decide +kernel)
  have hunsafe : ¬ t.Safe k'.mem (k'.task t.receiver).result := by
    have harr := (ht.arrived hk').1
    rw [harr.mem, harr.result, t.safe_iff]
    intro hcontained
    have hneg := hcontained.to_nonneg
    rw [hlt] at hneg
    exact absurd hneg (by decide)
  exact ⟨hist, k, m, t, k', r, hm, ht, hk', hlt, hunsafe⟩

end RealtimeKernel
