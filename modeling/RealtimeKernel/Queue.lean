import RealtimeKernel.Basic

/-!
# `queue.c`: the ring queue

`head` and `tail` are indices into `container`; the queue is empty when they are equal, so one
slot stays unused.  The field `size` of the C struct is neither written nor read and is left
out.  `Queue.contents` lists the stored elements from the oldest to the newest, and the
operations are `contents ++ [e]` and `tail` on it.
-/

namespace RealtimeKernel

structure Queue where
  container : ℕ → U64
  capacity : ℕ
  head : ℕ
  tail : ℕ

def modularInc (x mod : ℕ) : ℕ := (x + 1) % mod

def queueInit (container : ℕ → U64) (capacity : ℕ) : Queue :=
  { container := container, capacity := capacity, head := 0, tail := 0 }

def queueIsEmpty (queue : Queue) : Bool := queue.head == queue.tail

def queueIsFull (queue : Queue) : Bool :=
  queue.head == modularInc queue.tail queue.capacity

def queuePush (queue : Queue) (elem : U64) : Bool × Queue :=
  if queueIsFull queue then (false, queue)
  else
    (true, { queue with
      container := Function.update queue.container queue.tail elem
      tail := modularInc queue.tail queue.capacity })

def queuePop (queue : Queue) : U64 × Queue :=
  if queueIsEmpty queue then (0, queue)
  else
    (queue.container queue.head,
      { queue with head := modularInc queue.head queue.capacity })

namespace Queue

/-- The indices lie inside the container. -/
structure Ok (q : Queue) : Prop where
  head_lt : q.head < q.capacity
  tail_lt : q.tail < q.capacity

/-- How many elements are stored. -/
def used (q : Queue) : ℕ := (q.tail + q.capacity - q.head) % q.capacity

/-- The stored elements, oldest first. -/
def contents (q : Queue) : List U64 :=
  (List.range q.used).map fun i => q.container ((q.head + i) % q.capacity)

variable {q : Queue}

@[simp] theorem contents_length : q.contents.length = q.used := by simp [contents]

theorem used_eq (hq : q.Ok) :
    q.used = if q.head ≤ q.tail then q.tail - q.head else q.tail + q.capacity - q.head := by
  have h₁ := hq.head_lt
  have h₂ := hq.tail_lt
  unfold used
  split
  · rw [show q.tail + q.capacity - q.head = q.tail - q.head + q.capacity by omega,
      Nat.add_mod_right, Nat.mod_eq_of_lt (by omega)]
  · exact Nat.mod_eq_of_lt (by omega)

theorem used_lt (hq : q.Ok) : q.used < q.capacity :=
  Nat.mod_lt _ (by have := hq.head_lt; omega)

theorem modularInc_eq {x m : ℕ} (h : x < m) :
    modularInc x m = if x + 1 = m then 0 else x + 1 := by
  unfold modularInc
  split
  · simp_all
  · exact Nat.mod_eq_of_lt (by omega)

/-- The slot `i` places after the head, without the remainder. -/
theorem slot_eq (hq : q.Ok) {i : ℕ} (hi : i < q.capacity) :
    (q.head + i) % q.capacity
      = if q.head + i < q.capacity then q.head + i else q.head + i - q.capacity := by
  have h₁ := hq.head_lt
  split
  · exact Nat.mod_eq_of_lt (by omega)
  · rw [Nat.mod_eq_sub_mod (by omega), Nat.mod_eq_of_lt (by omega)]

/-- The tail is the slot just after the stored elements. -/
theorem slot_used (hq : q.Ok) : (q.head + q.used) % q.capacity = q.tail := by
  have h₁ := hq.head_lt
  have h₂ := hq.tail_lt
  rw [slot_eq hq (used_lt hq), used_eq hq]
  split_ifs <;> omega

/-! ### The operations on the contents -/

theorem init_ok (container : ℕ → U64) {capacity : ℕ} (h : 0 < capacity) :
    (queueInit container capacity).Ok := ⟨h, h⟩

@[simp] theorem init_contents (container : ℕ → U64) (capacity : ℕ) :
    (queueInit container capacity).contents = [] := by
  simp [queueInit, contents, used]

theorem isEmpty_iff (hq : q.Ok) : queueIsEmpty q = true ↔ q.contents = [] := by
  have h₁ := hq.head_lt
  have h₂ := hq.tail_lt
  rw [← List.length_eq_zero_iff, contents_length, used_eq hq]
  simp only [queueIsEmpty, beq_iff_eq]
  split_ifs <;> omega

theorem isFull_iff (hq : q.Ok) : queueIsFull q = true ↔ q.used + 1 = q.capacity := by
  have h₁ := hq.head_lt
  have h₂ := hq.tail_lt
  rw [used_eq hq]
  simp only [queueIsFull, beq_iff_eq, modularInc_eq h₂]
  split_ifs <;> omega

theorem push_fst (hq : q.Ok) (e : U64) :
    (queuePush q e).1 = true ↔ q.used + 1 < q.capacity := by
  have hlt := used_lt hq
  have hfull := isFull_iff hq
  unfold queuePush
  split
  · simp_all
  · simp_all
    omega

theorem push_full (e : U64) (h : (queuePush q e).1 = false) : (queuePush q e).2 = q := by
  unfold queuePush at h ⊢
  split <;> simp_all

theorem push_ok (hq : q.Ok) (e : U64) : (queuePush q e).2.Ok := by
  unfold queuePush
  split
  · exact hq
  · exact ⟨hq.head_lt, Nat.mod_lt _ (by have := hq.head_lt; omega)⟩

theorem push_capacity (e : U64) : (queuePush q e).2.capacity = q.capacity := by
  unfold queuePush
  split <;> rfl

theorem push_contents (hq : q.Ok) (e : U64) (h : (queuePush q e).1 = true) :
    (queuePush q e).2.contents = q.contents ++ [e] := by
  have hroom := (push_fst hq e).mp h
  have hnf : queueIsFull q = false := by
    rw [Bool.eq_false_iff, Ne, isFull_iff hq]
    omega
  have h₁ := hq.head_lt
  have h₂ := hq.tail_lt
  have hok := push_ok hq e
  have hused : (queuePush q e).2.used = q.used + 1 := by
    rw [used_eq hok, used_eq hq] at *
    simp only [queuePush, hnf, modularInc_eq h₂] at *
    simp only [Bool.false_eq_true, if_false] at *
    split_ifs at * <;> omega
  unfold contents
  rw [hused, List.range_succ, List.map_append, List.map_singleton]
  have hslots : ∀ i ∈ List.range q.used,
      (queuePush q e).2.container (((queuePush q e).2.head + i) % (queuePush q e).2.capacity)
        = q.container ((q.head + i) % q.capacity) := by
    intro i hi
    rw [List.mem_range] at hi
    simp only [queuePush, hnf, Bool.false_eq_true, if_false]
    rw [Function.update_of_ne]
    rw [← slot_used hq, slot_eq hq (by omega), slot_eq hq (by omega)]
    split_ifs <;> omega
  rw [List.map_congr_left hslots]
  congr 2
  simp only [queuePush, hnf, Bool.false_eq_true, if_false]
  rw [slot_used hq, Function.update_self]

theorem pop_ok (hq : q.Ok) : (queuePop q).2.Ok := by
  unfold queuePop
  split
  · exact hq
  · exact ⟨Nat.mod_lt _ (by have := hq.head_lt; omega), hq.tail_lt⟩

theorem pop_capacity : (queuePop q).2.capacity = q.capacity := by
  unfold queuePop
  split <;> rfl

/-- Popping a non-empty queue returns the oldest element and leaves the others. -/
theorem pop_contents (hq : q.Ok) (hne : queueIsEmpty q = false) :
    q.contents = (queuePop q).1 :: (queuePop q).2.contents := by
  have h₁ := hq.head_lt
  have h₂ := hq.tail_lt
  have hok := pop_ok hq
  have hused : q.used = (queuePop q).2.used + 1 := by
    rw [used_eq hok, used_eq hq]
    have hne' : q.head ≠ q.tail := by simpa [queueIsEmpty] using hne
    simp only [queuePop, hne, modularInc_eq h₁, Bool.false_eq_true, if_false]
    split_ifs <;> omega
  unfold contents
  rw [hused, List.range_succ_eq_map, List.map_cons, List.map_map]
  congr 1
  · simp [queuePop, hne, Nat.mod_eq_of_lt h₁]
  · refine List.map_congr_left fun i hi => ?_
    simp only [queuePop, hne, Bool.false_eq_true, if_false, Function.comp_apply, modularInc]
    congr 1
    rw [Nat.mod_add_mod]
    congr 1
    omega

end Queue

end RealtimeKernel
