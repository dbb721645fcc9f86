import RealtimeKernel.Basic
import RealtimeKernel.Lib.Links
import RealtimeKernel.Lib.Runs
import RealtimeKernel.Lib.SortedQueues
import RealtimeKernel.MemoryPool

/-!
# `clock_server.c`: the delay queue on nodes anywhere in memory

The clock server takes the nodes of its queue from a pool of 512 chunks.  The functions of the
queue know nothing of the pool: they work on nodes at any addresses, which are here of a type
`ν`.  `delay_queue_add` sets `end` when the queue is empty and leaves it alone otherwise, also
when the new node becomes the last one.
-/

namespace RealtimeKernel

open Lib

variable {ν : Type} [DecidableEq ν]

/-- A `DelayQueueNode`. -/
structure HeapNode (ν : Type) where
  tid : ℤ
  delay : U32
  next : Option ν

abbrev NodeHeap (ν : Type) := ν → HeapNode ν

/-- A `DelayQueue`. -/
structure NodeQueue (ν : Type) where
  front : Option ν
  endNode : Option ν
  size : U64

/-! ### `clock_server.c` -/

namespace NodeHeap

/-- `node->next = next`. -/
def setNext (heap : NodeHeap ν) (node : ν) (next : Option ν) : NodeHeap ν :=
  Function.update heap node { heap node with next := next }

/-- The column of links. -/
def next (heap : NodeHeap ν) (node : ν) : Option ν := (heap node).next

theorem setNext_next (heap : NodeHeap ν) (node : ν) (v : Option ν) :
    (heap.setNext node v).next = Function.update heap.next node v := by
  funext m
  by_cases hm : m = node
  · subst hm
    simp [next, setNext]
  · simp [next, setNext, hm]

theorem setNext_delay (heap : NodeHeap ν) (node : ν) (v : Option ν) (m : ν) :
    ((heap.setNext node v) m).delay = (heap m).delay := by
  by_cases hm : m = node
  · subst hm
    simp [setNext]
  · simp [setNext, hm]

end NodeHeap

namespace NodeQueue

def delayQueueInit : NodeQueue ν := { front := none, endNode := none, size := 0 }

/-- The loop of `delay_queue_add`.  It visits a node at most once unless the chain has no end,
so that as many passes are enough as there are nodes. -/
def delayQueueWalk (heap : NodeHeap ν) (delay : U32) :
    ℕ → Option ν → Option ν → Except Fault (Option ν × Option ν)
  | _, previousNode, none => .ok (previousNode, none)
  | 0, _, some _ => .error .endless
  | n + 1, previousNode, some currentNode =>
    if (heap currentNode).delay ≤ delay then
      delayQueueWalk heap delay n (some currentNode) (heap currentNode).next
    else .ok (previousNode, some currentNode)

/-- `n` is the number of nodes there can be. -/
def delayQueueAdd (n : ℕ) (heap : NodeHeap ν) (self : NodeQueue ν) (node : ν) :
    Except Fault (NodeHeap ν × NodeQueue ν) :=
  let heap := heap.setNext node none
  match self.endNode with
  | some _ => do
    let (previousNode, currentNode) ← delayQueueWalk heap (heap node).delay n none self.front
    match previousNode with
    | some previousNode =>
      let heap := heap.setNext previousNode (some node)
      .ok (heap.setNext node currentNode, { self with size := self.size + 1 })
    | none =>
      .ok (heap.setNext node self.front,
        { self with front := some node, size := self.size + 1 })
  | none => .ok (heap, { endNode := some node, front := some node, size := self.size + 1 })

/-- The node that is returned, and the queue. -/
def delayQueuePop (heap : NodeHeap ν) (self : NodeQueue ν) : Option ν × NodeQueue ν :=
  match self.front with
  | some front =>
    match (heap front).next with
    | some next => (some front, { self with front := some next, size := self.size - 1 })
    | none => (some front, { front := none, endNode := none, size := self.size - 1 })
  | none => (none, { self with size := self.size - 1 })

end NodeQueue

/-! ### The chain -/

/-- The delay of an entry. -/
def entryKey (e : ν × U32) : ℕ := e.2.toNat

/-- The chain from `front` consists of the nodes of `q`, which have these delays. -/
structure Chained (heap : NodeHeap ν) (queue : NodeQueue ν) (q : List (ν × U32)) : Prop where
  seg : Seg heap.next queue.front (q.map Prod.fst) none
  delay : ∀ e ∈ q, (heap e.1).delay = e.2
  nodup : (q.map Prod.fst).Nodup
  endNode : queue.endNode = none ↔ q = []
  size : queue.size = BitVec.ofNat 64 q.length

namespace Chained

variable {heap : NodeHeap ν} {queue : NodeQueue ν} {q : List (ν × U32)} {x : ν} {d : U32} {n : ℕ}

omit [DecidableEq ν] in
/-- The walk stops between the entries that are not later and the first later one. -/
theorem walk_eq {current : Option ν} (previous : Option ν)
    (h : Seg heap.next current (q.map Prod.fst) none) (hd : ∀ e ∈ q, (heap e.1).delay = e.2)
    (hn : q.length ≤ n) :
    NodeQueue.delayQueueWalk heap d n previous current =
      .ok (((q.takeWhile fun e => decide (entryKey e ≤ d.toNat)).map Prod.fst).getLast?.or
        previous, ((q.dropWhile fun e => decide (entryKey e ≤ d.toNat)).map Prod.fst).head?) := by
  induction q generalizing n current previous with
  | nil =>
    obtain rfl := h
    cases n <;> rfl
  | cons e q ih =>
    obtain ⟨rfl, hrest⟩ := h
    obtain ⟨n, rfl⟩ : ∃ m, n = m + 1 := ⟨n - 1, by simp at hn; omega⟩
    rw [NodeQueue.delayQueueWalk, hd e (by simp)]
    by_cases hle : e.2 ≤ d
    · have hkey : entryKey e ≤ d.toNat := hle
      have hwalk := ih (some e.1) hrest (fun f hf => hd f (by simp [hf])) (by simpa using hn)
      rw [if_pos hle, List.takeWhile_cons_of_pos (by simpa using hkey),
        List.dropWhile_cons_of_pos (by simpa using hkey), List.map_cons, List.getLast?_cons]
      apply hwalk.trans
      cases ((q.takeWhile fun e => decide (entryKey e ≤ d.toNat)).map Prod.fst).getLast? <;> rfl
    · have hkey : ¬entryKey e ≤ d.toNat := hle
      rw [if_neg hle, List.takeWhile_cons_of_neg (by simpa using hkey),
        List.dropWhile_cons_of_neg (by simpa using hkey)]
      rfl

/-- Only the nodes of the queue matter. -/
theorem write (h : Chained heap queue q) (hx : x ∉ q.map Prod.fst) (content : HeapNode ν) :
    Chained (Function.update heap x content) queue q where
  seg := by
    apply h.seg.congr
    intro y hy
    have hne : y ≠ x := fun heq => hx (heq ▸ hy)
    simp [NodeHeap.next, hne]
  delay := by
    intro e he
    have hne : e.1 ≠ x := fun heq => hx (heq ▸ List.mem_map_of_mem he)
    rw [Function.update_of_ne hne]
    exact h.delay e he
  nodup := h.nodup
  endNode := h.endNode
  size := h.size

/-- **`delay_queue_add`** links a node into its place, and sets `end` if the queue was empty. -/
theorem add (h : Chained heap queue q) (hx : x ∉ q.map Prod.fst) (hd : (heap x).delay = d)
    (hn : q.length ≤ n) :
    ∃ heap' queue', NodeQueue.delayQueueAdd n heap queue x = .ok (heap', queue') ∧
      Chained heap' queue' (insertBehind entryKey (x, d) q) ∧
      queue'.endNode = queue.endNode.or (some x) := by
  let l₁ := (q.takeWhile fun e => decide (entryKey e ≤ d.toNat)).map Prod.fst
  let l₂ := (q.dropWhile fun e => decide (entryKey e ≤ d.toNat)).map Prod.fst
  have hsplit : l₁ ++ l₂ = q.map Prod.fst := by
    rw [← List.map_append, List.takeWhile_append_dropWhile]
  have hnodes : (insertBehind entryKey (x, d) q).map Prod.fst = l₁ ++ x :: l₂ := by
    rw [insertBehind, List.map_append, List.map_cons]
    rfl
  have hperm := insertBehind_perm entryKey (x, d) q
  have hnodup : ((insertBehind entryKey (x, d) q).map Prod.fst).Nodup :=
    (hperm.map Prod.fst).nodup_iff.mpr (List.nodup_cons.mpr ⟨hx, h.nodup⟩)
  have hsize : queue.size + 1 = BitVec.ofNat 64 (insertBehind entryKey (x, d) q).length := by
    rw [hperm.length_eq, h.size, List.length_cons, BitVec.ofNat_add]
    rfl
  have hdelay : ∀ heap' : NodeHeap ν, (∀ m, (heap' m).delay = (heap m).delay) →
      ∀ e ∈ insertBehind entryKey (x, d) q, (heap' e.1).delay = e.2 := by
    intro heap' hsame e he
    rw [hsame]
    rcases List.mem_cons.mp (hperm.mem_iff.mp he) with rfl | he
    · exact hd
    · exact h.delay e he
  have hcut : Seg (Function.update heap.next x none) queue.front (l₁ ++ l₂) none := by
    rw [hsplit]
    exact h.seg.update hx none
  have hins := hcut.insert (x := x) (by rw [hsplit]; exact h.nodup) (by rw [hsplit]; exact hx)
  rw [← hnodes] at hins
  unfold NodeQueue.delayQueueAdd
  cases hend : queue.endNode with
  | none =>
    obtain rfl := h.endNode.mp hend
    refine ⟨_, _, rfl, ⟨?_, hdelay _ (heap.setNext_delay x none), hnodup,
      by simp [insertBehind], hsize⟩, rfl⟩
    rw [NodeHeap.setNext_next]
    exact ⟨rfl, Function.update_self _ _ _⟩
  | some last =>
    have hwalk : NodeQueue.delayQueueWalk (heap.setNext x none) d n none queue.front =
        .ok (l₁.getLast?, l₂.head?) := by
      rw [walk_eq none (by rw [NodeHeap.setNext_next]; exact hsplit ▸ hcut) _ hn, Option.or_none]
      intro e he
      rw [NodeHeap.setNext_delay]
      exact h.delay e he
    simp only [NodeHeap.setNext_delay, hd, hwalk, ok_bind]
    cases hprev : l₁.getLast? with
    | none =>
      have hfront : queue.front = l₂.head? := by
        rw [List.getLast?_eq_none_iff.mp hprev, List.nil_append] at hcut
        exact hcut.start_eq
      rw [hprev] at hins
      refine ⟨_, _, rfl, ⟨?_, hdelay _ ?_, hnodup, by simp [insertBehind], hsize⟩, rfl⟩
      · rw [NodeHeap.setNext_next, NodeHeap.setNext_next, hfront]
        exact hins
      · intro m
        rw [NodeHeap.setNext_delay, NodeHeap.setNext_delay]
    | some previous =>
      rw [hprev] at hins
      refine ⟨_, _, rfl, ⟨?_, hdelay _ ?_, hnodup, by simp [insertBehind], hsize⟩, rfl⟩
      · rw [NodeHeap.setNext_next, NodeHeap.setNext_next, NodeHeap.setNext_next]
        exact hins
      · intro m
        rw [NodeHeap.setNext_delay, NodeHeap.setNext_delay, NodeHeap.setNext_delay]

omit [DecidableEq ν] in
/-- **`delay_queue_pop`** takes the first node out, and clears `end` with the last one. -/
theorem pop {e : ν × U32} (h : Chained heap queue (e :: q)) :
    (NodeQueue.delayQueuePop heap queue).1 = some e.1 ∧
      Chained heap (NodeQueue.delayQueuePop heap queue).2 q ∧
      (NodeQueue.delayQueuePop heap queue).2.endNode =
        if q = [] then none else queue.endNode := by
  obtain ⟨hfront, hseg⟩ := h.seg
  have hsize : queue.size - 1 = BitVec.ofNat 64 q.length := by
    rw [h.size, List.length_cons, BitVec.ofNat_add]
    exact BitVec.add_sub_cancel _ _
  have hdelay : ∀ f ∈ q, (heap f.1).delay = f.2 := fun f hf => h.delay f (by simp [hf])
  have hnodup := (List.nodup_cons.mp h.nodup).2
  have hend : queue.endNode ≠ none := fun he => by simpa using h.endNode.mp he
  have hstart : (heap e.1).next = (q.map Prod.fst).head? := hseg.start_eq
  cases q with
  | nil =>
    have hpop : NodeQueue.delayQueuePop heap queue =
        (some e.1, { front := none, endNode := none, size := queue.size - 1 }) := by
      simp [NodeQueue.delayQueuePop, hfront, hstart]
    rw [hpop]
    exact ⟨rfl, ⟨rfl, hdelay, hnodup, by simp, hsize⟩, rfl⟩
  | cons f q =>
    have hpop : NodeQueue.delayQueuePop heap queue =
        (some e.1, { queue with front := some f.1, size := queue.size - 1 }) := by
      simp [NodeQueue.delayQueuePop, hfront, hstart]
    have hseg' : Seg heap.next (some f.1) ((f :: q).map Prod.fst) none := by
      have hnext : heap.next e.1 = some f.1 := hstart
      rwa [hnext] at hseg
    rw [hpop]
    exact ⟨rfl, ⟨hseg', hdelay, hnodup, by simp [hend], hsize⟩, by simp⟩

end Chained

end RealtimeKernel
