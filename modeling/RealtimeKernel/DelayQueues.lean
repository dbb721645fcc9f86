import RealtimeKernel.Lib.Sessions
import RealtimeKernel.NodeQueues

/-!
# Sessions with a delay queue

A caller adds nodes that are not in the queue, each filled in before, and pops a queue that is
not empty.  The chain of the queue holds what was added and not popped, in the order of the
delays.  `end` is its last node until a node is added behind all others.
-/

namespace RealtimeKernel

open Lib

variable {ν : Type} [DecidableEq ν]

inductive DelayCall (ν : Type)
  | add (node : ν) (content : HeapNode ν)
  | pop

/-- The caller fills in a node before it adds it; a pop answers with the node it took out. -/
def delayCall (n : ℕ) :
    Component (NodeHeap ν × NodeQueue ν) (DelayCall ν) (Option ν) Fault
  | (heap, queue), .add node content =>
    (NodeQueue.delayQueueAdd n (Function.update heap node content) queue node).map
      fun s => (none, s)
  | (heap, queue), .pop =>
    .ok ((NodeQueue.delayQueuePop heap queue).1, heap, (NodeQueue.delayQueuePop heap queue).2)

/-- The nodes that were added and not popped, in the order in which they were added. -/
def pendingNodes (h : List (DelayCall ν × Option ν)) : List (ν × U32) :=
  h.foldl (fun items e =>
    match e with
    | (.add node content, _) => items ++ [(node, content.delay)]
    | (.pop, some node) => items.filter fun e => e.1 ≠ node
    | (.pop, none) => items) []

/-- An added node is not in the queue, and a queue that is popped is not empty. -/
def Usable (h : List (DelayCall ν × Option ν)) : DelayCall ν → Prop
  | .add node _ => node ∉ (pendingNodes h).map Prod.fst
  | .pop => pendingNodes h ≠ []

/-- A node that is added to a queue with nodes in it goes in front of one of them. -/
def NotLast (h : List (DelayCall ν × Option ν)) : DelayCall ν → Prop
  | .add _ content => pendingNodes h = [] ∨ ∃ e ∈ pendingNodes h, content.delay < e.2
  | .pop => True

/-- The chain from `front` is `q`, a stable sort of the pending nodes, and `size` counts it. -/
structure PendingChain (items : List (ν × U32)) (s : NodeHeap ν × NodeQueue ν)
    (q : List (ν × U32)) : Prop where
  chained : Chained s.1 s.2 q
  sorted : StablySorted entryKey q items
  size : s.2.size.toNat = q.length
  null : s.2.front = none ↔ s.2.endNode = none

/-- `end` is the last node of the chain. -/
def EndIsLast (s : NodeHeap ν × NodeQueue ν) (q : List (ν × U32)) : Prop :=
  s.2.endNode = (q.map Prod.fst).getLast?

section Sessions

variable {n : ℕ} {h : List (DelayCall ν × Option ν)} {c : DelayCall ν} {r : Option ν}
  {s s' : NodeHeap ν × NodeQueue ν} {items q : List (ν × U32)} {heap : NodeHeap ν}

theorem pendingNodes_add (node : ν) (content : HeapNode ν) (r : Option ν) :
    pendingNodes (h ++ [(.add node content, r)]) = pendingNodes h ++ [(node, content.delay)] := by
  simp [pendingNodes]

theorem pendingNodes_pop (node : ν) :
    pendingNodes (h ++ [(.pop, some node)]) =
      (pendingNodes h).filter fun e => e.1 ≠ node := by
  simp [pendingNodes]

omit [DecidableEq ν] in
theorem Chained.front_eq_none {queue : NodeQueue ν} (hc : Chained heap queue q) :
    queue.front = none ↔ q = [] := by
  rw [hc.seg.start_eq, List.head?_eq_none_iff, List.map_eq_nil_iff]

omit [DecidableEq ν] in
/-- A chain has one node for each entry, so that `size` can count it. -/
theorem Chained.pendingChain (hn : ∀ l : List ν, l.Nodup → l.length ≤ n) (hsize : n < 2 ^ 64)
    (hc : Chained s.1 s.2 q) (hs : StablySorted entryKey q items) : PendingChain items s q where
  chained := hc
  sorted := hs
  size := by
    have hlen := hn _ hc.nodup
    rw [List.length_map] at hlen
    rw [hc.size, BitVec.toNat_ofNat, Nat.mod_eq_of_lt (by omega)]
  null := by rw [hc.front_eq_none, hc.endNode]

omit [DecidableEq ν] in
theorem pendingChain_init (heap : NodeHeap ν) :
    PendingChain [] (heap, NodeQueue.delayQueueInit) ([] : List (ν × U32)) where
  chained := ⟨rfl, by simp, by simp, by simp [NodeQueue.delayQueueInit], rfl⟩
  sorted := .nil
  size := rfl
  null := Iff.rfl

namespace PendingChain

omit [DecidableEq ν] in
theorem eq_nil_iff (hq : PendingChain items s q) : q = [] ↔ items = [] := by
  have hperm := hq.sorted.perm
  constructor
  · intro hnil
    rw [hnil] at hperm
    exact hperm.nil_eq.symm
  · intro hnil
    rw [hnil] at hperm
    exact hperm.eq_nil

variable (hn : ∀ l : List ν, l.Nodup → l.length ≤ n) (hsize : n < 2 ^ 64)

include hn hsize

/-- An addition returns, and puts the node behind those that are not later. -/
theorem add (hq : PendingChain (pendingNodes h) s q) {node : ν} {content : HeapNode ν}
    (hnew : node ∉ (pendingNodes h).map Prod.fst) :
    ∃ s', delayCall n s (.add node content) = .ok (none, s') ∧
      PendingChain (pendingNodes (h ++ [(.add node content, none)])) s'
        (insertBehind entryKey (node, content.delay) q) ∧
      s'.2.endNode = s.2.endNode.or (some node) := by
  have hnot : node ∉ q.map Prod.fst := by
    rwa [(hq.sorted.perm.map Prod.fst).mem_iff]
  have hlen := hn _ hq.chained.nodup
  rw [List.length_map] at hlen
  obtain ⟨heap', queue', hadd, hc, hend⟩ := (hq.chained.write hnot content).add hnot
    (show (Function.update s.1 node content node).delay = content.delay by simp) hlen
  refine ⟨(heap', queue'), ?_, ?_, hend⟩
  · rw [delayCall, hadd]
    rfl
  · rw [pendingNodes_add]
    exact Chained.pendingChain hn hsize hc (hq.sorted.insert _)

/-- A pop of a queue that is not empty takes out the first node. -/
theorem pop (hq : PendingChain (pendingNodes h) s q) (hne : pendingNodes h ≠ []) :
    ∃ e l s', q = e :: l ∧ delayCall n s .pop = .ok (some e.1, s') ∧
      PendingChain (pendingNodes (h ++ [(.pop, some e.1)])) s' l ∧
      s'.2.endNode = if l = [] then none else s.2.endNode := by
  obtain ⟨e, l, rfl⟩ := List.exists_cons_of_ne_nil fun hnil => hne (hq.eq_nil_iff.mp hnil)
  obtain ⟨hpopped, hc, hend⟩ := hq.chained.pop
  refine ⟨e, l, (s.1, (NodeQueue.delayQueuePop s.1 s.2).2), rfl, ?_, ?_, hend⟩
  · rw [delayCall, hpopped]
  · have hrest : (e :: l).filter (fun f => f.1 ≠ e.1) = l :=
      filter_node_ne (show (([] ++ e :: l).map Prod.fst).Nodup from hq.chained.nodup)
    have hsorted := hq.sorted.filter fun f => f.1 ≠ e.1
    rw [hrest] at hsorted
    rw [pendingNodes_pop]
    exact Chained.pendingChain hn hsize hc hsorted

end PendingChain

omit [DecidableEq ν] in
/-- `end` is compared with the chain there is, whichever way it was found. -/
theorem EndIsLast.congr {items' q' : List _} (hq : PendingChain items s q)
    (hq' : PendingChain items' s q') : EndIsLast s q ↔ EndIsLast s q' := by
  have hsame : q.map Prod.fst = q'.map Prod.fst :=
    hq.chained.seg.eq_of_none hq'.chained.seg
  rw [EndIsLast, EndIsLast, hsame]

/-- A node that goes in front of another one leaves the last node where it is. -/
theorem EndIsLast.add (hq : PendingChain (pendingNodes h) s q) (hend : EndIsLast s q) {node : ν}
    {content : HeapNode ν} (hafter : s'.2.endNode = s.2.endNode.or (some node))
    (hlast : NotLast h (.add node content)) :
    EndIsLast s' (insertBehind entryKey (node, content.delay) q) := by
  rw [EndIsLast, List.getLast?_map] at hend ⊢
  rw [hafter]
  rcases hlast with hnil | ⟨e, he, hlt⟩
  · obtain rfl := hq.eq_nil_iff.mpr hnil
    rw [hend]
    rfl
  · have hmem : e ∈ q := hq.sorted.perm.mem_iff.mpr he
    obtain ⟨last, hq'⟩ := Option.isSome_iff_exists.mp
      (List.getLast?_isSome.mpr (List.ne_nil_of_mem hmem))
    rw [getLast?_insertBehind_of_lt ⟨e, hmem, hlt⟩, hend, hq']
    rfl

/-- A node that goes behind all others is not what `end` stays at. -/
theorem EndIsLast.add_last (hq : PendingChain (pendingNodes h) s q) {node : ν}
    {content : HeapNode ν} (hnew : node ∉ (pendingNodes h).map Prod.fst) (hend : EndIsLast s q)
    (hafter : s'.2.endNode = s.2.endNode.or (some node))
    (hlast : ¬NotLast h (.add node content)) :
    ¬EndIsLast s' (insertBehind entryKey (node, content.delay) q) := by
  obtain ⟨hne, hle⟩ := not_or.mp hlast
  have hq' : q ≠ [] := fun hnil => hne (hq.eq_nil_iff.mp hnil)
  have hbehind : insertBehind entryKey (node, content.delay) q = q ++ [(node, content.delay)] := by
    apply insertBehind_of_le
    intro e he
    have hnot : ¬content.delay < e.2 := fun hlt => hle ⟨e, hq.sorted.perm.mem_iff.mp he, hlt⟩
    exact Nat.le_of_not_lt hnot
  obtain ⟨last, hlast'⟩ := Option.isSome_iff_exists.mp (List.getLast?_isSome.mpr hq')
  have hmem : last ∈ pendingNodes h := hq.sorted.perm.mem_iff.mp (List.mem_of_getLast? hlast')
  rw [EndIsLast, List.getLast?_map] at hend
  intro hend'
  rw [EndIsLast, hafter, hend, hlast', hbehind] at hend'
  have hsame : last.1 = node := by simpa using hend'
  exact hnew (hsame ▸ List.mem_map_of_mem hmem)

/-- **One call.**  It keeps `end` at the last node just when it adds no node behind all others. -/
theorem endIsLast_iff_notLast (hn : ∀ l : List ν, l.Nodup → l.length ≤ n) (hsize : n < 2 ^ 64)
    (hgood : ∃ q, PendingChain (pendingNodes h) s q ∧ EndIsLast s q) (hc : Usable h c)
    (hs : delayCall n s c = .ok (r, s')) :
    (∃ q, PendingChain (pendingNodes (h ++ [(c, r)])) s' q ∧ EndIsLast s' q) ↔ NotLast h c := by
  obtain ⟨q, hq, hend⟩ := hgood
  cases c with
  | add node content =>
    obtain ⟨s₁, hadd, hq', hafter⟩ := hq.add hn hsize hc
    rw [hadd] at hs
    cases hs
    constructor
    · rintro ⟨l, hl, hlend⟩
      by_contra hlast
      exact EndIsLast.add_last hq hc hend hafter hlast ((EndIsLast.congr hl hq').mp hlend)
    · intro hlast
      exact ⟨_, hq', EndIsLast.add hq hend hafter hlast⟩
  | pop =>
    obtain ⟨e, l, s₁, rfl, hpop, hq', hafter⟩ := hq.pop hn hsize hc
    rw [hpop] at hs
    cases hs
    refine iff_of_true ⟨l, hq', ?_⟩ trivial
    rw [EndIsLast, hafter]
    cases l with
    | nil => rfl
    | cons f l =>
      rw [EndIsLast, List.map_cons, List.map_cons, List.getLast?_cons_cons] at hend
      exact hend

end Sessions

/-! ### Nodes at addresses -/

/-- The address of a node is not `NULL`. -/
abbrev NodeAddr := { a : U64 // a ≠ 0 }

/-- The number of addresses. -/
def nodeAddrs : ℕ := 2 ^ 64 - 1

theorem length_le_nodeAddrs (l : List NodeAddr) (hl : l.Nodup) : l.length ≤ nodeAddrs := by
  let index : NodeAddr → ℕ := fun a => a.1.toNat - 1
  have hindex : Function.Injective index := by
    intro a b hab
    have ha : a.1.toNat ≠ 0 := fun h0 => a.2 (BitVec.eq_of_toNat_eq h0)
    have hb : b.1.toNat ≠ 0 := fun h0 => b.2 (BitVec.eq_of_toNat_eq h0)
    have heq : a.1.toNat - 1 = b.1.toNat - 1 := hab
    exact Subtype.ext (BitVec.eq_of_toNat_eq (by omega))
  have hsub : l.map index ⊆ List.range nodeAddrs := by
    intro k hk
    obtain ⟨a, -, rfl⟩ := List.mem_map.mp hk
    have hlt := a.1.isLt
    rw [List.mem_range]
    show a.1.toNat - 1 < 2 ^ 64 - 1
    omega
  have hlen := (hl.map hindex).length_le_of_subset hsub
  rwa [List.length_map, List.length_range] at hlen

section Runs

variable {heap : NodeHeap NodeAddr} {h : List (DelayCall NodeAddr × Option NodeAddr)}
  {s : NodeHeap NodeAddr × NodeQueue NodeAddr}

theorem pendingChain_of_session
    (hh : Session (delayCall nodeAddrs) (heap, NodeQueue.delayQueueInit) h s)
    (hl : Promised Usable h) : ∃ q, PendingChain (pendingNodes h) s q := by
  apply hh.invariant (I := fun h s => ∃ q, PendingChain (pendingNodes h) s q) hl
  · exact ⟨[], pendingChain_init heap⟩
  · rintro h s c r s' ⟨q, hq⟩ hc hs
    cases c with
    | add node content =>
      obtain ⟨s₁, hadd, hq', -⟩ := hq.add length_le_nodeAddrs (by decide) hc
      rw [hadd] at hs
      cases hs
      exact ⟨_, hq'⟩
    | pop =>
      obtain ⟨e, l, s₁, -, hpop, hq', -⟩ := hq.pop length_le_nodeAddrs (by decide) hc
      rw [hpop] at hs
      cases hs
      exact ⟨l, hq'⟩

/-- The walk always ends. -/
theorem delayCall_returns {q : List (NodeAddr × U32)} {c : DelayCall NodeAddr}
    (hq : PendingChain (pendingNodes h) s q) (hc : Usable h c) :
    ∃ r s', delayCall nodeAddrs s c = .ok (r, s') := by
  cases c with
  | add node content =>
    obtain ⟨s', hadd, -⟩ := hq.add length_le_nodeAddrs (by decide) hc
    exact ⟨none, s', hadd⟩
  | pop =>
    obtain ⟨e, l, s', -, hpop, -⟩ := hq.pop length_le_nodeAddrs (by decide) hc
    exact ⟨some e.1, s', hpop⟩

/-- **The delay queue.**  After every sequence of additions of fresh nodes and pops of a queue
that is not empty, the chain from `front` is finite, sorted by delay with equal delays in the
order of their additions, has just the nodes that were added and not popped and as many of them
as `size` says, and `front` and `end` are `NULL` together; a pop answers with the first node of the
chain and takes it out.  `end` has been the last node of the chain all the time just when no node
was added behind all those of a queue that had some. -/
theorem delay_queue_end_iff
    (hh : Session (delayCall nodeAddrs) (heap, NodeQueue.delayQueueInit) h s)
    (hl : Promised Usable h) :
    (∀ c, Usable h c → ∃ r s', delayCall nodeAddrs s c = .ok (r, s')) ∧
      (∃ q, PendingChain (pendingNodes h) s q ∧ ∀ e l, q = e :: l →
        ∃ s', delayCall nodeAddrs s .pop = .ok (some e.1, s') ∧
          PendingChain (pendingNodes (h ++ [(.pop, some e.1)])) s' l) ∧
      ((∀ p rest s', h = p ++ rest →
          Session (delayCall nodeAddrs) (heap, NodeQueue.delayQueueInit) p s' →
          ∃ q, PendingChain (pendingNodes p) s' q ∧ EndIsLast s' q) ↔ Promised NotLast h) := by
  obtain ⟨q, hq⟩ := pendingChain_of_session hh hl
  refine ⟨fun c hc => delayCall_returns hq hc, ⟨q, hq, ?_⟩, ?_⟩
  · rintro e l rfl
    have hne : pendingNodes h ≠ [] := fun hnil => by cases hq.eq_nil_iff.mpr hnil
    obtain ⟨e', l', s', heq, hpop, hq', -⟩ := hq.pop length_le_nodeAddrs (by decide) hne
    obtain ⟨rfl, rfl⟩ := List.cons.inj heq
    exact ⟨s', hpop, hq'⟩
  apply Session.good_iff (fun h s => ∃ q, PendingChain (pendingNodes h) s q ∧ EndIsLast s q) hh hl
  · exact ⟨[], pendingChain_init heap, rfl⟩
  · intro h s c r s' _ _ hgood hc hs
    exact endIsLast_iff_notLast length_le_nodeAddrs (by decide) hgood hc hs

end Runs

/-- All memory zero. -/
def zeroHeap : NodeHeap NodeAddr := fun _ => { tid := 0, delay := 0, next := none }

def nodeA : NodeAddr := ⟨0x1000, by decide⟩

def nodeB : NodeAddr := ⟨0x2000, by decide⟩

/-- A node is added in front of another one, and popped. -/
theorem delay_queue_end_iff_front :
    ∃ h s, h.map Prod.fst = [.add nodeA ⟨1, 7, none⟩, .add nodeB ⟨2, 5, none⟩, .pop] ∧
      Session (delayCall nodeAddrs) (zeroHeap, NodeQueue.delayQueueInit) h s ∧
      ∀ p rest s', h = p ++ rest →
        Session (delayCall nodeAddrs) (zeroHeap, NodeQueue.delayQueueInit) p s' →
        ∃ q, PendingChain (pendingNodes p) s' q ∧ EndIsLast s' q := by
  let h : List (DelayCall NodeAddr × Option NodeAddr) :=
    [(.add nodeA ⟨1, 7, none⟩, none), (.add nodeB ⟨2, 5, none⟩, none), (.pop, some nodeB)]
  have hexec : ∃ s, Session.exec (delayCall nodeAddrs) (zeroHeap, NodeQueue.delayQueueInit)
      [.add nodeA ⟨1, 7, none⟩, .add nodeB ⟨2, 5, none⟩, .pop] = .ok (h, s) := ⟨_, rfl⟩
  obtain ⟨s, hrun⟩ := hexec
  have hs := Session.of_exec hrun
  have hl : Promised Usable h := by
    show Promised Usable ([] ++ [_] ++ [_] ++ [_])
    simp only [promised_snoc, promised_nil, true_and]
    refine ⟨⟨?_, ?_⟩, ?_⟩
    · show nodeA ∉ ([] : List NodeAddr)
      simp
    · show nodeB ∉ [nodeA]
      decide
    · show [(nodeA, (7 : U32)), (nodeB, 5)] ≠ []
      simp
  have hlast : Promised NotLast h := by
    show Promised NotLast ([] ++ [_] ++ [_] ++ [_])
    simp only [promised_snoc, promised_nil, true_and]
    refine ⟨⟨?_, ?_⟩, trivial⟩
    · exact .inl rfl
    · exact .inr ⟨(nodeA, 7), by simp [pendingNodes], by decide⟩
  exact ⟨h, s, rfl, hs, (delay_queue_end_iff hs hl).2.2.mpr hlast⟩

/-- Two nodes are added in the order of their delays, and one is popped: `end` stays at the
popped node. -/
theorem end_is_popped :
    ∃ h s, h = [(.add nodeA ⟨1, 5, none⟩, none), (.add nodeB ⟨2, 7, none⟩, none),
        (.pop, some nodeA)] ∧
      Session (delayCall nodeAddrs) (zeroHeap, NodeQueue.delayQueueInit) h s ∧
      Promised Usable h ∧ pendingNodes h = [(nodeB, 7)] ∧ s.2.front = some nodeB ∧
      s.2.endNode = some nodeA ∧ ¬∃ q, PendingChain (pendingNodes h) s q ∧ EndIsLast s q := by
  let h : List (DelayCall NodeAddr × Option NodeAddr) :=
    [(.add nodeA ⟨1, 5, none⟩, none), (.add nodeB ⟨2, 7, none⟩, none), (.pop, some nodeA)]
  have hexec : ∃ s, Session.exec (delayCall nodeAddrs) (zeroHeap, NodeQueue.delayQueueInit)
      [.add nodeA ⟨1, 5, none⟩, .add nodeB ⟨2, 7, none⟩, .pop] = .ok (h, s) ∧
      s.2.front = some nodeB ∧ s.2.endNode = some nodeA := ⟨_, rfl, rfl, rfl⟩
  obtain ⟨s, hrun, hfront, hend⟩ := hexec
  have hs := Session.of_exec hrun
  have hl : Promised Usable h := by
    show Promised Usable ([] ++ [_] ++ [_] ++ [_])
    simp only [promised_snoc, promised_nil, true_and]
    refine ⟨⟨?_, ?_⟩, ?_⟩
    · show nodeA ∉ ([] : List NodeAddr)
      simp
    · show nodeB ∉ [nodeA]
      decide
    · show [(nodeA, (5 : U32)), (nodeB, 7)] ≠ []
      simp
  have hpending : pendingNodes h = [(nodeB, 7)] := by decide
  refine ⟨h, s, rfl, hs, hl, hpending, hfront, hend, ?_⟩
  rintro ⟨q, hq, hlast⟩
  have hperm := hq.sorted.perm
  rw [hpending] at hperm
  obtain rfl := List.perm_singleton.mp hperm
  rw [EndIsLast, hend] at hlast
  exact absurd hlast (by decide)

end RealtimeKernel
