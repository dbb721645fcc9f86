import RealtimeKernel.Lib.Sessions
import RealtimeKernel.TaskQueue

/-!
# Any number of task lists on one pool

A session pushes tasks at the back of the lists, pops them from the front of lists that are not
empty and removes nodes from the lists they stand in.  What the lists should hold is read off
the transcript: each list is a sequence of nodes, each with the task it was pushed for.
`PoolRep` says that the lists hold these nodes and that every other node is free.
-/

namespace RealtimeKernel

open Lib

variable {J : Type} [Fintype J] [DecidableEq J]

/-- The lists and their pool. -/
structure TaskLists (J : Type) where
  pool : TaskNodePool
  lists : J → TaskList

/-- The pool and the lists as `task_node_pool_init` and `task_list_init` leave them. -/
def TaskLists.init (pool : TaskNodePool) : TaskLists J where
  pool := taskNodePoolInit pool
  lists := fun _ => taskListInit

inductive ListCall (J : Type)
  | pushBack (j : J) (task : TaskPtr)
  | popFront (j : J)
  | removeNode (j : J) (node : NodePtr)

/-- What a caller learns: the node of a task it pushed, from `list->tail`, or the task it took
out. -/
inductive ListAnswer
  | pushed (tail : Option NodePtr)
  | removed (task : Option TaskPtr)

def listCall : Component (TaskLists J) (ListCall J) ListAnswer Halt
  | s, .pushBack j task => do
    let (pool, list) ← taskListPushBack s.pool (s.lists j) task
    .ok (.pushed list.tail, { pool := pool, lists := Function.update s.lists j list })
  | s, .popFront j => do
    let (task, pool, list) ← taskListPopFront s.pool (s.lists j)
    .ok (.removed task, { pool := pool, lists := Function.update s.lists j list })
  | s, .removeNode j node => do
    let (task, pool, list) ← taskListRemoveNode s.pool (s.lists j) (some node)
    .ok (.removed task, { pool := pool, lists := Function.update s.lists j list })

/-! ### What the lists should hold -/

/-- For each list, its nodes from head to tail, each with its task. -/
abbrev ListEntries (J : Type) := J → List (NodePtr × TaskPtr)

/-- The nodes without their tasks. -/
def ListEntries.nodes (es : ListEntries J) (j : J) : List NodePtr := (es j).map Prod.fst

/-- A push adds an entry at the back, a pop takes the first one, a removal that of the node. -/
def ListEntries.after (es : ListEntries J) : ListCall J × ListAnswer → ListEntries J
  | (.pushBack j task, .pushed (some node)) => Function.update es j (es j ++ [(node, task)])
  | (.popFront j, _) => Function.update es j (es j).tail
  | (.removeNode j node, _) => Function.update es j ((es j).filter fun e => e.1 ≠ node)
  | _ => es

/-- The entries after a transcript. -/
def listEntries (h : List (ListCall J × ListAnswer)) : ListEntries J :=
  h.foldl ListEntries.after fun _ => []

omit [Fintype J] in
theorem listEntries_snoc (h : List (ListCall J × ListAnswer)) (e : ListCall J × ListAnswer) :
    listEntries (h ++ [e]) = (listEntries h).after e := by
  simp [listEntries]

/-- A push finds a node that is not in use, a pop a list that is not empty, a removal the node in
the list. -/
def Proper (es : ListEntries J) : ListCall J → Prop
  | .pushBack _ _ => entries es < maxTaskNum
  | .popFront j => es j ≠ []
  | .removeNode j node => node ∈ es.nodes j

/-! ### The lists hold it -/

/-- The lists hold the nodes of the entries, and each node its task. -/
structure TaskLists.Hold (s : TaskLists J) (es : ListEntries J) : Prop where
  rep : PoolRep s.pool s.lists es.nodes
  task : ∀ j, ∀ e ∈ es j, s.pool.task e.1 = some e.2

namespace TaskLists.Hold

variable {s : TaskLists J} {es : ListEntries J} {j : J}

omit [DecidableEq J] in
theorem init (pool : TaskNodePool) : (TaskLists.init (J := J) pool).Hold fun _ => [] where
  rep := PoolRep.init pool
  task := by simp

omit [Fintype J] in
theorem nodes_update (es : ListEntries J) (j : J) (l : List (NodePtr × TaskPtr)) :
    ListEntries.nodes (Function.update es j l) =
      Function.update es.nodes j (l.map Prod.fst) := by
  funext i
  unfold ListEntries.nodes
  by_cases hij : i = j
  · subst hij
    simp
  · simp [hij]

omit [DecidableEq J] in
theorem entries_nodes (es : ListEntries J) : entries es.nodes = entries es := by
  simp [entries, ListEntries.nodes]

/-- A push appends a node that no list held. -/
theorem pushBack (h : s.Hold es) (j : J) (task : TaskPtr) (hroom : entries es < maxTaskNum) :
    ∃ node s', listCall s (.pushBack j task) = .ok (.pushed (some node), s') ∧
      s'.Hold (Function.update es j (es j ++ [(node, task)])) := by
  have hsize : 0 < s.pool.size := by
    have htotal := h.rep.size_add_entries
    rw [entries_nodes] at htotal
    omega
  obtain ⟨node, pool', l', hpush, hrep, htail, hnew, hfresh, hkeep⟩ :=
    h.rep.push_back j task hsize
  refine ⟨node, { pool := pool', lists := Function.update s.lists j l' }, ?_, ?_, ?_⟩
  · simp only [listCall, hpush, ok_bind, htail]
  · rw [nodes_update, List.map_append]
    exact hrep
  · intro i e he
    by_cases hij : i = j
    · subst hij
      rw [Function.update_self, List.mem_append, List.mem_singleton] at he
      rcases he with he | rfl
      · have hne : e.1 ≠ node := fun heq => hfresh i (heq ▸ List.mem_map_of_mem he)
        exact (hkeep e.1 hne).trans (h.task i e he)
      · exact hnew
    · rw [Function.update_of_ne hij] at he
      have hne : e.1 ≠ node := fun heq => hfresh i (heq ▸ List.mem_map_of_mem he)
      exact (hkeep e.1 hne).trans (h.task i e he)

/-- A removal takes out the entry of the node and leaves the others. -/
theorem remove (h : s.Hold es) {l₁ l₂ : List (NodePtr × TaskPtr)} {e : NodePtr × TaskPtr}
    (hj : es j = l₁ ++ e :: l₂) :
    ∃ pool' l', taskListRemoveNode s.pool (s.lists j) (some e.1) = .ok (some e.2, pool', l') ∧
      TaskLists.Hold ⟨pool', Function.update s.lists j l'⟩ (Function.update es j (l₁ ++ l₂)) := by
  have hnodes : es.nodes j = l₁.map Prod.fst ++ e.1 :: l₂.map Prod.fst := by
    rw [ListEntries.nodes, hj, List.map_append, List.map_cons]
  obtain ⟨pool', l', hremove, hrep, htask⟩ := h.rep.remove j hnodes
  refine ⟨pool', l', ?_, ?_, ?_⟩
  · rw [hremove, h.task j e (by simp [hj])]
  · rw [nodes_update, List.map_append]
    exact hrep
  · intro i f hf
    rw [show (TaskLists.mk pool' (Function.update s.lists j l')).pool.task = s.pool.task from htask]
    by_cases hij : i = j
    · subst hij
      rw [Function.update_self] at hf
      apply h.task i f
      rw [hj]
      rcases List.mem_append.mp hf with hf | hf
      · exact List.mem_append_left _ hf
      · exact List.mem_append_right _ (List.mem_cons_of_mem _ hf)
    · rw [Function.update_of_ne hij] at hf
      exact h.task i f hf

/-- A pop returns the task that was pushed first and takes its node out. -/
theorem popFront (h : s.Hold es) {e : NodePtr × TaskPtr} {l : List (NodePtr × TaskPtr)}
    (hj : es j = e :: l) :
    ∃ s', listCall s (.popFront j) = .ok (.removed (some e.2), s') ∧
      s'.Hold (Function.update es j l) := by
  have hhead : (s.lists j).head = some e.1 := by
    rw [(h.rep.linked j).head_eq, ListEntries.nodes, hj]
    rfl
  obtain ⟨pool', l', hremove, hhold⟩ := h.remove (show es j = [] ++ e :: l from hj)
  refine ⟨⟨pool', Function.update s.lists j l'⟩, ?_, hhold⟩
  simp only [listCall, taskListPopFront, hhead, hremove, ok_bind]

/-- The removal of a node of the list returns its task and takes the node out. -/
theorem removeNode (h : s.Hold es) {e : NodePtr × TaskPtr} (hj : e ∈ es j) :
    ∃ s', listCall s (.removeNode j e.1) = .ok (.removed (some e.2), s') ∧
      s'.Hold (Function.update es j ((es j).filter fun f => f.1 ≠ e.1)) := by
  obtain ⟨l₁, l₂, hsplit⟩ := List.append_of_mem hj
  have hnd := h.rep.nodup j
  rw [ListEntries.nodes, hsplit] at hnd
  obtain ⟨pool', l', hremove, hhold⟩ := h.remove hsplit
  refine ⟨⟨pool', Function.update s.lists j l'⟩, ?_, ?_⟩
  · simp only [listCall, hremove, ok_bind]
  · rw [hsplit, filter_node_ne hnd]
    exact hhold

/-- A proper call returns, and the lists hold what they should. -/
theorem call (h : s.Hold es) {c : ListCall J} (hc : Proper es c) :
    ∃ r s', listCall s c = .ok (r, s') ∧ s'.Hold (es.after (c, r)) := by
  cases c with
  | pushBack j task =>
    obtain ⟨node, s', hcall, hs'⟩ := h.pushBack j task hc
    exact ⟨_, s', hcall, hs'⟩
  | popFront j =>
    obtain ⟨e, l, hj⟩ := List.exists_cons_of_ne_nil hc
    obtain ⟨s', hcall, hs'⟩ := h.popFront hj
    refine ⟨_, s', hcall, ?_⟩
    rw [ListEntries.after, hj]
    exact hs'
  | removeNode j node =>
    obtain ⟨e, he, rfl⟩ := List.mem_map.mp hc
    obtain ⟨s', hcall, hs'⟩ := h.removeNode he
    exact ⟨_, s', hcall, hs'⟩

end TaskLists.Hold

/-- After a proper session the lists hold what they should, and every push was answered with a
node. -/
theorem session_hold {pool : TaskNodePool} {h : List (ListCall J × ListAnswer)}
    {s : TaskLists J} (hs : Session listCall (TaskLists.init pool) h s)
    (hp : Promised (fun p c => Proper (listEntries p) c) h) : s.Hold (listEntries h) ∧
      ∀ j task r, (.pushBack j task, r) ∈ h → ∃ node, r = .pushed (some node) := by
  apply hs.invariant (I := fun h s => TaskLists.Hold s (listEntries h) ∧
    ∀ j task r, (.pushBack j task, r) ∈ h → ∃ node, r = .pushed (some node)) hp
  · exact ⟨TaskLists.Hold.init pool, by simp⟩
  · rintro h s c r s' ⟨hhold, hall⟩ hc hstep
    obtain ⟨r', s'', hstep', hhold'⟩ := hhold.call hc
    rw [hstep] at hstep'
    cases hstep'
    refine ⟨listEntries_snoc h (c, r) ▸ hhold', fun j task r₁ he => ?_⟩
    rcases List.mem_append.mp he with he | he
    · exact hall j task r₁ he
    · obtain ⟨rfl, rfl⟩ := Prod.mk.inj (List.mem_singleton.mp he)
      obtain ⟨node, s₁, hpush, -⟩ := hhold.pushBack j task hc
      rw [hstep] at hpush
      exact ⟨node, (Prod.mk.inj (Except.ok.inj hpush)).1⟩

/-- **The lists and the free stack divide the pool among them.**  After every session of proper
calls, each node is once on the free stack or in a list; in every list, `next` from the head and
`prev` from the tail visit the nodes of its entries in opposite orders, `size` counts them, the
ends are `NULL` just when there are none, and the nodes hold the tasks that were pushed and not
taken out, in the order of the pushes: every push was answered with a node, and the next one is and
adds that node with its task at the end of its list.  Every proper call returns; a pop and a removal
return the task of the first node and of the named node. -/
theorem task_lists_divide_pool (pool : TaskNodePool) {h : List (ListCall J × ListAnswer)}
    {s : TaskLists J} (hs : Session listCall (TaskLists.init pool) h s)
    (hp : Promised (fun p c => Proper (listEntries p) c) h) :
    (∀ n, s.pool.free.count n + ∑ j, ((listEntries h).nodes j).count n = 1) ∧
      (∀ j, Seg s.pool.next (s.lists j).head ((listEntries h).nodes j) none ∧
        Seg s.pool.prev (s.lists j).tail ((listEntries h).nodes j).reverse none ∧
        (s.lists j).size = ((listEntries h).nodes j).length ∧
        ((s.lists j).head = none ↔ (s.lists j).size = 0) ∧
        ((s.lists j).tail = none ↔ (s.lists j).size = 0) ∧
        ((listEntries h).nodes j).map s.pool.task =
          (listEntries h j).map fun e => some e.2) ∧
      (∀ j task r, (.pushBack j task, r) ∈ h → ∃ node, r = .pushed (some node)) ∧
      (∀ j task, Proper (listEntries h) (.pushBack j task) →
        ∃ node s', listCall s (.pushBack j task) = .ok (.pushed (some node), s') ∧
          s'.Hold (Function.update (listEntries h) j (listEntries h j ++ [(node, task)]))) ∧
      (∀ c, Proper (listEntries h) c →
        ∃ r s', listCall s c = .ok (r, s') ∧ s'.Hold ((listEntries h).after (c, r))) ∧
      (∀ j e l, listEntries h j = e :: l →
        ∃ s', listCall s (.popFront j) = .ok (.removed (some e.2), s')) ∧
      ∀ j, ∀ e ∈ listEntries h j,
        ∃ s', listCall s (.removeNode j e.1) = .ok (.removed (some e.2), s') := by
  obtain ⟨hhold, hpushed⟩ := session_hold hs hp
  refine ⟨hhold.rep.once, ?_, hpushed,
    fun j task hc => hhold.pushBack j task hc, fun c hc => hhold.call hc, ?_, ?_⟩
  · intro j
    have hlink := hhold.rep.linked j
    have hsize := hhold.rep.size_eq j
    refine ⟨hlink.forward, hlink.backward, hsize, ?_, ?_, ?_⟩
    · rw [hlink.head_eq, hsize, List.head?_eq_none_iff, List.length_eq_zero_iff]
    · rw [hlink.tail_eq, hsize, List.getLast?_eq_none_iff, List.length_eq_zero_iff]
    · rw [ListEntries.nodes, List.map_map]
      apply List.map_congr_left
      intro e he
      exact hhold.task j e he
  · intro j e l hj
    obtain ⟨s', hcall, -⟩ := hhold.popFront hj
    exact ⟨s', hcall⟩
  · intro j e he
    obtain ⟨s', hcall, -⟩ := hhold.removeNode he
    exact ⟨s', hcall⟩

/-- Two lists: three tasks are pushed and the first is removed by its node. -/
theorem task_lists_divide_pool_three : ∃ (h : List (ListCall Bool × ListAnswer))
    (s : TaskLists Bool),
    h = [(.pushBack false 1, .pushed (some 63)), (.pushBack true 2, .pushed (some 62)),
      (.pushBack false 3, .pushed (some 61)), (.removeNode false 63, .removed (some 1))] ∧
    (∀ n, s.pool.free.count n + ∑ j, ((listEntries h).nodes j).count n = 1) ∧
    ∃ s', listCall s (.popFront false) = .ok (.removed (some 3), s') := by
  let pool : TaskNodePool := ⟨fun _ => 0, 0, fun _ => ⟨none, none, none⟩⟩
  let h : List (ListCall Bool × ListAnswer) :=
    [(.pushBack false 1, .pushed (some 63)), (.pushBack true 2, .pushed (some 62)),
      (.pushBack false 3, .pushed (some 61)), (.removeNode false 63, .removed (some 1))]
  have hexec : ∃ s, Session.exec listCall (TaskLists.init pool)
      [.pushBack false 1, .pushBack true 2, .pushBack false 3, .removeNode false 63] =
        .ok (h, s) := ⟨_, rfl⟩
  obtain ⟨s, hrun⟩ := hexec
  have hs := Session.of_exec hrun
  have hp : Promised (fun p c => Proper (listEntries p) c) h := by
    show Promised _ ([] ++ [_] ++ [_] ++ [_] ++ [_])
    simp only [promised_snoc, promised_nil, true_and]
    refine ⟨⟨⟨?_, ?_⟩, ?_⟩, ?_⟩
    · show entries _ < maxTaskNum
      decide
    · show entries _ < maxTaskNum
      decide
    · show entries _ < maxTaskNum
      decide
    · show (63 : NodePtr) ∈ [63, 61]
      simp
  have hd := task_lists_divide_pool pool hs hp
  exact ⟨h, s, rfl, hd.1, hd.2.2.2.2.2.1 false (61, 3) [] rfl⟩

end RealtimeKernel
