import Mathlib.Data.List.Sort
import RealtimeKernel.Lib.Servers
import RealtimeKernel.NodeQueues

/-!
# `clock_server.c`: the clock server

The delay queue is a singly linked list of chunks of the pool, in the order in which the
clients are to be woken.  `delay_queue_add` walks it to the place of the new node;
`endNode` is only ever compared with `NULL`.  The loop that wakes clients follows the link of
a node after it has been popped and before it is freed.
-/

namespace RealtimeKernel

open Lib

/-! ### Messages -/

inductive ClockServerAction
  | tick
  | time
  | delay
  | delayUntil
  deriving DecidableEq, Repr

/-- The enumerator with a value, if there is one. -/
def ClockServerAction.ofCode (code : U32) : Option ClockServerAction :=
  match code.toNat with
  | 0 => some .tick
  | 1 => some .time
  | 2 => some .delay
  | 3 => some .delayUntil
  | _ => none

@[ext] structure ClockServerMsg where
  action : U32
  ticks : U32
  deriving DecidableEq, Repr

def ClockServerMsg.kind (m : ClockServerMsg) : Option ClockServerAction :=
  ClockServerAction.ofCode m.action

/-! ### The delay queue -/

structure DelayQueueNode where
  tid : ℤ
  delay : U32
  next : Option ChunkPtr

structure DelayQueue where
  front : Option ChunkPtr
  endNode : Option ChunkPtr
  size : U64

def delayQueueInit : DelayQueue where
  front := none
  endNode := none
  size := 0

/-- `node->next = next`. -/
def setNodeNext (pool : MemoryPool DelayQueueNode) (node : ChunkPtr) (next : Option ChunkPtr) :
    MemoryPool DelayQueueNode :=
  pool.write node { pool.chunk node with next := next }

/-- The loop of `delay_queue_add`: the last node that is not later, and the one after it. -/
def delayQueueWalk (pool : MemoryPool DelayQueueNode) (delay : U32) :
    ℕ → Option ChunkPtr → Option ChunkPtr →
      Except Fault (Option ChunkPtr × Option ChunkPtr)
  | _, previousNode, none => .ok (previousNode, none)
  | 0, _, some _ => .error .endless
  | n + 1, previousNode, some currentNode =>
    if (pool.chunk currentNode).delay ≤ delay then
      delayQueueWalk pool delay n (some currentNode) (pool.chunk currentNode).next
    else .ok (previousNode, some currentNode)

def delayQueueAdd (pool : MemoryPool DelayQueueNode) (self : DelayQueue) (node : ChunkPtr) :
    Except Fault (MemoryPool DelayQueueNode × DelayQueue) :=
  let pool := setNodeNext pool node none
  match self.endNode with
  | some _ => do
    let (previousNode, currentNode) ←
      delayQueueWalk pool (pool.chunk node).delay memoryPoolChunks none self.front
    match previousNode with
    | some previousNode =>
      let pool := setNodeNext pool previousNode (some node)
      .ok (setNodeNext pool node currentNode, { self with size := self.size + 1 })
    | none =>
      .ok (setNodeNext pool node self.front,
        { self with front := some node, size := self.size + 1 })
  | none => .ok (pool, { endNode := some node, front := some node, size := self.size + 1 })

/-- `delay_queue_pop`; nobody reads the node it returns. -/
def delayQueuePop (pool : MemoryPool DelayQueueNode) (self : DelayQueue) : DelayQueue :=
  match self.front with
  | some front =>
    match (pool.chunk front).next with
    | some next => { self with front := some next, size := self.size - 1 }
    | none => { front := none, endNode := none, size := self.size - 1 }
  | none => { self with size := self.size - 1 }

/-! ### The server -/

/-- The variables of `clock_server`; `msg` is the buffer of its `Receive`. -/
structure ClockServer where
  memoryPool : MemoryPool DelayQueueNode
  delayQueue : DelayQueue
  ticks : U32
  msg : ClockServerMsg

abbrev ClockReplies := List (ℤ × ClockServerMsg)

/-- The variables when `clock_server` enters its loop; `msg` is not initialised. -/
def clockServerInit (msg : ClockServerMsg) : ClockServer where
  memoryPool := memoryPoolInit ⟨0, 0, none⟩
  delayQueue := delayQueueInit
  ticks := 0
  msg := msg

/-- The loop of `TICK` from a node on. -/
def clockServerWake (ticks : U32) (msg : ClockServerMsg) :
    ℕ → Option ChunkPtr → MemoryPool DelayQueueNode → DelayQueue →
      Except Fault (MemoryPool DelayQueueNode × DelayQueue × ClockReplies)
  | _, none, pool, queue => .ok (pool, queue, [])
  | 0, some _, _, _ => .error .endless
  | n + 1, some currentNode, pool, queue =>
    if (pool.chunk currentNode).delay ≤ ticks then do
      let queue := delayQueuePop pool queue
      let tmp := currentNode
      let currentNode := (pool.chunk currentNode).next
      let pool' ← memoryPoolFree pool tmp
      let (pool', queue, replies) ← clockServerWake ticks msg n currentNode pool' queue
      .ok (pool', queue, ((pool.chunk tmp).tid, msg) :: replies)
    else .ok (pool, queue, [])

/-- The case `DELAY_UNTIL`. -/
def clockServerDelayUntil (s : ClockServer) (tid : ℤ) :
    Except Fault (ClockServer × ClockReplies) :=
  if s.msg.ticks ≤ s.ticks then .ok (s, [(tid, s.msg)])
  else
    match memoryPoolAllocate s.memoryPool with
    | (some newNode, pool) => do
      let pool := pool.write newNode
        { pool.chunk newNode with tid := tid, delay := s.msg.ticks }
      let (pool, queue) ← delayQueueAdd pool s.delayQueue newNode
      .ok ({ s with memoryPool := pool, delayQueue := queue }, [])
    | (none, _) => .error .null

/-- The body of the loop, after `Receive` has filled in `tid` and `msg`. -/
def clockServerBody (s : ClockServer) (tid : ℤ) : Except Fault (ClockServer × ClockReplies) :=
  match s.msg.kind with
  | some .tick => do
    let ticks := s.ticks + 1
    let reply := (tid, s.msg)
    let msg := { s.msg with ticks := ticks }
    let (pool, queue, replies) ← clockServerWake ticks msg memoryPoolChunks
      s.delayQueue.front s.memoryPool s.delayQueue
    .ok ({ memoryPool := pool, delayQueue := queue, ticks := ticks, msg := msg },
      reply :: replies)
  | some .time =>
    let msg := { s.msg with ticks := s.ticks }
    .ok ({ s with msg := msg }, [(tid, msg)])
  | some .delay =>
    clockServerDelayUntil { s with msg := { s.msg with ticks := s.msg.ticks + s.ticks } } tid
  | some .delayUntil => clockServerDelayUntil s tid
  | none => .ok (s, [])

/-- One iteration on a message of full size. -/
def clockServer : Server ClockServer ℤ ClockServerMsg ClockServerMsg Fault :=
  fun s tid msg => clockServerBody { s with msg := msg } tid

/-! ### The delay queue is one of nodes in the chunks -/

/-- The nodes in the chunks of the pool. -/
def poolHeap (pool : MemoryPool DelayQueueNode) : NodeHeap ChunkPtr := fun c =>
  { tid := (pool.chunk c).tid, delay := (pool.chunk c).delay, next := (pool.chunk c).next }

def poolQueue (self : DelayQueue) : NodeQueue ChunkPtr :=
  { front := self.front, endNode := self.endNode, size := self.size }

theorem poolHeap_setNodeNext (pool : MemoryPool DelayQueueNode) (node : ChunkPtr)
    (v : Option ChunkPtr) :
    poolHeap (setNodeNext pool node v) = (poolHeap pool).setNext node v := by
  funext c
  by_cases hc : c = node
  · subst hc
    simp [poolHeap, setNodeNext, NodeHeap.setNext]
  · simp [poolHeap, setNodeNext, NodeHeap.setNext, MemoryPool.write_of_ne _ hc, hc]

theorem delayQueueWalk_pool (pool : MemoryPool DelayQueueNode) (delay : U32) (n : ℕ)
    (previous current : Option ChunkPtr) :
    NodeQueue.delayQueueWalk (poolHeap pool) delay n previous current =
      delayQueueWalk pool delay n previous current := by
  induction n generalizing previous current with
  | zero => cases current <;> rfl
  | succ n ih =>
    cases current with
    | none => rfl
    | some c =>
      rw [NodeQueue.delayQueueWalk, delayQueueWalk, ih]
      rfl

theorem delayQueueAdd_pool (pool : MemoryPool DelayQueueNode) (self : DelayQueue)
    (node : ChunkPtr) :
    NodeQueue.delayQueueAdd memoryPoolChunks (poolHeap pool) (poolQueue self) node =
      (delayQueueAdd pool self node).map fun r => (poolHeap r.1, poolQueue r.2) := by
  unfold NodeQueue.delayQueueAdd delayQueueAdd
  rw [← poolHeap_setNodeNext]
  cases hend : self.endNode with
  | none => simp [poolQueue, hend, Except.map]
  | some last =>
    simp only [poolQueue, hend, delayQueueWalk_pool]
    rw [show (poolHeap (setNodeNext pool node none) node).delay =
      ((setNodeNext pool node none).chunk node).delay from rfl]
    cases delayQueueWalk (setNodeNext pool node none) _ memoryPoolChunks none self.front with
    | error e => rfl
    | ok r =>
      obtain ⟨previous, current⟩ := r
      cases previous with
      | none => simp [Except.map, poolHeap_setNodeNext]
      | some p => simp [Except.map, poolHeap_setNodeNext]

theorem delayQueuePop_pool (pool : MemoryPool DelayQueueNode) (self : DelayQueue) :
    (NodeQueue.delayQueuePop (poolHeap pool) (poolQueue self)).2 =
      poolQueue (delayQueuePop pool self) := by
  unfold NodeQueue.delayQueuePop delayQueuePop
  cases hfront : self.front with
  | none => simp [poolQueue, hfront]
  | some c =>
    cases hnext : (pool.chunk c).next with
    | none => simp [poolQueue, hfront, poolHeap, hnext]
    | some d => simp [poolQueue, hfront, poolHeap, hnext]

/-! ### The delay queue as a list -/

/-- The column of links. -/
def nodeNext (pool : MemoryPool DelayQueueNode) (c : ChunkPtr) : Option ChunkPtr :=
  (pool.chunk c).next

/-- What a node is about: the client and its deadline. -/
def nodeEntry (pool : MemoryPool DelayQueueNode) (c : ChunkPtr) : ℤ × U32 :=
  ((pool.chunk c).tid, (pool.chunk c).delay)

@[simp] theorem nodeEntry_setNodeNext (pool : MemoryPool DelayQueueNode) (x : ChunkPtr)
    (v : Option ChunkPtr) : nodeEntry (setNodeNext pool x v) = nodeEntry pool := by
  funext c
  by_cases hc : c = x
  · subst hc
    simp [nodeEntry, setNodeNext]
  · simp [nodeEntry, setNodeNext, MemoryPool.write_of_ne _ hc]

/-- The queue consists of these nodes. -/
structure Linked (pool : MemoryPool DelayQueueNode) (queue : DelayQueue)
    (nodes : List ChunkPtr) : Prop where
  seg : Seg (nodeNext pool) queue.front nodes none
  nodup : nodes.Nodup
  endNode : queue.endNode = none ↔ nodes = []
  size : queue.size = BitVec.ofNat 64 nodes.length

/-- The node is not later than a deadline. -/
def due (pool : MemoryPool DelayQueueNode) (deadline : U32) (c : ChunkPtr) : Bool :=
  decide ((pool.chunk c).delay ≤ deadline)

/-- Puts a node behind the nodes that are not later. -/
def insertNode (pool : MemoryPool DelayQueueNode) (node : ChunkPtr) (nodes : List ChunkPtr) :
    List ChunkPtr :=
  nodes.takeWhile (due pool (pool.chunk node).delay) ++
    node :: nodes.dropWhile (due pool (pool.chunk node).delay)

theorem insertNode_perm (pool : MemoryPool DelayQueueNode) (node : ChunkPtr)
    (nodes : List ChunkPtr) : (insertNode pool node nodes).Perm (node :: nodes) := by
  refine List.perm_middle.trans ?_
  rw [List.takeWhile_append_dropWhile]

/-- What `delay_queue_add` writes are links. -/
theorem delayQueueAdd_frame {pool pool' : MemoryPool DelayQueueNode} {queue queue' : DelayQueue}
    {node : ChunkPtr} (h : delayQueueAdd pool queue node = .ok (pool', queue')) :
    nodeEntry pool' = nodeEntry pool ∧ ∀ held, pool.Accounts held → pool'.Accounts held := by
  unfold delayQueueAdd at h
  cases hend : queue.endNode with
  | none =>
    rw [hend] at h
    cases h
    exact ⟨nodeEntry_setNodeNext _ _ _, fun held ha => ha.write _ _⟩
  | some last =>
    rw [hend] at h
    obtain ⟨⟨previous, current⟩, -, hwrite⟩ := bind_eq_ok.mp h
    cases previous with
    | none =>
      cases hwrite
      refine ⟨?_, fun held ha => (ha.write _ _).write _ _⟩
      rw [nodeEntry_setNodeNext, nodeEntry_setNodeNext]
    | some previous =>
      cases hwrite
      refine ⟨?_, fun held ha => ((ha.write _ _).write _ _).write _ _⟩
      rw [nodeEntry_setNodeNext, nodeEntry_setNodeNext, nodeEntry_setNodeNext]

section Linked

variable {pool : MemoryPool DelayQueueNode} {queue : DelayQueue} {nodes : List ChunkPtr}

/-- The nodes with their delays. -/
def delayedNodes (pool : MemoryPool DelayQueueNode) (nodes : List ChunkPtr) :
    List (ChunkPtr × U32) := nodes.map fun c => (c, (pool.chunk c).delay)

@[simp] theorem delayedNodes_fst : (delayedNodes pool nodes).map Prod.fst = nodes := by
  rw [delayedNodes, List.map_map]
  exact List.map_id nodes

theorem Linked.chained (h : Linked pool queue nodes) :
    Chained (poolHeap pool) (poolQueue queue) (delayedNodes pool nodes) where
  seg := by
    rw [delayedNodes_fst]
    exact h.seg
  delay := by
    intro e he
    obtain ⟨c, -, rfl⟩ := List.mem_map.mp he
    rfl
  nodup := by
    rw [delayedNodes_fst]
    exact h.nodup
  endNode := by
    rw [delayedNodes, List.map_eq_nil_iff]
    exact h.endNode
  size := by
    rw [delayedNodes, List.length_map]
    exact h.size

theorem Linked.of_chained {q : List (ChunkPtr × U32)}
    (h : Chained (poolHeap pool) (poolQueue queue) q) : Linked pool queue (q.map Prod.fst) where
  seg := h.seg
  nodup := h.nodup
  endNode := by
    rw [List.map_eq_nil_iff]
    exact h.endNode
  size := by
    rw [List.length_map]
    exact h.size

theorem delayedNodes_insertNode (node : ChunkPtr) :
    (insertBehind entryKey (node, (pool.chunk node).delay) (delayedNodes pool nodes)).map Prod.fst =
      insertNode pool node nodes := by
  rw [insertBehind, delayedNodes, List.takeWhile_map, List.dropWhile_map, List.map_append,
    List.map_cons, List.map_map, List.map_map]
  show (nodes.takeWhile (due pool _)).map id ++ node :: (nodes.dropWhile (due pool _)).map id = _
  rw [List.map_id, List.map_id]
  rfl

/-- **`delay_queue_add`** links a new node into its place. -/
theorem Linked.add (h : Linked pool queue nodes) {node : ChunkPtr} (hn : node ∉ nodes)
    (hlen : nodes.length ≤ memoryPoolChunks) :
    ∃ pool' queue', delayQueueAdd pool queue node = .ok (pool', queue') ∧
      Linked pool' queue' (insertNode pool node nodes) ∧ nodeEntry pool' = nodeEntry pool ∧
      ∀ held, pool.Accounts held → pool'.Accounts held := by
  obtain ⟨heap', queue', hadd, hchained, -⟩ := h.chained.add (x := node)
    (by rw [delayedNodes_fst]; exact hn) (d := (pool.chunk node).delay) rfl
    (n := memoryPoolChunks) (by rw [delayedNodes, List.length_map]; exact hlen)
  rw [delayQueueAdd_pool] at hadd
  obtain ⟨⟨pool', queue''⟩, hadd', heq⟩ := map_eq_ok.mp hadd
  cases heq
  have hlinked := Linked.of_chained hchained
  rw [delayedNodes_insertNode] at hlinked
  exact ⟨pool', queue'', hadd', hlinked, delayQueueAdd_frame hadd'⟩

/-- **`delay_queue_pop`** takes the first node out. -/
theorem Linked.pop {x : ChunkPtr} (h : Linked pool queue (x :: nodes)) :
    Linked pool (delayQueuePop pool queue) nodes ∧
      (delayQueuePop pool queue).front = nodeNext pool x := by
  have hchained := h.chained.pop.2.1
  rw [delayQueuePop_pool] at hchained
  have hlinked := Linked.of_chained hchained
  have hnodes : (nodes.map fun c => (c, (pool.chunk c).delay)).map Prod.fst = nodes :=
    delayedNodes_fst
  rw [hnodes] at hlinked
  refine ⟨hlinked, ?_⟩
  rw [hlinked.seg.start_eq]
  exact h.seg.2.start_eq.symm

/-- The nodes depend on the contents of the chunks only. -/
theorem Linked.congr {pool' : MemoryPool DelayQueueNode} (h : Linked pool queue nodes)
    (hc : pool'.chunk = pool.chunk) : Linked pool' queue nodes := by
  have hnext : nodeNext pool' = nodeNext pool := by
    unfold nodeNext
    rw [hc]
  exact ⟨hnext ▸ h.seg, h.nodup, h.endNode, h.size⟩

end Linked

/-- **The loop of `TICK`** answers, pops and frees the nodes that are due. -/
theorem clockServerWake_eq (ticks : U32) (msg : ClockServerMsg) {nodes : List ChunkPtr}
    {pool : MemoryPool DelayQueueNode} {queue : DelayQueue} {n : ℕ}
    (h : Linked pool queue nodes) (ha : pool.Accounts nodes) (hn : nodes.length ≤ n) :
    ∃ pool' queue', clockServerWake ticks msg n queue.front pool queue =
        .ok (pool', queue',
          (nodes.takeWhile (due pool ticks)).map fun c => ((nodeEntry pool c).1, msg)) ∧
      Linked pool' queue' (nodes.dropWhile (due pool ticks)) ∧ pool'.chunk = pool.chunk ∧
      pool'.Accounts (nodes.dropWhile (due pool ticks)) := by
  induction nodes generalizing n pool queue with
  | nil =>
    have hfront : queue.front = none := h.seg
    refine ⟨pool, queue, ?_, h, rfl, ha⟩
    rw [hfront]
    cases n <;> rfl
  | cons x nodes ih =>
    have hfront : queue.front = some x := h.seg.1
    cases n with
    | zero => simp at hn
    | succ n =>
      by_cases hx : (pool.chunk x).delay ≤ ticks
      · have hdue : due pool ticks x = true := decide_eq_true hx
        obtain ⟨hpop, hnext⟩ := h.pop
        obtain ⟨pool₁, hfree, hchunk, ha₁⟩ := ha.free
        have hdue₁ : due pool₁ ticks = due pool ticks := by
          unfold due
          rw [hchunk]
        have hentry₁ : nodeEntry pool₁ = nodeEntry pool := by
          unfold nodeEntry
          rw [hchunk]
        obtain ⟨pool₂, queue₂, hwake, hl₂, hchunk₂, ha₂⟩ :=
          ih (hpop.congr hchunk) ha₁ (n := n) (by simpa using hn)
        rw [hdue₁] at hwake hl₂ ha₂
        rw [hentry₁, hnext] at hwake
        refine ⟨pool₂, queue₂, ?_, ?_, hchunk₂.trans hchunk, ?_⟩
        · rw [hfront, clockServerWake, if_pos hx, List.takeWhile_cons_of_pos hdue]
          dsimp only
          rw [hfree]
          show (clockServerWake ticks msg n (nodeNext pool x) pool₁ (delayQueuePop pool queue) >>=
            _) = _
          rw [hwake]
          rfl
        · rw [List.dropWhile_cons_of_pos hdue]
          exact hl₂
        · rw [List.dropWhile_cons_of_pos hdue]
          exact ha₂
      · have hdue : ¬ due pool ticks x = true := fun h => hx (of_decide_eq_true h)
        refine ⟨pool, queue, ?_, ?_, rfl, ?_⟩
        · rw [hfront, clockServerWake, if_neg hx, List.takeWhile_cons_of_neg hdue]
          rfl
        · rw [List.dropWhile_cons_of_neg hdue]
          exact h
        · rw [List.dropWhile_cons_of_neg hdue]
          exact ha

/-! ### The abstract clock -/

/-- A clock and the requests it has to wake, each a client with its deadline. -/
structure TickClock where
  now : U32
  queue : List (ℤ × U32)

/-- The request has a deadline that has come. -/
def dueAt (now : U32) (r : ℤ × U32) : Bool := decide (r.2 ≤ now)

/-- Puts a request behind those that are not later. -/
def insertRequest (q : List (ℤ × U32)) (r : ℤ × U32) : List (ℤ × U32) :=
  q.takeWhile (dueAt r.2) ++ r :: q.dropWhile (dueAt r.2)

namespace TickClock

def request (a : TickClock) (tid : ℤ) (m : ClockServerMsg) : TickClock × ClockReplies :=
  if m.ticks ≤ a.now then (a, [(tid, m)])
  else ({ a with queue := insertRequest a.queue (tid, m.ticks) }, [])

/-- What a clock does with a message. -/
def step (a : TickClock) (tid : ℤ) (m : ClockServerMsg) : TickClock × ClockReplies :=
  match m.kind with
  | some .tick =>
    let now := a.now + 1
    (⟨now, a.queue.dropWhile (dueAt now)⟩,
      (tid, m) :: (a.queue.takeWhile (dueAt now)).map fun r => (r.1, { m with ticks := now }))
  | some .time => (a, [(tid, { m with ticks := a.now })])
  | some .delay => a.request tid { m with ticks := m.ticks + a.now }
  | some .delayUntil => a.request tid m
  | none => (a, [])

variable {a : TickClock} {tid : ℤ} {m : ClockServerMsg}

theorem step_tick (h : m.kind = some .tick) :
    a.step tid m = (⟨a.now + 1, a.queue.dropWhile (dueAt (a.now + 1))⟩,
      (tid, m) :: (a.queue.takeWhile (dueAt (a.now + 1))).map fun r =>
        (r.1, { m with ticks := a.now + 1 })) := by
  unfold step
  rw [h]

theorem step_time (h : m.kind = some .time) :
    a.step tid m = (a, [(tid, { m with ticks := a.now })]) := by
  unfold step
  rw [h]

theorem step_delay (h : m.kind = some .delay) :
    a.step tid m = a.request tid { m with ticks := m.ticks + a.now } := by
  unfold step
  rw [h]

theorem step_delayUntil (h : m.kind = some .delayUntil) : a.step tid m = a.request tid m := by
  unfold step
  rw [h]

end TickClock

theorem map_insertNode (pool : MemoryPool DelayQueueNode) (c : ChunkPtr)
    (nodes : List ChunkPtr) :
    (insertNode pool c nodes).map (nodeEntry pool) =
      insertRequest (nodes.map (nodeEntry pool)) (nodeEntry pool c) := by
  simp only [insertNode, insertRequest, List.map_append, List.map_cons, List.takeWhile_map,
    List.dropWhile_map]
  rfl

/-- The variables of the server represent a clock. -/
structure ClockServer.Rep (s : ClockServer) (a : TickClock) : Prop where
  now : s.ticks = a.now
  queue : ∃ nodes, Linked s.memoryPool s.delayQueue nodes ∧ s.memoryPool.Accounts nodes ∧
    nodes.map (nodeEntry s.memoryPool) = a.queue

theorem clockServerInit_rep (msg : ClockServerMsg) : (clockServerInit msg).Rep ⟨0, []⟩ :=
  ⟨rfl, [], ⟨rfl, List.nodup_nil, by simp [clockServerInit, delayQueueInit], rfl⟩,
    MemoryPool.accounts_init _, rfl⟩

section Refinement

variable {s : ClockServer} {a : TickClock}

/-- The buffer of the next message is not part of the clock. -/
theorem ClockServer.Rep.setMsg (h : s.Rep a) (msg : ClockServerMsg) :
    ({ s with msg := msg } : ClockServer).Rep a := ⟨h.now, h.queue⟩

theorem ClockServer.Rep.length_le (h : s.Rep a) : a.queue.length ≤ memoryPoolChunks := by
  obtain ⟨-, nodes, -, ha, hq⟩ := h
  have := ha.total
  rw [← hq, List.length_map]
  omega

theorem length_insertRequest (q : List (ℤ × U32)) (r : ℤ × U32) :
    (insertRequest q r).length = q.length + 1 := by
  have := congrArg List.length (List.takeWhile_append_dropWhile (p := dueAt r.2) (l := q))
  simp only [insertRequest, List.length_append, List.length_cons] at this ⊢
  omega

theorem ClockServer.Rep.delayUntil (h : s.Rep a) (tid : ℤ)
    (hroom : (a.request tid s.msg).1.queue.length ≤ memoryPoolChunks) :
    ∃ s', clockServerDelayUntil s tid = .ok (s', (a.request tid s.msg).2) ∧
      s'.Rep (a.request tid s.msg).1 := by
  obtain ⟨hnow, nodes, hl, ha, hq⟩ := h
  unfold clockServerDelayUntil
  unfold TickClock.request at hroom ⊢
  by_cases hdue : s.msg.ticks ≤ s.ticks
  · rw [if_pos hdue, if_pos (hnow ▸ hdue)]
    exact ⟨s, rfl, hnow, nodes, hl, ha, hq⟩
  · rw [if_neg (hnow ▸ hdue)] at hroom
    rw [if_neg hdue, if_neg (hnow ▸ hdue)]
    have hlen : nodes.length < memoryPoolChunks := by
      rw [length_insertRequest, ← hq, List.length_map] at hroom
      exact hroom
    obtain ⟨c, pool, halloc, hchunk, hc, hacc⟩ := ha.allocate hlen
    let pool₁ := pool.write c { pool.chunk c with tid := tid, delay := s.msg.ticks }
    have hother : ∀ d ∈ nodes, pool₁.chunk d = s.memoryPool.chunk d := by
      intro d hd
      have hdc : d ≠ c := fun he => hc (he ▸ hd)
      rw [MemoryPool.write_of_ne _ hdc, hchunk]
    have hl₁ : Linked pool₁ s.delayQueue nodes :=
      ⟨hl.seg.congr fun d hd => congrArg DelayQueueNode.next (hother d hd), hl.nodup, hl.endNode,
        hl.size⟩
    have hentry : nodes.map (nodeEntry pool₁) = a.queue := by
      rw [← hq]
      refine List.map_congr_left fun d hd => ?_
      simp only [nodeEntry, hother d hd]
    have hnew : nodeEntry pool₁ c = (tid, s.msg.ticks) := by simp [nodeEntry, pool₁]
    obtain ⟨pool₂, queue₂, hadd, hl₂, hentry₂, hacc₂⟩ := hl₁.add hc hlen.le
    refine ⟨{ s with memoryPool := pool₂, delayQueue := queue₂ }, ?_, hnow, _, hl₂,
      (hacc₂ _ (hacc.write _ _)).perm (insertNode_perm pool₁ c nodes).symm, ?_⟩
    · rw [halloc]
      show (delayQueueAdd pool₁ s.delayQueue c >>= _) = _
      rw [hadd]
      rfl
    · show (insertNode pool₁ c nodes).map (nodeEntry pool₂) = insertRequest a.queue _
      rw [hentry₂, map_insertNode, hentry, hnew]

/-- **The server refines the clock**: it returns, answers as the clock does and represents the
clock's next state, as long as the pool has room for the requests then. -/
theorem ClockServer.Rep.step (h : s.Rep a) (tid : ℤ) (m : ClockServerMsg)
    (hroom : (a.step tid m).1.queue.length ≤ memoryPoolChunks) :
    ∃ s', clockServer s tid m = .ok (s', (a.step tid m).2) ∧ s'.Rep (a.step tid m).1 := by
  have hrep := h
  obtain ⟨hnow, nodes, hl, ha, hq⟩ := h
  have hlen : nodes.length ≤ memoryPoolChunks := by
    have := ha.total
    omega
  unfold clockServer clockServerBody
  unfold TickClock.step at hroom ⊢
  dsimp only
  revert hroom
  cases m.kind with
  | none => exact fun _ => ⟨_, rfl, hnow, nodes, hl, ha, hq⟩
  | some action =>
    intro hroom
    cases action with
    | tick =>
      obtain ⟨pool, queue, hwake, hl', hchunk, ha'⟩ :=
        clockServerWake_eq (s.ticks + 1) { m with ticks := s.ticks + 1 } hl ha hlen
      refine ⟨⟨pool, queue, s.ticks + 1, { m with ticks := s.ticks + 1 }⟩, ?_, ?_, _, hl', ha', ?_⟩
      · dsimp only
        rw [hwake, ← hq, ← hnow, List.takeWhile_map, List.map_map]
        rfl
      · rw [hnow]
      · have hentry : nodeEntry pool = nodeEntry s.memoryPool := by
          unfold nodeEntry
          rw [hchunk]
        rw [hentry, ← hq, ← hnow, List.dropWhile_map]
        rfl
    | time =>
      refine ⟨{ s with msg := { m with ticks := s.ticks } }, ?_, hnow, nodes, hl, ha, hq⟩
      rw [← hnow]
    | delay =>
      dsimp only at hroom ⊢
      rw [← hnow] at hroom ⊢
      exact (hrep.setMsg { m with ticks := m.ticks + s.ticks }).delayUntil tid hroom
    | delayUntil => exact (hrep.setMsg m).delayUntil tid hroom

end Refinement

end RealtimeKernel
