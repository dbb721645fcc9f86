import RealtimeKernel.Lib.Servers
import RealtimeKernel.MemoryPool

/-!
# `rps_server.c`: the rock-paper-scissors server

Clients are known to the server by name; `WhoIs` of the name server turns a name into a tid, so
names are an arbitrary type and `whoIs` is a parameter.  A client that signs up waits in a queue
of chunks of the pool until the next one does.  A table, indexed by tid, holds the last move of
every client.
-/

namespace RealtimeKernel

open Lib

/-! ### Messages -/

inductive RPSAction
  | signup
  | play
  | quit
  deriving DecidableEq, Repr

/-- The enumerator with a value, if there is one. -/
def RPSAction.ofCode (code : U32) : Option RPSAction :=
  match code.toNat with
  | 0 => some .signup
  | 1 => some .play
  | 2 => some .quit
  | _ => none

inductive RPSPlayAction
  | absent
  | unknown
  | rock
  | paper
  | scissors
  deriving DecidableEq, Repr

def RPSPlayAction.code : RPSPlayAction → U32
  | .absent => 0
  | .unknown => 1
  | .rock => 2
  | .paper => 3
  | .scissors => 4

inductive RPSPlayResult
  | won
  | lost
  | tie
  | noOpponent
  deriving DecidableEq, Repr

def RPSPlayResult.code : RPSPlayResult → U32
  | .won => 0
  | .lost => 1
  | .tie => 2
  | .noOpponent => 3

structure RPSMsg (ν : Type) where
  action : U32
  playAction : U32
  name : ν
  opponent : ν
  playResult : U32
  next : Option ChunkPtr
  deriving DecidableEq

variable {ν : Type}

def RPSMsg.kind (m : RPSMsg ν) : Option RPSAction := RPSAction.ofCode m.action

/-! ### The signup queue -/

structure RPSMsgQueue where
  front : Option ChunkPtr
  endNode : Option ChunkPtr
  size : U64

def rpsMsgQueueInit : RPSMsgQueue where
  front := none
  endNode := none
  size := 0

/-- `msg->next = next`. -/
def setMsgNext (pool : MemoryPool (RPSMsg ν)) (msg : ChunkPtr) (next : Option ChunkPtr) :
    MemoryPool (RPSMsg ν) :=
  pool.write msg { pool.chunk msg with next := next }

def rpsMsgQueueAdd (pool : MemoryPool (RPSMsg ν)) (self : RPSMsgQueue) (msg : ChunkPtr) :
    MemoryPool (RPSMsg ν) × RPSMsgQueue :=
  let pool := setMsgNext pool msg none
  match self.endNode with
  | some endNode =>
    let pool := setMsgNext pool endNode (some msg)
    (pool, { self with endNode := (pool.chunk endNode).next, size := self.size + 1 })
  | none => (pool, { endNode := some msg, front := some msg, size := self.size + 1 })

def rpsMsgQueuePop (pool : MemoryPool (RPSMsg ν)) (self : RPSMsgQueue) :
    Option ChunkPtr × RPSMsgQueue :=
  match self.front with
  | some front =>
    match (pool.chunk front).next with
    | some next => (some front, { self with front := some next, size := self.size - 1 })
    | none => (some front, { front := none, endNode := none, size := self.size - 1 })
  | none => (none, { self with size := self.size - 1 })

/-! ### The server -/

/-- The variables of `rps_server`; `msg` is the buffer of its `Receive`. -/
structure RPSServer (ν : Type) where
  memoryPool : MemoryPool (RPSMsg ν)
  signupQueue : RPSMsgQueue
  playActions : Fin 64 → U32
  msg : RPSMsg ν

abbrev RPSReplies (ν : Type) := List (ℤ × RPSMsg ν)

/-- The variables when `rps_server` enters its loop; `msg` is not initialised, and a cleared
chunk reads as `zero`. -/
def rpsServerInit (zero msg : RPSMsg ν) : RPSServer ν where
  memoryPool := memoryPoolInit zero
  signupQueue := rpsMsgQueueInit
  playActions := fun _ => RPSPlayAction.absent.code
  msg := msg

/-- An index into `play_actions`. -/
def playIndex (tid : ℤ) : Except Fault (Fin 64) :=
  if h : tid.toNat < 64 ∧ 0 ≤ tid then .ok ⟨tid.toNat, h.1⟩ else .error .outOfBounds

/-- The case `SIGNUP`. -/
def rpsServerSignup (whoIs : ν → ℤ) (s : RPSServer ν) :
    Except Fault (RPSServer ν × RPSReplies ν) :=
  match memoryPoolAllocate s.memoryPool with
  | (none, _) => .error .null
  | (some newMsg, pool) => do
    let pool := pool.write newMsg s.msg
    let (pool, queue) := rpsMsgQueueAdd pool s.signupQueue newMsg
    let i ← playIndex (whoIs (pool.chunk newMsg).name)
    let playActions := Function.update s.playActions i RPSPlayAction.unknown.code
    if 2 ≤ queue.size then
      let (msg1, queue) := rpsMsgQueuePop pool queue
      let (msg2, queue) := rpsMsgQueuePop pool queue
      (match msg1, msg2 with
      | some msg1, some msg2 => do
        let pool := pool.write msg1
          { pool.chunk msg1 with opponent := (pool.chunk msg2).name }
        let pool := pool.write msg2
          { pool.chunk msg2 with opponent := (pool.chunk msg1).name }
        let replies := [(whoIs (pool.chunk msg1).name, pool.chunk msg1),
          (whoIs (pool.chunk msg2).name, pool.chunk msg2)]
        let pool ← memoryPoolFree pool msg1
        let pool ← memoryPoolFree pool msg2
        .ok ({ s with memoryPool := pool, signupQueue := queue, playActions := playActions },
          replies)
      | _, _ => .error .null)
    else
      .ok ({ s with memoryPool := pool, signupQueue := queue, playActions := playActions }, [])

/-- Allocates and fills in the answer to a player. -/
def rpsResultMsg (pool : MemoryPool (RPSMsg ν)) (name opponent : ν) (result : RPSPlayResult) :
    Except Fault (ChunkPtr × MemoryPool (RPSMsg ν)) :=
  match memoryPoolAllocate pool with
  | (none, _) => .error .null
  | (some msg, pool) =>
    .ok (msg, pool.write msg
      { pool.chunk msg with name := name, opponent := opponent, playResult := result.code })

/-- The results for the player whose move arrived and for the one whose move was recorded, by
the difference of the moves. -/
def rpsResults (move recorded : U32) : Option (RPSPlayResult × RPSPlayResult) :=
  if move - recorded = 0 then some (.tie, .tie)
  else if move - recorded = 1 ∨ move - recorded = -2 then some (.won, .lost)
  else if move - recorded = 2 ∨ move - recorded = -1 then some (.lost, .won)
  else none

/-- Tells both players of a round their results. -/
def rpsAnswerBoth (pool : MemoryPool (RPSMsg ν)) (p1 p2 : ℤ) (name opponent : ν)
    (results : RPSPlayResult × RPSPlayResult) :
    Except Fault (MemoryPool (RPSMsg ν) × RPSReplies ν) := do
  let (msg1, pool) ← rpsResultMsg pool name opponent results.1
  let reply1 := (p1, pool.chunk msg1)
  let (msg2, pool) ← rpsResultMsg pool opponent name results.2
  let reply2 := (p2, pool.chunk msg2)
  let pool ← memoryPoolFree pool msg1
  let pool ← memoryPoolFree pool msg2
  .ok (pool, [reply1, reply2])

/-- The case `PLAY`. -/
def rpsServerPlay (whoIs : ν → ℤ) (s : RPSServer ν) :
    Except Fault (RPSServer ν × RPSReplies ν) := do
  let p1 := whoIs s.msg.name
  let p2 := whoIs s.msg.opponent
  let i1 ← playIndex p1
  let playActions := Function.update s.playActions i1 s.msg.playAction
  let i2 ← playIndex p2
  if playActions i2 = RPSPlayAction.absent.code then do
    let (msg1, pool) ← rpsResultMsg s.memoryPool s.msg.name s.msg.opponent .noOpponent
    let reply := (p1, pool.chunk msg1)
    let pool ← memoryPoolFree pool msg1
    .ok ({ s with memoryPool := pool, playActions := playActions }, [reply])
  else if playActions i2 ≠ RPSPlayAction.unknown.code then do
    let (pool, replies) ←
      (match rpsResults (playActions i1) (playActions i2) with
      | some results =>
        rpsAnswerBoth s.memoryPool p1 p2 s.msg.name s.msg.opponent results
      | none => .ok (s.memoryPool, []))
    let playActions := Function.update playActions i1 RPSPlayAction.unknown.code
    let playActions := Function.update playActions i2 RPSPlayAction.unknown.code
    .ok ({ s with memoryPool := pool, playActions := playActions }, replies)
  else .ok ({ s with playActions := playActions }, [])

/-- The case `QUIT`. -/
def rpsServerQuit (s : RPSServer ν) (tid : ℤ) : Except Fault (RPSServer ν × RPSReplies ν) := do
  let i ← playIndex tid
  .ok ({ s with playActions := Function.update s.playActions i RPSPlayAction.absent.code },
    [(tid, s.msg)])

/-- The body of the loop, after `Receive` has filled in `tid` and `msg`. -/
def rpsServerBody (whoIs : ν → ℤ) (s : RPSServer ν) (tid : ℤ) :
    Except Fault (RPSServer ν × RPSReplies ν) :=
  match s.msg.kind with
  | some .signup => rpsServerSignup whoIs s
  | some .play => rpsServerPlay whoIs s
  | some .quit => rpsServerQuit s tid
  | none => .ok (s, [])

/-- One iteration on a message of full size. -/
def rpsServer (whoIs : ν → ℤ) : Server (RPSServer ν) ℤ (RPSMsg ν) (RPSMsg ν) Fault :=
  fun s tid msg => rpsServerBody whoIs { s with msg := msg } tid

/-! ### The lobby -/

/-- What a reply tells the client. -/
structure RPSAnswer (ν : Type) where
  tid : ℤ
  name : ν
  opponent : ν
  playResult : U32
  deriving DecidableEq

/-- What a client reads of the reply it gets. -/
def rpsAnswer (r : ℤ × RPSMsg ν) : RPSAnswer ν := ⟨r.1, r.2.name, r.2.opponent, r.2.playResult⟩

/-- Who waits for an opponent, and the last move of every client. -/
structure Lobby (ν : Type) where
  waits : Option (RPSMsg ν)
  table : Fin 64 → U32

namespace Lobby

/-- Pairs the client with the one that waits, or lets it wait. -/
def signup (whoIs : ν → ℤ) (a : Lobby ν) (m : RPSMsg ν) (i : Fin 64) :
    Lobby ν × List (RPSAnswer ν) :=
  let table := Function.update a.table i RPSPlayAction.unknown.code
  match a.waits with
  | none => (⟨some { m with next := none }, table⟩, [])
  | some m₁ => (⟨none, table⟩,
      [⟨whoIs m₁.name, m₁.name, m.name, m₁.playResult⟩,
        ⟨whoIs m.name, m.name, m₁.name, m.playResult⟩])

/-- Scores a move, unless the opponent has none. -/
def play (a : Lobby ν) (m : RPSMsg ν) (i j : Fin 64) : Lobby ν × List (RPSAnswer ν) :=
  let table := Function.update a.table i m.playAction
  if table j = RPSPlayAction.absent.code then
    (⟨a.waits, table⟩, [⟨i, m.name, m.opponent, RPSPlayResult.noOpponent.code⟩])
  else if table j = RPSPlayAction.unknown.code then (⟨a.waits, table⟩, [])
  else
    (⟨a.waits, Function.update (Function.update table i RPSPlayAction.unknown.code) j
        RPSPlayAction.unknown.code⟩,
      match rpsResults (table i) (table j) with
      | some results => [⟨i, m.name, m.opponent, results.1.code⟩,
          ⟨j, m.opponent, m.name, results.2.code⟩]
      | none => [])

/-- Takes the client out of the table. -/
def quit (a : Lobby ν) (m : RPSMsg ν) (i : Fin 64) : Lobby ν × List (RPSAnswer ν) :=
  (⟨a.waits, Function.update a.table i RPSPlayAction.absent.code⟩,
    [⟨i, m.name, m.opponent, m.playResult⟩])

/-- What a message does, if its indices are in the table. -/
def step (whoIs : ν → ℤ) (a : Lobby ν) (tid : ℤ) (m : RPSMsg ν) :
    Except Fault (Lobby ν × List (RPSAnswer ν)) :=
  match m.kind with
  | some .signup => do
    let i ← playIndex (whoIs m.name)
    .ok (a.signup whoIs m i)
  | some .play => do
    let i ← playIndex (whoIs m.name)
    let j ← playIndex (whoIs m.opponent)
    .ok (a.play m i j)
  | some .quit => do
    let i ← playIndex tid
    .ok (a.quit m i)
  | none => .ok (a, [])

section Play

variable {a : Lobby ν} {m : RPSMsg ν} {i j : Fin 64}

theorem play_absent
    (hx : Function.update a.table i m.playAction j = RPSPlayAction.absent.code) :
    a.play m i j = (⟨a.waits, Function.update a.table i m.playAction⟩,
      [⟨i, m.name, m.opponent, RPSPlayResult.noOpponent.code⟩]) := by
  simp only [play, if_pos hx]

theorem play_unknown
    (hx : Function.update a.table i m.playAction j = RPSPlayAction.unknown.code) :
    a.play m i j = (⟨a.waits, Function.update a.table i m.playAction⟩, []) := by
  have hne : Function.update a.table i m.playAction j ≠ RPSPlayAction.absent.code := by
    rw [hx]
    decide
  simp only [play, if_neg hne, if_pos hx]

theorem play_scored {x : U32} {r : RPSPlayResult × RPSPlayResult}
    (hx : Function.update a.table i m.playAction j = x) (habsent : x ≠ RPSPlayAction.absent.code)
    (hunknown : x ≠ RPSPlayAction.unknown.code) (hr : rpsResults m.playAction x = some r) :
    a.play m i j = (⟨a.waits, Function.update (Function.update a.table i
        RPSPlayAction.unknown.code) j RPSPlayAction.unknown.code⟩,
      [⟨i, m.name, m.opponent, r.1.code⟩, ⟨j, m.opponent, m.name, r.2.code⟩]) := by
  subst hx
  simp only [play, if_neg habsent, if_neg hunknown, Function.update_self, Function.update_idem,
    hr]

end Play

end Lobby

/-- The server keeps the lobby; `held` is the chunk of the client that waits. -/
structure RPSServer.Rep (s : RPSServer ν) (held : Option ChunkPtr) (a : Lobby ν) : Prop where
  front : s.signupQueue.front = held
  endNode : s.signupQueue.endNode = held
  size : s.signupQueue.size = BitVec.ofNat 64 held.toList.length
  waits : held.map s.memoryPool.chunk = a.waits
  table : s.playActions = a.table
  accounts : s.memoryPool.Accounts held.toList

section Refinement

variable {whoIs : ν → ℤ} {s : RPSServer ν} {held : Option ChunkPtr} {a : Lobby ν}
  {m : RPSMsg ν} {i j : Fin 64} {tid : ℤ}

@[simp] theorem playIndex_natCast (i : Fin 64) : playIndex (i.val : ℤ) = .ok i := by
  have hi := i.isLt
  rw [playIndex, dif_pos (by simp)]
  rfl

theorem playIndex_eq_ok : playIndex tid = .ok i ↔ tid = i.val := by
  constructor
  · intro h
    unfold playIndex at h
    split at h
    · rename_i hin
      cases h
      exact (Int.toNat_of_nonneg hin.2).symm
    · cases h
  · rintro rfl
    exact playIndex_natCast i

theorem rpsServerInit_rep (zero msg : RPSMsg ν) :
    (rpsServerInit zero msg).Rep none ⟨none, fun _ => RPSPlayAction.absent.code⟩ where
  front := rfl
  endNode := rfl
  size := rfl
  waits := rfl
  table := rfl
  accounts := MemoryPool.accounts_init zero

/-- The answer to a player is made in a chunk of its own, and the others keep what they hold. -/
theorem rpsResultMsg_eq {pool : MemoryPool (RPSMsg ν)} {chunks : List ChunkPtr}
    (h : pool.Accounts chunks) (hroom : chunks.length < memoryPoolChunks) (name opponent : ν)
    (result : RPSPlayResult) :
    ∃ c pool', rpsResultMsg pool name opponent result = .ok (c, pool') ∧
      pool'.Accounts (c :: chunks) ∧ (∀ d ∈ chunks, pool'.chunk d = pool.chunk d) ∧
      ∀ tid, rpsAnswer (tid, pool'.chunk c) = ⟨tid, name, opponent, result.code⟩ := by
  obtain ⟨c, pool₁, halloc, hchunk, hc, ha⟩ := h.allocate hroom
  refine ⟨c, pool₁.write c { pool₁.chunk c with
    name := name, opponent := opponent, playResult := result.code }, ?_, ha.write _ _, ?_, ?_⟩
  · rw [rpsResultMsg, halloc]
  · intro d hd
    have hne : d ≠ c := fun heq => hc (heq ▸ hd)
    rw [MemoryPool.write_of_ne _ hne, hchunk]
  · intro tid
    simp [rpsAnswer]

/-- The answer to one player is sent from a chunk that is free again afterwards. -/
theorem rpsResultMsg_free {pool : MemoryPool (RPSMsg ν)} {chunks : List ChunkPtr}
    (h : pool.Accounts chunks) (hroom : chunks.length < memoryPoolChunks) (name opponent : ν)
    (result : RPSPlayResult) :
    ∃ c pool' pool'', rpsResultMsg pool name opponent result = .ok (c, pool') ∧
      memoryPoolFree pool' c = .ok pool'' ∧ pool''.Accounts chunks ∧
      (∀ d ∈ chunks, pool''.chunk d = pool.chunk d) ∧
      ∀ tid, rpsAnswer (tid, pool'.chunk c) = ⟨tid, name, opponent, result.code⟩ := by
  obtain ⟨c, pool', hmsg, ha, hkeep, hans⟩ := rpsResultMsg_eq h hroom name opponent result
  obtain ⟨pool'', hfree, hchunk, ha'⟩ := ha.free
  exact ⟨c, pool', pool'', hmsg, hfree, ha', fun d hd => hchunk ▸ hkeep d hd, hans⟩

theorem rpsAnswerBoth_eq {pool : MemoryPool (RPSMsg ν)} {chunks : List ChunkPtr}
    (h : pool.Accounts chunks) (hroom : chunks.length + 1 < memoryPoolChunks) (p1 p2 : ℤ)
    (name opponent : ν) (results : RPSPlayResult × RPSPlayResult) :
    ∃ pool' replies, rpsAnswerBoth pool p1 p2 name opponent results = .ok (pool', replies) ∧
      pool'.Accounts chunks ∧ (∀ d ∈ chunks, pool'.chunk d = pool.chunk d) ∧
      replies.map rpsAnswer =
        [⟨p1, name, opponent, results.1.code⟩, ⟨p2, opponent, name, results.2.code⟩] := by
  obtain ⟨c₁, pool₁, hmsg₁, ha₁, hkeep₁, hans₁⟩ :=
    rpsResultMsg_eq h (by omega) name opponent results.1
  obtain ⟨c₂, pool₂, hmsg₂, ha₂, hkeep₂, hans₂⟩ :=
    rpsResultMsg_eq ha₁ (by simpa using hroom) opponent name results.2
  obtain ⟨pool₃, hfree₃, hchunk₃, ha₃⟩ := (ha₂.perm (List.Perm.swap c₁ c₂ chunks)).free
  obtain ⟨pool₄, hfree₄, hchunk₄, ha₄⟩ := ha₃.free
  refine ⟨pool₄, [(p1, pool₁.chunk c₁), (p2, pool₂.chunk c₂)], ?_, ha₄, ?_, ?_⟩
  · simp only [rpsAnswerBoth, hmsg₁, hmsg₂, hfree₃, hfree₄, bind, Except.bind]
  · intro d hd
    rw [hchunk₄, hchunk₃, hkeep₂ d (List.mem_cons_of_mem _ hd), hkeep₁ d hd]
  · simp only [List.map_cons, List.map_nil, hans₁, hans₂]

@[simp] theorem setMsgNext_self (pool : MemoryPool (RPSMsg ν)) (c : ChunkPtr)
    (next : Option ChunkPtr) :
    (setMsgNext pool c next).chunk c = { pool.chunk c with next := next } :=
  MemoryPool.write_self _

theorem setMsgNext_of_ne (pool : MemoryPool (RPSMsg ν)) {c d : ChunkPtr} (h : d ≠ c)
    (next : Option ChunkPtr) : (setMsgNext pool c next).chunk d = pool.chunk d :=
  MemoryPool.write_of_ne _ h

namespace RPSServer.Rep

theorem held_length (_ : s.Rep held a) : held.toList.length ≤ 1 := by
  cases held <;> simp

theorem chunk_eq (h : s.Rep held a) {pool : MemoryPool (RPSMsg ν)}
    (hkeep : ∀ d ∈ held.toList, pool.chunk d = s.memoryPool.chunk d) :
    held.map pool.chunk = a.waits := by
  rw [← h.waits]
  cases held with
  | none => rfl
  | some c => exact congrArg some (hkeep c List.mem_cons_self)

/-- **The first of a pair** waits in a chunk. -/
theorem signup_first (h : s.Rep none a) (hi : whoIs m.name = i.val) :
    ∃ c s', rpsServerSignup whoIs { s with msg := m } = .ok (s', []) ∧
      s'.Rep (some c) (a.signup whoIs m i).1 ∧ (a.signup whoIs m i).2 = [] := by
  have hwaits : a.waits = none := h.waits.symm
  obtain ⟨c, pool, halloc, hchunk, -, ha⟩ := h.accounts.allocate (by decide)
  have hadd : rpsMsgQueueAdd (pool.write c m) s.signupQueue c =
      (setMsgNext (pool.write c m) c none, ⟨some c, some c, 1⟩) := by
    rw [rpsMsgQueueAdd, h.endNode, h.size]
    rfl
  refine ⟨c, ⟨setMsgNext (pool.write c m) c none, ⟨some c, some c, 1⟩,
    Function.update s.playActions i RPSPlayAction.unknown.code, m⟩, ?_, ?_, ?_⟩
  · simp only [rpsServerSignup, halloc, hadd, setMsgNext_self, MemoryPool.write_self, hi,
      playIndex_natCast]
    rfl
  · refine ⟨rfl, rfl, rfl, ?_, ?_, (ha.write _ _).write _ _⟩
    · simp [Lobby.signup, hwaits]
    · simp [Lobby.signup, hwaits, h.table]
  · simp [Lobby.signup, hwaits]

/-- **The second of a pair** and the one that waits are told of each other. -/
theorem signup_second {c : ChunkPtr} (h : s.Rep (some c) a) (hi : whoIs m.name = i.val) :
    ∃ s' rs, rpsServerSignup whoIs { s with msg := m } = .ok (s', rs) ∧
      s'.Rep none (a.signup whoIs m i).1 ∧ rs.map rpsAnswer = (a.signup whoIs m i).2 := by
  have hwaits : a.waits = some (s.memoryPool.chunk c) := h.waits.symm
  have hroom : 1 < memoryPoolChunks := by decide
  obtain ⟨d, pool, halloc, hchunk, hd, ha⟩ := h.accounts.allocate hroom
  have hne : d ≠ c := by simpa using hd
  -- the new chunk is linked behind the one that waits
  let pool₁ := setMsgNext (setMsgNext (pool.write d m) d none) c (some d)
  have hadd : rpsMsgQueueAdd (pool.write d m) s.signupQueue d =
      (pool₁, ⟨some c, some d, 2⟩) := by
    rw [rpsMsgQueueAdd, h.endNode, h.size, h.front]
    simp only [setMsgNext_self]
    rfl
  have hc₁ : pool₁.chunk c = { s.memoryPool.chunk c with next := some d } := by
    rw [setMsgNext_self, setMsgNext_of_ne _ hne.symm, MemoryPool.write_of_ne _ hne.symm, hchunk]
  have hd₁ : pool₁.chunk d = { m with next := none } := by
    rw [setMsgNext_of_ne _ hne, setMsgNext_self, MemoryPool.write_self]
  have hpop₁ : rpsMsgQueuePop pool₁ ⟨some c, some d, 2⟩ = (some c, ⟨some d, some d, 1⟩) := by
    simp only [rpsMsgQueuePop, hc₁]
    rfl
  have hpop₂ : rpsMsgQueuePop pool₁ ⟨some d, some d, 1⟩ = (some d, ⟨none, none, 0⟩) := by
    simp only [rpsMsgQueuePop, hd₁]
    rfl
  -- both are told the other's name
  let pool₂ := pool₁.write c { pool₁.chunk c with opponent := (pool₁.chunk d).name }
  let pool₃ := pool₂.write d { pool₂.chunk d with opponent := (pool₂.chunk c).name }
  have hc₃ : pool₃.chunk c =
      { s.memoryPool.chunk c with next := some d, opponent := m.name } := by
    rw [MemoryPool.write_of_ne _ hne.symm, MemoryPool.write_self, hc₁, hd₁]
  have hd₃ : pool₃.chunk d =
      { m with next := none, opponent := (s.memoryPool.chunk c).name } := by
    rw [MemoryPool.write_self, MemoryPool.write_of_ne _ hne, hd₁, MemoryPool.write_self, hc₁]
  have ha₃ : pool₃.Accounts [c, d] :=
    (((((ha.write d m).write _ _).write _ _).write _ _).write _ _).perm (List.Perm.swap c d [])
  obtain ⟨pool₄, hfree₄, -, ha₄⟩ := ha₃.free
  obtain ⟨pool₅, hfree₅, -, ha₅⟩ := ha₄.free
  refine ⟨⟨pool₅, ⟨none, none, 0⟩, Function.update s.playActions i RPSPlayAction.unknown.code, m⟩,
    [(whoIs (pool₃.chunk c).name, pool₃.chunk c), (whoIs (pool₃.chunk d).name, pool₃.chunk d)],
    ?_, ?_, ?_⟩
  · have hname : whoIs (pool₁.chunk d).name = i.val := by rw [hd₁, hi]
    simp only [rpsServerSignup, halloc, hadd, hname, playIndex_natCast, bind, Except.bind,
      BitVec.le_refl, if_true, hpop₁, hpop₂]
    rw [hfree₄]
    dsimp only
    rw [hfree₅]
  · refine ⟨rfl, rfl, rfl, ?_, ?_, ha₅⟩
    · simp [Lobby.signup, hwaits]
    · simp [Lobby.signup, hwaits, h.table]
  · simp only [List.map_cons, List.map_nil, rpsAnswer, hc₃, hd₃, Lobby.signup, hwaits]

/-- **A move** is refused, recorded or scored. -/
theorem play (h : s.Rep held a) (hi : whoIs m.name = i.val) (hj : whoIs m.opponent = j.val) :
    ∃ s' rs, rpsServerPlay whoIs { s with msg := m } = .ok (s', rs) ∧
      s'.Rep held (a.play m i j).1 ∧ rs.map rpsAnswer = (a.play m i j).2 := by
  have hlen := h.held_length
  have hroom : held.toList.length + 1 < memoryPoolChunks := by
    have : 2 < memoryPoolChunks := by decide
    omega
  simp only [rpsServerPlay, Lobby.play, hi, hj, playIndex_natCast, ← h.table, bind, Except.bind]
  let table := Function.update s.playActions i m.playAction
  by_cases habsent : table j = RPSPlayAction.absent.code
  · obtain ⟨c, pool, pool', hmsg, hfree, ha, hkeep, hans⟩ :=
      rpsResultMsg_free h.accounts (by omega) m.name m.opponent .noOpponent
    rw [if_pos habsent, if_pos habsent, hmsg]
    dsimp only
    rw [hfree]
    refine ⟨_, _, rfl, ⟨h.front, h.endNode, h.size, h.chunk_eq hkeep, rfl, ha⟩, ?_⟩
    simp only [List.map_cons, List.map_nil, hans]
  · rw [if_neg habsent, if_neg habsent]
    by_cases hunknown : table j = RPSPlayAction.unknown.code
    · rw [if_neg (fun hne => hne hunknown), if_pos hunknown]
      exact ⟨_, _, rfl, ⟨h.front, h.endNode, h.size, h.waits, rfl, h.accounts⟩, rfl⟩
    · rw [if_pos hunknown, if_neg hunknown]
      cases hres : rpsResults (table i) (table j) with
      | none =>
        exact ⟨_, _, rfl, ⟨h.front, h.endNode, h.size, h.waits, rfl, h.accounts⟩, rfl⟩
      | some results =>
        obtain ⟨pool, replies, hboth, ha, hkeep, hans⟩ :=
          rpsAnswerBoth_eq h.accounts hroom (i.val : ℤ) j.val m.name m.opponent results
        dsimp only
        rw [hboth]
        exact ⟨_, _, rfl, ⟨h.front, h.endNode, h.size, h.chunk_eq hkeep, rfl, ha⟩, hans⟩

theorem quit (h : s.Rep held a) (hi : tid = i.val) :
    ∃ s', rpsServerQuit { s with msg := m } tid = .ok (s', [(tid, m)]) ∧
      s'.Rep held (a.quit m i).1 ∧ [(tid, m)].map rpsAnswer = (a.quit m i).2 := by
  subst hi
  refine ⟨{ s with
    msg := m, playActions := Function.update s.playActions i RPSPlayAction.absent.code }, ?_,
    ⟨h.front, h.endNode, h.size, h.waits, ?_, h.accounts⟩, rfl⟩
  · simp [rpsServerQuit, bind, Except.bind]
  · simp [Lobby.quit, h.table]

/-- **The server keeps the lobby**: what the message does there it does in the server. -/
theorem step (h : s.Rep held a) {a' : Lobby ν} {answers : List (RPSAnswer ν)}
    (hstep : a.step whoIs tid m = .ok (a', answers)) :
    ∃ held' s' rs, rpsServer whoIs s tid m = .ok (s', rs) ∧ s'.Rep held' a' ∧
      rs.map rpsAnswer = answers := by
  unfold Lobby.step at hstep
  unfold rpsServer rpsServerBody
  dsimp only
  cases hk : m.kind with
  | none =>
    rw [hk] at hstep
    cases hstep
    exact ⟨held, _, _, rfl, ⟨h.front, h.endNode, h.size, h.waits, h.table, h.accounts⟩, rfl⟩
  | some action =>
    rw [hk] at hstep
    cases action with
    | signup =>
      obtain ⟨i, hi, hstep⟩ := bind_eq_ok.mp hstep
      have heq : a.signup whoIs m i = (a', answers) := Except.ok.inj hstep
      cases held with
      | none =>
        obtain ⟨c, s', hok, hrep, hans⟩ := h.signup_first (playIndex_eq_ok.mp hi)
        rw [heq] at hrep hans
        exact ⟨some c, s', [], hok, hrep, hans.symm⟩
      | some c =>
        obtain ⟨s', rs, hok, hrep, hans⟩ := h.signup_second (playIndex_eq_ok.mp hi)
        rw [heq] at hrep hans
        exact ⟨none, s', rs, hok, hrep, hans⟩
    | play =>
      obtain ⟨i, hi, hstep⟩ := bind_eq_ok.mp hstep
      obtain ⟨j, hj, hstep⟩ := bind_eq_ok.mp hstep
      have heq : a.play m i j = (a', answers) := Except.ok.inj hstep
      obtain ⟨s', rs, hok, hrep, hans⟩ := h.play (playIndex_eq_ok.mp hi) (playIndex_eq_ok.mp hj)
      rw [heq] at hrep hans
      exact ⟨held, s', rs, hok, hrep, hans⟩
    | quit =>
      obtain ⟨i, hi, hstep⟩ := bind_eq_ok.mp hstep
      have heq : a.quit m i = (a', answers) := Except.ok.inj hstep
      obtain ⟨s', hok, hrep, hans⟩ := h.quit (m := m) (playIndex_eq_ok.mp hi)
      rw [heq] at hrep hans
      exact ⟨held, s', _, hok, hrep, hans⟩

/-- A message whose index is not in the table stops the server. -/
theorem step_error (h : s.Rep held a) {f : Fault} (hstep : a.step whoIs tid m = .error f) :
    rpsServer whoIs s tid m = .error f := by
  have hsignup : ∀ f', playIndex (whoIs m.name) = .error f' →
      rpsServerSignup whoIs { s with msg := m } = .error f' := by
    intro f' hf
    have hroom : held.toList.length < memoryPoolChunks := by
      have hlen := h.held_length
      have : 1 < memoryPoolChunks := by decide
      omega
    obtain ⟨c, pool, halloc, hchunk, hc, -⟩ := h.accounts.allocate hroom
    have hname : ((rpsMsgQueueAdd (pool.write c m) s.signupQueue c).1.chunk c).name =
        m.name := by
      rw [rpsMsgQueueAdd, h.endNode]
      cases held with
      | none => simp
      | some d =>
        have hne : c ≠ d := by simpa using hc
        simp [setMsgNext_of_ne _ hne]
    simp only [rpsServerSignup, halloc, hname, hf]
    rfl
  unfold Lobby.step at hstep
  unfold rpsServer rpsServerBody
  dsimp only
  cases hk : m.kind with
  | none =>
    rw [hk] at hstep
    cases hstep
  | some action =>
    rw [hk] at hstep
    cases action with
    | signup =>
      cases hi : playIndex (whoIs m.name) with
      | error f' =>
        simp only [hi, bind, Except.bind] at hstep
        cases hstep
        exact hsignup _ hi
      | ok i => simp [hi, bind, Except.bind] at hstep
    | play =>
      simp only [rpsServerPlay]
      cases hi : playIndex (whoIs m.name) with
      | error f' =>
        simp only [hi, bind, Except.bind] at hstep ⊢
        cases hstep
        rfl
      | ok i =>
        cases hj : playIndex (whoIs m.opponent) with
        | error f' =>
          simp only [hi, hj, bind, Except.bind] at hstep ⊢
          cases hstep
          rfl
        | ok j => simp [hi, hj, bind, Except.bind] at hstep
    | quit =>
      simp only [rpsServerQuit]
      cases hi : playIndex tid with
      | error f' =>
        simp only [hi, bind, Except.bind] at hstep ⊢
        cases hstep
        rfl
      | ok i => simp [hi, bind, Except.bind] at hstep

end RPSServer.Rep

end Refinement

end RealtimeKernel
