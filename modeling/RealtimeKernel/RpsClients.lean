import RealtimeKernel.Lib.Clients
import RealtimeKernel.RpsRounds

/-!
# `rps_client`: the clients of the rock-paper-scissors server

Any number of tasks run `rps_client` against one `rps_server`.  A client signs up, plays three
rounds against the opponent that it is told, and quits.  The server and its clients are
consistent when each client's entry in the table, its message and the replies it waits for agree
with the place in its program, and the clients that were paired are in step.
-/

namespace RealtimeKernel

open Lib

/-! ### `utilities.c` -/

/-- `clo` is the count of the system timer that the function reads. -/
def getRandomU32 (clo min max : U32) : U32 := clo % (max - min) + min

/-! ### `rps_client` -/

def RPSAction.code : RPSAction → U32
  | .signup => 0
  | .play => 1
  | .quit => 2

/-- A client is before a Send or in it. -/
inductive RpsClientAt
  | signup
  | signing
  | round (i : ℕ)
  | playing (i : ℕ)
  | quit
  | quitting
  | exited
  deriving DecidableEq

/-- The variables of `rps_client`, and the results that it has printed. -/
structure RpsClient (ν : Type) where
  place : RpsClientAt
  name : ν
  msg : RPSMsg ν
  reply : RPSMsg ν
  results : List U32

def rpsClientRounds : ℕ := 3

/-- `sizeof(RPSMsg)`, which is what a Send to the server returns. -/
def rpsMsgSize : ℤ := 40

namespace RpsClient

variable {ν : Type}

/-- The head of the loop over the rounds. -/
def atRound (c : RpsClient ν) (i : ℕ) : RpsClient ν :=
  { c with place := if i < rpsClientRounds then .round i else .quit }

/-- The next message. -/
def send (c : RpsClient ν) (clo : U32) : Option (RPSMsg ν × RpsClient ν) :=
  match c.place with
  | .signup =>
    let msg := { c.msg with action := RPSAction.signup.code, name := c.name }
    some (msg, { c with msg := msg, place := .signing })
  | .round i =>
    let msg := { c.msg with
      action := RPSAction.play.code
      playAction := getRandomU32 clo 2 5
      name := c.name
      opponent := c.reply.opponent }
    some (msg, { c with msg := msg, place := .playing i })
  | .quit =>
    let msg := { c.msg with action := RPSAction.quit.code, name := c.name }
    some (msg, { c with msg := msg, place := .quitting })
  | _ => none

/-- How the client goes on when its Send has returned `sent`. -/
def resume (sent : ℤ) (c : RpsClient ν) (reply : RPSMsg ν) : RpsClient ν :=
  match c.place with
  | .signing =>
    let c := { c with reply := reply }
    if sent ≠ 0 then c.atRound 0 else { c with place := .quit }
  | .playing i =>
    let c := { c with reply := reply }
    (if sent ≠ 0 then { c with results := c.results ++ [reply.playResult] } else c).atRound (i + 1)
  | .quitting => { c with reply := reply, place := .exited }
  | _ => c

end RpsClient

variable {ν : Type}

def rpsClient : Program (RpsClient ν) (RPSMsg ν) (RPSMsg ν) U32 where
  send := RpsClient.send
  resume := RpsClient.resume rpsMsgSize

abbrev Tournament (ν : Type) := Network (RPSServer ν) ℤ (RPSMsg ν) (RpsClient ν)

theorem isMove_random (clo : U32) : IsMove (getRandomU32 clo 2 5) := by
  have hlt : clo.toNat % 3 < 3 := Nat.mod_lt _ (by decide)
  have heq : getRandomU32 clo 2 5 = BitVec.ofNat 32 (clo.toNat % 3) + 2 := by
    have hmod : clo % (5 - 2) = BitVec.ofNat 32 (clo.toNat % 3) := by
      apply BitVec.eq_of_toNat_eq
      rw [BitVec.toNat_umod, BitVec.toNat_ofNat, Nat.mod_eq_of_lt (by omega : _ < 2 ^ 32)]
      rfl
    rw [getRandomU32, hmod]
  rw [heq]
  generalize clo.toNat % 3 = n at hlt
  obtain rfl | rfl | rfl : n = 0 ∨ n = 1 ∨ n = 2 := by omega
  · exact Or.inl rfl
  · exact Or.inr (Or.inl rfl)
  · exact Or.inr (Or.inr rfl)

/-- The result of the opponent. -/
def opposite (result : U32) : U32 :=
  if result = RPSPlayResult.won.code then RPSPlayResult.lost.code
  else if result = RPSPlayResult.lost.code then RPSPlayResult.won.code
  else result

/-- A result of a round that both clients played. -/
def IsScore (result : U32) : Prop :=
  result = RPSPlayResult.won.code ∨ result = RPSPlayResult.lost.code ∨
    result = RPSPlayResult.tie.code

theorem IsMove.scores {x y : U32} (hx : IsMove x) (hy : IsMove y) :
    ∃ r, rpsResults x y = some r ∧ IsScore r.1.code ∧ IsScore r.2.code ∧
      r.2.code = opposite r.1.code ∧ r.1.code = opposite r.2.code := by
  unfold IsScore
  rcases hx with rfl | rfl | rfl <;> rcases hy with rfl | rfl | rfl <;>
    exact ⟨_, rfl, by decide, by decide, by decide, by decide⟩

namespace Rps

/-! ### The places of the clients -/

/-- The client has an opponent. -/
def HasOpponent : RpsClientAt → Prop
  | .signup | .signing => False
  | _ => True

/-- The rounds of which the client knows the result. -/
def finished : RpsClientAt → ℕ
  | .signup | .signing => 0
  | .round i | .playing i => i
  | .quit | .quitting | .exited => rpsClientRounds

/-- How the place of a client agrees with the mailbox, with the clients that await a reply, and with
its entry `x` in the table of the server. -/
inductive Fits (g : RpsClient ν) (queued awaits : Prop) (x : U32) : Prop
  | signup (place : g.place = .signup) (out : ¬ queued) (idle : ¬ awaits)
      (entry : x = RPSPlayAction.absent.code)
  | signing (place : g.place = .signing) (kind : g.msg.kind = some .signup) (sent : queued)
      (idle : ¬ awaits) (entry : x = RPSPlayAction.absent.code)
  /-- It waits for an opponent. -/
  | waits (place : g.place = .signing) (out : ¬ queued) (heard : awaits)
      (entry : x = RPSPlayAction.unknown.code)
  | round {i : ℕ} (place : g.place = .round i) (lt : i < rpsClientRounds) (out : ¬ queued)
      (idle : ¬ awaits) (entry : x = RPSPlayAction.unknown.code)
  | playing {i : ℕ} (place : g.place = .playing i) (lt : i < rpsClientRounds)
      (kind : g.msg.kind = some .play) (move : IsMove g.msg.playAction)
      (opponent : g.msg.opponent = g.reply.opponent) (sent : queued) (idle : ¬ awaits)
      (entry : x = RPSPlayAction.unknown.code)
  /-- Its move is recorded. -/
  | recorded {i : ℕ} (place : g.place = .playing i) (lt : i < rpsClientRounds)
      (move : IsMove x) (opponent : g.msg.opponent = g.reply.opponent) (out : ¬ queued)
      (heard : awaits)
  | quit (place : g.place = .quit) (opponent : g.msg.opponent = g.reply.opponent)
      (out : ¬ queued) (idle : ¬ awaits) (entry : x = RPSPlayAction.unknown.code)
  | quitting (place : g.place = .quitting) (kind : g.msg.kind = some .quit)
      (opponent : g.msg.opponent = g.reply.opponent) (sent : queued) (idle : ¬ awaits)
      (entry : x = RPSPlayAction.unknown.code)
  | exited (place : g.place = .exited) (out : ¬ queued) (idle : ¬ awaits)
      (entry : x = RPSPlayAction.absent.code)

/-- The clients `c` and `d` play against each other, and they are in step. -/
structure Match (name : ℤ → ν) (s : Tournament ν) (c d : ℤ) : Prop where
  ne : c ≠ d
  opponent : (s.client c).reply.opponent = name d
  other : HasOpponent (s.client d).place
  rounds : finished (s.client c).place = finished (s.client d).place
  results : (s.client d).results = (s.client c).results.map opposite
  once : ¬ (c ∈ s.awaiting ∧ d ∈ s.awaiting)

/-- The invariant of a tournament: what the server, with the lobby `a`, and the clients know of each
other. -/
structure Consistency (name : ℤ → ν) (players : Finset ℤ) (s : Tournament ν) (a : Lobby ν) :
    Prop where
  rep : ∃ held, s.server.Rep held a
  named : ∀ c ∈ players, (s.client c).name = name c
  mail : ∀ c m, (c, m) ∈ s.mailbox → c ∈ players ∧ m = (s.client c).msg ∧ m.name = name c
  nodup : (s.mailbox.map Prod.fst).Nodup
  awaits : s.awaiting ⊆ players
  fits : ∀ i : Fin 64, (i.val : ℤ) ∈ players →
    Fits (s.client i.val) ((i.val : ℤ) ∈ s.mailbox.map Prod.fst) ((i.val : ℤ) ∈ s.awaiting)
      (a.table i)
  waits : ∀ c ∈ s.awaiting, (s.client c).place = .signing → ∃ m ∈ a.waits, m.name = name c
  waiting : ∀ m ∈ a.waits, ∃ c ∈ s.awaiting, (s.client c).place = .signing ∧ m.name = name c
  scores : ∀ c ∈ players, (s.client c).results.length = finished (s.client c).place ∧
    ∀ r ∈ (s.client c).results, IsScore r
  paired : ∀ c ∈ players, HasOpponent (s.client c).place →
    ∃ d ∈ players, Match name s c d ∧ Match name s d c

section Step

variable {whoIs : ν → ℤ} {name : ℤ → ν} {players : Finset ℤ} {s : Tournament ν} {a : Lobby ν}
  {g g' : RpsClient ν} {q q' w w' : Prop} {x x' : U32} {m : RPSMsg ν} {c d : ℤ} {clo : U32}
  {rest : List (ℤ × RPSMsg ν)} {rs : List (ℤ × RPSMsg ν)}

theorem Fits.congr (h : Fits g q w x) (hq : q ↔ q') (hw : w ↔ w') (hx : x = x') :
    Fits g q' w' x' := by
  obtain rfl := propext hq
  obtain rfl := propext hw
  obtain rfl := hx
  exact h

/-! ### A client sends -/

/-- What the other clients and the server know of a client is the same. -/
structure Alike (g g' : RpsClient ν) : Prop where
  name : g'.name = g.name
  reply : g'.reply.opponent = g.reply.opponent
  results : g'.results = g.results
  opponent : HasOpponent g'.place ↔ HasOpponent g.place
  rounds : finished g'.place = finished g.place

theorem Alike.of_eq (h : g' = g) : Alike g g' := by
  subst h
  exact ⟨rfl, rfl, rfl, Iff.rfl, rfl⟩

theorem Fits.send (h : Fits g q w x) (hs : rpsClient.send g clo = some (m, g')) :
    ¬ q ∧ ¬ w ∧ Alike g g' ∧ g'.msg = m ∧ m.name = g.name ∧ Fits g' True False x := by
  change RpsClient.send g clo = _ at hs
  unfold RpsClient.send at hs
  cases h with
  | signup place out idle entry =>
    rw [place] at hs
    cases hs
    exact ⟨out, idle, ⟨rfl, rfl, rfl, by rw [place]; rfl, by rw [place]; rfl⟩, rfl, rfl,
      .signing rfl rfl trivial id entry⟩
  | round place lt out idle entry =>
    rw [place] at hs
    cases hs
    exact ⟨out, idle, ⟨rfl, rfl, rfl, by rw [place]; rfl, by rw [place]; rfl⟩, rfl, rfl,
      .playing rfl lt rfl (isMove_random clo) rfl trivial id entry⟩
  | quit place opponent out idle entry =>
    rw [place] at hs
    cases hs
    exact ⟨out, idle, ⟨rfl, rfl, rfl, by rw [place]; rfl, by rw [place]; rfl⟩, rfl, rfl,
      .quitting rfl rfl opponent trivial id entry⟩
  | signing place => simp [place] at hs
  | waits place => simp [place] at hs
  | playing place => simp [place] at hs
  | recorded place => simp [place] at hs
  | quitting place => simp [place] at hs
  | exited place => simp [place] at hs

theorem Match.congr {s' : Tournament ν} (h : Match name s c d)
    (hc : Alike (s.client c) (s'.client c)) (hd : Alike (s.client d) (s'.client d))
    (honce : ¬ (c ∈ s'.awaiting ∧ d ∈ s'.awaiting)) : Match name s' c d where
  ne := h.ne
  opponent := hc.reply.trans h.opponent
  other := hd.opponent.mpr h.other
  rounds := by rw [hc.rounds, hd.rounds, h.rounds]
  results := by rw [hc.results, hd.results, h.results]
  once := honce

/-- A client of the tournament has a tid below 64. -/
theorem index_of_mem (hrange : ∀ c ∈ players, 0 ≤ c ∧ c < 64) (hc : c ∈ players) :
    ∃ i : Fin 64, c = i.val := by
  obtain ⟨h₀, hlt⟩ := hrange c hc
  exact ⟨⟨c.toNat, by omega⟩, (Int.toNat_of_nonneg h₀).symm⟩

/-- **A client that sends** keeps the tournament consistent. -/
theorem Consistency.call (hs : Consistency name players s a)
    (hrange : ∀ c ∈ players, 0 ≤ c ∧ c < 64) (hc : c ∈ players)
    (hsend : rpsClient.send (s.client c) clo = some (m, g)) :
    Consistency name players
      { s with client := Function.update s.client c g, mailbox := s.mailbox ++ [(c, m)] } a := by
  obtain ⟨i, rfl⟩ := index_of_mem hrange hc
  obtain ⟨out, idle, alike, hmsg, hname, hfits⟩ := (hs.fits i hc).send hsend
  have hall : ∀ e, Alike (s.client e) (Function.update s.client (i.val : ℤ) g e) := by
    intro e
    by_cases he : e = i.val
    · rw [he, Function.update_self]
      exact alike
    · rw [Function.update_of_ne he]
      exact .of_eq rfl
  have hawaits : ∀ e ∈ s.awaiting, e ≠ i.val := by
    rintro e he rfl
    exact idle he
  refine ⟨hs.rep, fun e he => ?_, fun e m' he => ?_, ?_, hs.awaits, fun j hj => ?_,
    fun e he hplace => ?_, fun m' hm' => ?_, fun e he => ?_, fun e he hopp => ?_⟩
  · rw [(hall e).name]
    exact hs.named e he
  · rcases List.mem_append.mp he with he | he
    · obtain ⟨hp, hm, hn⟩ := hs.mail e m' he
      have hne : e ≠ i.val := by
        rintro rfl
        exact out (List.mem_map_of_mem he)
      exact ⟨hp, by simpa [Function.update_of_ne hne] using hm, hn⟩
    · obtain ⟨rfl, rfl⟩ := Prod.mk.inj (List.mem_singleton.mp he)
      exact ⟨hc, by simpa using hmsg.symm, by rw [hname]; exact hs.named _ hc⟩
  · rw [List.map_append, List.nodup_append]
    refine ⟨hs.nodup, List.nodup_singleton _, fun e he f hf hef => ?_⟩
    rw [hef, List.mem_singleton.mp hf] at he
    exact out he
  · by_cases hji : j = i
    · subst hji
      dsimp only
      rw [Function.update_self]
      exact hfits.congr (by simp) (by simpa using idle) rfl
    · have hne := (natCast_ne hji).symm
      dsimp only
      rw [Function.update_of_ne hne]
      exact (hs.fits j hj).congr (by simp [hji, Fin.val_inj]) Iff.rfl rfl
  · have hne := hawaits e he
    simp only [Function.update_of_ne hne] at hplace
    exact hs.waits e he hplace
  · obtain ⟨e, he, hplace, hn⟩ := hs.waiting m' hm'
    refine ⟨e, he, ?_, hn⟩
    dsimp only
    rw [Function.update_of_ne (hawaits e he)]
    exact hplace
  · rw [(hall e).results, (hall e).rounds]
    exact hs.scores e he
  · obtain ⟨d, hd, hcd, hdc⟩ := hs.paired e he ((hall e).opponent.mp hopp)
    exact ⟨d, hd, hcd.congr (hall e) (hall d) hcd.once, hdc.congr (hall d) (hall e) hdc.once⟩

/-! ### The server handles a message -/

/-- The replies to two clients. -/
theorem two_replies {b b' : RPSAnswer ν} (h : rs.map rpsAnswer = [b, b']) :
    ∃ r r', rs = [(b.tid, r), (b'.tid, r')] ∧ r.opponent = b.opponent ∧
      r'.opponent = b'.opponent ∧ r.playResult = b.playResult ∧ r'.playResult = b'.playResult := by
  match rs, h with
  | [(c, r), (d, r')], h =>
    simp only [List.map_cons, List.map_nil, List.cons.injEq, and_true] at h
    obtain ⟨rfl, rfl⟩ := h
    exact ⟨r, r', rfl, rfl, rfl, rfl, rfl⟩

theorem one_reply {b : RPSAnswer ν} (h : rs.map rpsAnswer = [b]) :
    ∃ r, rs = [(b.tid, r)] ∧ r.opponent = b.opponent := by
  match rs, h with
  | [(c, r)], h =>
    simp only [List.map_cons, List.map_nil, List.cons.injEq, and_true] at h
    subst h
    exact ⟨r, rfl, rfl⟩

/-- What the server does with a message is what the lobby does. -/
theorem Consistency.handled (hs : Consistency name players s a) {a' : Lobby ν}
    {answers : List (RPSAnswer ν)} (hstep : a.step whoIs c m = .ok (a', answers)) :
    ∃ server rs, rpsServer whoIs s.server c m = .ok (server, rs) ∧ (∃ held, server.Rep held a') ∧
      rs.map rpsAnswer = answers := by
  obtain ⟨held, hrep⟩ := hs.rep
  obtain ⟨held', server, rs, hok, hrep', hans⟩ := hrep.step hstep
  exact ⟨server, rs, hok, ⟨held', hrep'⟩, hans⟩

theorem queued_rest (first : s.mailbox = (c, m) :: rest) {e : ℤ} (he : e ≠ c) :
    e ∈ s.mailbox.map Prod.fst ↔ e ∈ rest.map Prod.fst := by
  rw [first, List.map_cons, List.mem_cons, or_iff_right he]

section Serve

variable (hs : Consistency name players s a) (first : s.mailbox = (c, m) :: rest)
include hs first

theorem Consistency.head_mem : c ∈ players ∧ m = (s.client c).msg ∧ m.name = name c :=
  hs.mail c m (by rw [first]; exact List.mem_cons_self)

theorem Consistency.head_notMem_rest : c ∉ rest.map Prod.fst := by
  have hnd := hs.nodup
  rw [first, List.map_cons, List.nodup_cons] at hnd
  exact hnd.1

theorem Consistency.mail_rest {e : ℤ} {m' : RPSMsg ν} (he : (e, m') ∈ rest) :
    e ≠ c ∧ e ∈ players ∧ m' = (s.client e).msg ∧ m'.name = name e := by
  refine ⟨?_, hs.mail e m' (by rw [first]; exact List.mem_cons_of_mem _ he)⟩
  rintro rfl
  exact hs.head_notMem_rest first (List.mem_map_of_mem he)

theorem Consistency.nodup_rest : (rest.map Prod.fst).Nodup := by
  have hnd := hs.nodup
  rw [first, List.map_cons] at hnd
  exact hnd.of_cons

/-- The messages that are left, when the clients that sent them are unchanged. -/
theorem Consistency.mail_served {client : ℤ → RpsClient ν}
    (hsame : ∀ e ∈ rest.map Prod.fst, client e = s.client e) (e : ℤ) (m' : RPSMsg ν)
    (he : (e, m') ∈ rest) : e ∈ players ∧ m' = (client e).msg ∧ m'.name = name e := by
  obtain ⟨-, hp, hm, hn⟩ := hs.mail_rest first he
  exact ⟨hp, by rw [hsame e (List.mem_map_of_mem he)]; exact hm, hn⟩

end Serve

/-- The opponents of two clients are known by their names. -/
theorem Match.unique (hname : ∀ c ∈ players, whoIs (name c) = c) {e : ℤ}
    (h : Match name s c d) (h' : Match name s c e) (hd : d ∈ players) (he : e ∈ players) :
    d = e := by
  rw [← hname d hd, ← h.opponent, h'.opponent, hname e he]

/-- A client whose message is heard and not answered. -/
theorem Consistency.heard (hs : Consistency name players s a)
    (first : s.mailbox = (c, m) :: rest) {i : Fin 64} (hi : c = i.val) {server : RPSServer ν}
    {a' : Lobby ν} (hrep : ∃ held, server.Rep held a')
    (hfits : Fits (s.client c) False True x) (htable : a'.table = Function.update a.table i x)
    (hwaits : ∀ e ∈ insert c s.awaiting, (s.client e).place = .signing →
      ∃ m ∈ a'.waits, m.name = name e)
    (hwaiting : ∀ m ∈ a'.waits, ∃ e ∈ insert c s.awaiting,
      (s.client e).place = .signing ∧ m.name = name e)
    (honce : ∀ d, d ∈ players → Match name s c d → Match name s d c → d ∉ s.awaiting) :
    Consistency name players ⟨server, s.client, rest, insert c s.awaiting⟩ a' := by
  obtain ⟨hc, -, -⟩ := hs.head_mem first
  have hrest := hs.head_notMem_rest first
  refine ⟨hrep, hs.named, hs.mail_served first fun _ _ => rfl, hs.nodup_rest first,
    Finset.insert_subset hc hs.awaits, fun j hj => ?_, hwaits, hwaiting, hs.scores,
    fun e he hopp => ?_⟩
  · by_cases hji : j = i
    · subst hji
      rw [htable, Function.update_self, ← hi]
      exact hfits.congr (by simpa using hrest) (by simp) rfl
    · have hne : (j.val : ℤ) ≠ c := hi ▸ (natCast_ne hji).symm
      refine (hs.fits j hj).congr (queued_rest first hne) ?_ ?_
      · simp [hne]
      · rw [htable, Function.update_of_ne hji]
  · obtain ⟨d, hd, hed, hde⟩ := hs.paired e he hopp
    have hno : ¬ (e ∈ insert c s.awaiting ∧ d ∈ insert c s.awaiting) := by
      rintro ⟨hin, hin'⟩
      rcases Finset.mem_insert.mp hin with rfl | he'
      · rcases Finset.mem_insert.mp hin' with rfl | hd'
        · exact hed.ne rfl
        · exact honce d hd hed hde hd'
      · rcases Finset.mem_insert.mp hin' with rfl | hd'
        · exact honce e he hde hed he'
        · exact hed.once ⟨he', hd'⟩
    exact ⟨d, hd, hed.congr (.of_eq rfl) (.of_eq rfl) hno,
      hde.congr (.of_eq rfl) (.of_eq rfl) fun h => hno h.symm⟩

/-- A client at the head of its loop over the rounds, with its opponent. -/
structure Enters (g : RpsClient ν) (n opponent : ν) (k : ℕ) : Prop where
  le : k ≤ rpsClientRounds
  place : g.place = if k < rpsClientRounds then .round k else .quit
  name : g.name = n
  reply : g.reply.opponent = opponent
  msg : k = rpsClientRounds → g.msg.opponent = opponent
  length : g.results.length = k
  scores : ∀ r ∈ g.results, IsScore r

theorem Enters.hasOpponent {n o : ν} {k : ℕ} (h : Enters g n o k) : HasOpponent g.place := by
  rw [h.place]
  split
  · trivial
  · trivial

theorem Enters.finished_eq {n o : ν} {k : ℕ} (h : Enters g n o k) : finished g.place = k := by
  have hle := h.le
  rw [h.place]
  split
  · rfl
  · simp only [finished]
    omega

theorem Enters.fits {n o : ν} {k : ℕ} (h : Enters g n o k) :
    Fits g False False RPSPlayAction.unknown.code := by
  have hle := h.le
  by_cases hk : k < rpsClientRounds
  · exact .round (h.place.trans (if_pos hk)) hk id id rfl
  · refine .quit (h.place.trans (if_neg hk)) ?_ id id rfl
    rw [h.reply]
    exact h.msg (by omega)

/-- **Two clients are answered at once**, and both enter their next round. -/
theorem Consistency.both (hs : Consistency name players s a)
    (first : s.mailbox = (c, m) :: rest) (hidle : c ∉ s.awaiting) (hd : d ∈ s.awaiting)
    (hout : d ∉ s.mailbox.map Prod.fst) {i j : Fin 64} (hi : c = i.val) (hj : d = j.val)
    {server : RPSServer ν} {a' : Lobby ν} (hrep : ∃ held, server.Rep held a')
    {client : ℤ → RpsClient ν} (hclient : ∀ e, e ≠ c → e ≠ d → client e = s.client e) {k : ℕ}
    (hc : Enters (client c) (name c) (name d) k) (hd' : Enters (client d) (name d) (name c) k)
    (hres : (client d).results = (client c).results.map opposite)
    (hres' : (client c).results = (client d).results.map opposite)
    (htable : a'.table = Function.update (Function.update a.table i RPSPlayAction.unknown.code) j
      RPSPlayAction.unknown.code)
    (hwaits : ∀ e ∈ s.awaiting, e ≠ d → (s.client e).place = .signing →
      ∃ m ∈ a'.waits, m.name = name e)
    (hwaiting : ∀ m ∈ a'.waits, ∃ e ∈ s.awaiting, e ≠ d ∧
      (s.client e).place = .signing ∧ m.name = name e)
    (hpaired : ∀ e f, e ∈ players → Match name s e f → Match name s f e →
      e ≠ c → e ≠ d → f ≠ c ∧ f ≠ d) :
    Consistency name players ⟨server, client, rest, s.awaiting.erase d⟩ a' := by
  obtain ⟨hcp, -, -⟩ := hs.head_mem first
  have hrest := hs.head_notMem_rest first
  have hdp : d ∈ players := hs.awaits hd
  have hcd : c ≠ d := by
    rintro rfl
    exact hidle hd
  have hdrest : d ∉ rest.map Prod.fst := by
    rw [← queued_rest first hcd.symm]
    exact hout
  have hne : ∀ e ∈ s.awaiting.erase d, e ∈ s.awaiting ∧ e ≠ c ∧ e ≠ d := by
    intro e he
    obtain ⟨hed, he⟩ := Finset.mem_erase.mp he
    refine ⟨he, ?_, hed⟩
    rintro rfl
    exact hidle he
  have hcases : ∀ {p : ℤ → Prop}, p c → p d → (∀ e, e ≠ c → e ≠ d → p e) → ∀ e, p e := by
    intro p hpc hpd hp e
    by_cases hec : e = c
    · exact hec ▸ hpc
    · by_cases hed : e = d
      · exact hed ▸ hpd
      · exact hp e hec hed
  refine ⟨hrep, ?_, hs.mail_served first ?_, hs.nodup_rest first,
    (Finset.erase_subset _ _).trans hs.awaits, ?_, ?_, ?_, ?_, ?_⟩
  · refine hcases (fun _ => hc.name) (fun _ => hd'.name) fun e hec hed he => ?_
    dsimp only
    rw [hclient e hec hed]
    exact hs.named e he
  · rintro e he
    refine hclient e ?_ ?_
    · rintro rfl
      exact hrest he
    · rintro rfl
      exact hdrest he
  · intro l hl
    by_cases hlj : l = j
    · subst hlj
      rw [htable, Function.update_self, ← hj]
      exact hd'.fits.congr (by simpa using hdrest) (by simp) rfl
    · have hld : (l.val : ℤ) ≠ d := hj ▸ (natCast_ne hlj).symm
      rw [htable, Function.update_of_ne hlj]
      by_cases hli : l = i
      · subst hli
        rw [Function.update_self, ← hi]
        exact hc.fits.congr (by simpa using hrest) (by simp [hidle]) rfl
      · have hlc : (l.val : ℤ) ≠ c := hi ▸ (natCast_ne hli).symm
        dsimp only
        rw [Function.update_of_ne hli, hclient _ hlc hld]
        exact (hs.fits l hl).congr (queued_rest first hlc) (by simp [hld]) rfl
  · intro e he hplace
    obtain ⟨he, hec, hed⟩ := hne e he
    dsimp only at hplace
    rw [hclient e hec hed] at hplace
    exact hwaits e he hed hplace
  · intro m' hm'
    obtain ⟨e, he, hed, hplace, hn⟩ := hwaiting m' hm'
    have he' := Finset.mem_erase.mpr ⟨hed, he⟩
    refine ⟨e, he', ?_, hn⟩
    dsimp only
    rw [hclient e (hne e he').2.1 hed]
    exact hplace
  · refine hcases (fun _ => ?_) (fun _ => ?_) fun e hec hed he => ?_
    · exact ⟨hc.length.trans hc.finished_eq.symm, hc.scores⟩
    · exact ⟨hd'.length.trans hd'.finished_eq.symm, hd'.scores⟩
    · dsimp only
      rw [hclient e hec hed]
      exact hs.scores e he
  · have hnone : d ∉ s.awaiting.erase d := by simp
    have hmatch : Match name ⟨server, client, rest, s.awaiting.erase d⟩ c d :=
      ⟨hcd, hc.reply, hd'.hasOpponent, hc.finished_eq.trans hd'.finished_eq.symm, hres,
        fun h => hnone h.2⟩
    have hmatch' : Match name ⟨server, client, rest, s.awaiting.erase d⟩ d c :=
      ⟨hcd.symm, hd'.reply, hc.hasOpponent, hmatch.rounds.symm, hres', fun h => hnone h.1⟩
    refine hcases (fun _ _ => ⟨d, hdp, hmatch, hmatch'⟩) (fun _ _ => ⟨c, hcp, hmatch', hmatch⟩)
      fun e hec hed he hopp => ?_
    dsimp only at hopp
    rw [hclient e hec hed] at hopp
    obtain ⟨f, hf, hef, hfe⟩ := hs.paired e he hopp
    obtain ⟨hfc, hfd⟩ := hpaired e f he hef hfe hec hed
    have he' : Alike (s.client e) (client e) := .of_eq (hclient e hec hed)
    have hf' : Alike (s.client f) (client f) := .of_eq (hclient f hfc hfd)
    exact ⟨f, hf,
      hef.congr he' hf' fun h => hef.once
        ⟨Finset.mem_of_mem_erase h.1, Finset.mem_of_mem_erase h.2⟩,
      hfe.congr hf' he' fun h => hfe.once
        ⟨Finset.mem_of_mem_erase h.1, Finset.mem_of_mem_erase h.2⟩⟩

theorem Enters.of_signing {n o : ν} {r : RPSMsg ν} (place : g.place = .signing)
    (hn : g.name = n) (hr : r.opponent = o) (hlen : g.results.length = 0) :
    Enters (rpsClient.resume g r) n o 0 := by
  have hg : rpsClient.resume g r = { g with reply := r, place := .round 0 } := by
    show RpsClient.resume rpsMsgSize g r = _
    rw [RpsClient.resume, place]
    rfl
  rw [hg]
  refine ⟨by decide, rfl, hn, hr, fun h => absurd h (by decide), hlen, fun r' hr' => ?_⟩
  rw [List.eq_nil_of_length_eq_zero hlen] at hr'
  cases hr'

theorem Enters.of_playing {n o : ν} {r : RPSMsg ν} {k : ℕ} (place : g.place = .playing k)
    (hlt : k < rpsClientRounds) (hn : g.name = n) (hmsg : g.msg.opponent = o)
    (hr : r.opponent = o) (hlen : g.results.length = k) (hscores : ∀ r ∈ g.results, IsScore r)
    (hscore : IsScore r.playResult) : Enters (rpsClient.resume g r) n o (k + 1) ∧
      (rpsClient.resume g r).results = g.results ++ [r.playResult] := by
  have hg : rpsClient.resume g r =
      ({ g with reply := r, results := g.results ++ [r.playResult] } : RpsClient ν).atRound
        (k + 1) := by
    show RpsClient.resume rpsMsgSize g r = _
    rw [RpsClient.resume, place]
    rfl
  rw [hg]
  refine ⟨⟨hlt, rfl, hn, hr, fun _ => hmsg, ?_, fun r' hr' => ?_⟩, rfl⟩
  · show (g.results ++ [r.playResult]).length = k + 1
    simp [hlen]
  · rcases List.mem_append.mp hr' with hr' | hr'
    · exact hscores r' hr'
    · rw [List.mem_singleton.mp hr']
      exact hscore

end Step

end Rps

end RealtimeKernel
