import RealtimeKernel.RpsServer

/-!
# Players whose opponent quits

A move is recorded while its `PLAY` is unanswered, and no unanswered `PLAY` is against a client
that has quit.  The server keeps to this as long as moves are `ROCK`, `PAPER` or `SCISSORS`, nobody
plays against itself or against a client that is not there, and nobody quits against whom a move is
recorded: `PLAY` records whatever it is sent before it looks for the opponent, leaves it there when
it answers `NO_OPPONENT`, and answers both players also when they are the same; and `QUIT` does not
look whether anybody waits for the client.
-/

namespace RealtimeKernel

open Lib

abbrev RPSExchange (ν : Type) := Exchange ℤ (RPSMsg ν) (RPSMsg ν)

/-- `ROCK`, `PAPER` or `SCISSORS`. -/
def IsMove (code : U32) : Prop :=
  code = RPSPlayAction.rock.code ∨ code = RPSPlayAction.paper.code ∨
    code = RPSPlayAction.scissors.code

instance (code : U32) : Decidable (IsMove code) := inferInstanceAs (Decidable (_ ∨ _))

theorem IsMove.ne_absent {x : U32} (h : IsMove x) : x ≠ RPSPlayAction.absent.code := by
  rcases h with rfl | rfl | rfl <;> decide

theorem IsMove.ne_unknown {x : U32} (h : IsMove x) : x ≠ RPSPlayAction.unknown.code := by
  rcases h with rfl | rfl | rfl <;> decide

/-- Two moves are always scored. -/
theorem IsMove.results {x y : U32} (hx : IsMove x) (hy : IsMove y) :
    ∃ r, rpsResults x y = some r := by
  rcases hx with rfl | rfl | rfl <;> rcases hy with rfl | rfl | rfl <;> exact ⟨_, rfl⟩

namespace Rps

variable {ν : Type}

/-! ### Clients -/

/-- The client has sent a message, and the last one is not `QUIT`. -/
def present (h : List (RPSExchange ν)) (c : ℤ) : Bool :=
  (lastMessage h c).any fun m => decide (m.kind ≠ some .quit)

/-- The unanswered `PLAY` of a client. -/
def unansweredPlay (h : List (RPSExchange ν)) (c : ℤ) : Option (RPSMsg ν) :=
  (unanswered h c).filter fun m => decide (m.kind = some .play)

/-- What the clients send: a client waits for its reply, it is known by its name to the name
server and has a tid below 64, and it plays against a name of that kind. -/
structure Legal (whoIs : ν → ℤ) (p : List (RPSExchange ν)) (e : RPSExchange ν) : Prop where
  patient : Patient p e
  client : ∃ i : Fin 64, e.sender = i.val
  name : whoIs e.message.name = e.sender
  action : ∃ k, e.message.kind = some k
  opponent : e.message.kind = some .play → ∃ j : Fin 64, whoIs e.message.opponent = j.val

/-- Besides, what a client plays is a move. -/
structure Moves (whoIs : ν → ℤ) (p : List (RPSExchange ν)) (e : RPSExchange ν) : Prop
    extends Legal whoIs p e where
  move : e.message.kind = some .play → IsMove e.message.playAction

/-- What is played is a move, nobody plays against itself or against a client that is not there,
and nobody quits against whom a `PLAY` is unanswered. -/
structure Careful (whoIs : ν → ℤ) (p : List (RPSExchange ν)) (e : RPSExchange ν) : Prop where
  move : e.message.kind = some .play → IsMove e.message.playAction
  other : e.message.kind = some .play → whoIs e.message.opponent ≠ e.sender
  play : e.message.kind = some .play → present p (whoIs e.message.opponent) = true
  quit : e.message.kind = some .quit →
    ∀ c m, unansweredPlay p c = some m → whoIs m.opponent ≠ e.sender

/-- A client has a move recorded if and only if it has an unanswered `PLAY`, and no client has
one whose opponent is `ABSENT`. -/
structure Consistent (whoIs : ν → ℤ) (h : List (RPSExchange ν)) (table : Fin 64 → U32) :
    Prop where
  recorded : ∀ i : Fin 64, IsMove (table i) ↔ ∃ m, unansweredPlay h i.val = some m
  opponent : ∀ c m, ∀ j : Fin 64, unansweredPlay h c = some m → whoIs m.opponent = j.val →
    table j ≠ RPSPlayAction.absent.code

/-- Replies go once to clients that wait for one, a `PLAY` whose opponent is not there, or quits
afterwards, is answered `NO_OPPONENT`, and a `PLAY` is scored only against a move of an unanswered
`PLAY`. -/
structure Settled (whoIs : ν → ℤ) (p : List (RPSExchange ν)) (e : RPSExchange ν) : Prop where
  once : (e.replies.map Prod.fst).Nodup
  owed : ∀ c ∈ e.replies.map Prod.fst, c = e.sender ∨ ∃ m, unanswered p c = some m
  absent : e.message.kind = some .play → whoIs e.message.opponent ≠ e.sender →
    present p (whoIs e.message.opponent) = false → e.replies.map rpsAnswer =
      [⟨e.sender, e.message.name, e.message.opponent, RPSPlayResult.noOpponent.code⟩]
  quit : e.message.kind = some .quit → ∀ c m, unansweredPlay p c = some m →
    whoIs m.opponent = e.sender →
      ⟨c, m.name, m.opponent, RPSPlayResult.noOpponent.code⟩ ∈ e.replies.map rpsAnswer
  scored : e.message.kind = some .play → whoIs e.message.opponent ≠ e.sender →
    present p (whoIs e.message.opponent) = true →
      (unansweredPlay p (whoIs e.message.opponent) = none ∧ e.replies = []) ∨
      ∃ m r, unansweredPlay p (whoIs e.message.opponent) = some m ∧
        rpsResults e.message.playAction m.playAction = some r ∧ e.replies.map rpsAnswer =
          [⟨e.sender, e.message.name, e.message.opponent, r.1.code⟩,
            ⟨whoIs e.message.opponent, e.message.opponent, e.message.name, r.2.code⟩]

/-- In every state that the run passes through the table is consistent, and every message is
answered as it should be. -/
structure Unconfused (whoIs : ν → ℤ) (zero msg₀ : RPSMsg ν) (h : List (RPSExchange ν)) : Prop where
  states : ∀ p q s, h = p ++ q → Serves (rpsServer whoIs) (rpsServerInit zero msg₀) p s →
    Consistent whoIs p s.playActions
  answers : Stepwise (Settled whoIs) h

/-! ### One more exchange -/

variable {whoIs : ν → ℤ} {h p : List (RPSExchange ν)} {e : RPSExchange ν} {c : ℤ}
  {a a' : Lobby ν} {m : RPSMsg ν} {i j : Fin 64} {answers : List (RPSAnswer ν)}

theorem present_snoc : present (p ++ [e]) c =
    if e.sender = c then decide (e.message.kind ≠ some .quit) else present p c := by
  unfold present
  rw [lastMessage_snoc]
  split <;> rfl

theorem unansweredPlay_snoc : unansweredPlay (p ++ [e]) c =
    if c ∈ e.replies.map Prod.fst then none
    else if e.sender = c then
      (if e.message.kind = some .play then some e.message else none)
    else unansweredPlay p c := by
  unfold unansweredPlay
  rw [unanswered_snoc]
  split
  · rfl
  · split
    · by_cases hk : e.message.kind = some .play
      · simp [Option.filter, hk]
      · simp [Option.filter, hk]
    · rfl

theorem unansweredPlay_eq_some : unansweredPlay h c = some m ↔
    unanswered h c = some m ∧ m.kind = some .play := by
  unfold unansweredPlay
  rw [Option.filter_eq_some_iff, decide_eq_true_eq]

/-- The replies go to the tids of the answers. -/
theorem map_fst_replies (hans : e.replies.map rpsAnswer = answers) :
    e.replies.map Prod.fst = answers.map RPSAnswer.tid := by
  rw [← hans, List.map_map]
  rfl

theorem unanswered_sender (hp : Patient p e) : unanswered p e.sender = none := if_neg hp

theorem unansweredPlay_sender (hp : Patient p e) : unansweredPlay p e.sender = none := by
  rw [unansweredPlay, unanswered_sender hp]
  rfl

/-- An unanswered `PLAY` was sent as clients send them. -/
theorem moves_of_unansweredPlay (hl : Stepwise (Moves whoIs) h)
    (hm : unansweredPlay h c = some m) :
    IsMove m.playAction ∧ whoIs m.name = c ∧ (∃ i : Fin 64, c = i.val) ∧
      ∃ j : Fin 64, whoIs m.opponent = j.val := by
  obtain ⟨hm, hk⟩ := unansweredPlay_eq_some.mp hm
  obtain ⟨p, e, q, hpq, rfl, rfl⟩ := exists_of_lastMessage (lastMessage_of_unanswered hm)
  have hle := hl p e q hpq
  exact ⟨hle.move hk, hle.name, hle.client, hle.opponent hk⟩

/-! ### What the table holds -/

/-- What an entry can be: `ABSENT` for a client that is not there, and no other. -/
def Entry (there : Bool) (x : U32) : Prop :=
  (x = RPSPlayAction.absent.code ∧ there = false) ∨
    ((x = RPSPlayAction.unknown.code ∨ IsMove x) ∧ there = true)

theorem Entry.absent_iff {there : Bool} {x : U32} (h : Entry there x) :
    x = RPSPlayAction.absent.code ↔ there = false := by
  rcases h with ⟨rfl, rfl⟩ | ⟨rfl | hm, rfl⟩
  · simp
  · exact iff_of_false (by decide) (by decide)
  · exact iff_of_false hm.ne_absent (by decide)

theorem entry_unknown : Entry true RPSPlayAction.unknown.code := Or.inr ⟨Or.inl rfl, rfl⟩

/-- Every client has an entry, and the client in the queue waits for the answer to its
`SIGNUP`. -/
structure Tracks (whoIs : ν → ℤ) (h : List (RPSExchange ν)) (a : Lobby ν) : Prop where
  entry : ∀ i : Fin 64, Entry (present h i.val) (a.table i)
  waits : ∀ m ∈ a.waits, ∃ m', unanswered h (whoIs m.name) = some m' ∧ m'.kind = some .signup
  unknown : ∀ m ∈ a.waits, ∀ i : Fin 64, whoIs m.name = i.val →
    a.table i = RPSPlayAction.unknown.code

/-- The moves in the table are those of the unanswered `PLAY`s, and their opponents are there. -/
structure Scores (whoIs : ν → ℤ) (h : List (RPSExchange ν)) (a : Lobby ν) : Prop where
  recorded : ∀ i : Fin 64, IsMove (a.table i) → ∃ m, unansweredPlay h i.val = some m
  move : ∀ (i : Fin 64) m, unansweredPlay h i.val = some m → a.table i = m.playAction
  opponent : ∀ c m, unansweredPlay h c = some m → present h (whoIs m.opponent) = true

theorem tracks_nil : Tracks whoIs [] ⟨none, fun _ => RPSPlayAction.absent.code⟩ where
  entry := fun _ => Or.inl ⟨rfl, rfl⟩
  waits := by simp
  unknown := by simp

theorem scores_nil : Scores whoIs [] ⟨none, fun _ => RPSPlayAction.absent.code⟩ where
  recorded := fun _ hm => absurd rfl hm.ne_absent
  move := fun _ _ hm => by cases hm
  opponent := fun _ _ hm => by cases hm

theorem step_signup (hk : m.kind = some .signup) (hi : whoIs m.name = i.val) :
    a.step whoIs c m = .ok (a.signup whoIs m i) := by
  simp only [Lobby.step, hk, hi, playIndex_natCast]
  rfl

theorem step_play (hk : m.kind = some .play) (hi : whoIs m.name = i.val)
    (hj : whoIs m.opponent = j.val) : a.step whoIs c m = .ok (a.play m i j) := by
  simp only [Lobby.step, hk, hi, hj, playIndex_natCast]
  rfl

theorem step_quit (hk : m.kind = some .quit) (hi : c = i.val) :
    a.step whoIs c m = .ok (a.quit m i) := by
  simp only [Lobby.step, hk, hi, playIndex_natCast]
  rfl

/-- The three kinds of messages, with the indices they use. -/
theorem Moves.cases (hl : Moves whoIs p e) :
    ∃ i : Fin 64, e.sender = i.val ∧ whoIs e.message.name = i.val ∧
      (e.message.kind = some .signup ∨
        (∃ j : Fin 64, e.message.kind = some .play ∧ whoIs e.message.opponent = j.val ∧
          IsMove e.message.playAction) ∨
        e.message.kind = some .quit) := by
  obtain ⟨i, hi⟩ := hl.client
  refine ⟨i, hi, hl.name.trans hi, ?_⟩
  obtain ⟨k, hk⟩ := hl.action
  cases k with
  | signup => exact Or.inl hk
  | play =>
    obtain ⟨j, hj⟩ := hl.opponent hk
    exact Or.inr (Or.inl ⟨j, hk, hj, hl.move hk⟩)
  | quit => exact Or.inr (Or.inr hk)

/-- The message has an effect on the lobby. -/
theorem Moves.step (hl : Moves whoIs p e) (a : Lobby ν) :
    ∃ r, a.step whoIs e.sender e.message = .ok r := by
  obtain ⟨i, hi, hname, hk | ⟨j, hk, hj, -⟩ | hk⟩ := hl.cases
  · exact ⟨_, step_signup hk hname⟩
  · exact ⟨_, step_play hk hname hj⟩
  · exact ⟨_, step_quit hk hi⟩

theorem signup_table : (a.signup whoIs m i).1.table =
    Function.update a.table i RPSPlayAction.unknown.code := by
  unfold Lobby.signup
  cases a.waits <;> rfl

/-- The outcomes of a `PLAY`: refused, recorded or scored. -/
theorem Tracks.play_cases (ht : Tracks whoIs p a) (hm : IsMove m.playAction) :
    (j ≠ i ∧ a.table j = RPSPlayAction.absent.code ∧
      a.play m i j = (⟨a.waits, Function.update a.table i m.playAction⟩,
        [⟨i.val, m.name, m.opponent, RPSPlayResult.noOpponent.code⟩])) ∨
    (j ≠ i ∧ a.table j = RPSPlayAction.unknown.code ∧
      a.play m i j = (⟨a.waits, Function.update a.table i m.playAction⟩, [])) ∨
    ∃ x r, IsMove x ∧ x = (if j = i then m.playAction else a.table j) ∧
      rpsResults m.playAction x = some r ∧
      a.play m i j = (⟨a.waits, Function.update (Function.update a.table i
          RPSPlayAction.unknown.code) j RPSPlayAction.unknown.code⟩,
        [⟨i.val, m.name, m.opponent, r.1.code⟩, ⟨j.val, m.opponent, m.name, r.2.code⟩]) := by
  have hscore : IsMove (if j = i then m.playAction else a.table j) →
      ∃ x r, IsMove x ∧ x = (if j = i then m.playAction else a.table j) ∧
        rpsResults m.playAction x = some r ∧
        a.play m i j = (⟨a.waits, Function.update (Function.update a.table i
            RPSPlayAction.unknown.code) j RPSPlayAction.unknown.code⟩,
          [⟨i.val, m.name, m.opponent, r.1.code⟩, ⟨j.val, m.opponent, m.name, r.2.code⟩]) := by
    intro hx
    obtain ⟨r, hr⟩ := hm.results hx
    refine ⟨_, r, hx, rfl, hr, ?_⟩
    exact Lobby.play_scored (Function.update_apply _ _ _ _) hx.ne_absent hx.ne_unknown hr
  by_cases hji : j = i
  · exact Or.inr (Or.inr (hscore (by rwa [if_pos hji])))
  · have hj : Function.update a.table i m.playAction j = a.table j :=
      Function.update_of_ne hji _ _
    rcases ht.entry j with ⟨hx, -⟩ | ⟨hx | hx, -⟩
    · exact Or.inl ⟨hji, hx, Lobby.play_absent (hj.trans hx)⟩
    · exact Or.inr (Or.inl ⟨hji, hx, Lobby.play_unknown (hj.trans hx)⟩)
    · exact Or.inr (Or.inr (hscore (by rwa [if_neg hji])))

/-! ### One step of the table -/

theorem present_sender (hi : e.sender = i.val) :
    present (p ++ [e]) i.val = decide (e.message.kind ≠ some .quit) := by
  rw [present_snoc, if_pos hi]

theorem present_of_ne (hi : e.sender = i.val) (hji : j ≠ i) :
    present (p ++ [e]) j.val = present p j.val := by
  have hne : e.sender ≠ (j.val : ℤ) := by
    rw [hi]
    intro heq
    exact hji (Fin.ext (Int.ofNat.inj heq)).symm
  rw [present_snoc, if_neg hne]

theorem entry_update {there there' : Fin 64 → Bool} {table : Fin 64 → U32}
    (h : ∀ k, Entry (there k) (table k)) (i : Fin 64) {x : U32} (hx : Entry (there' i) x)
    (hsame : ∀ k, k ≠ i → there' k = there k) :
    ∀ k, Entry (there' k) (Function.update table i x k) := by
  intro k
  by_cases hki : k = i
  · subst hki
    rwa [Function.update_self]
  · rw [Function.update_of_ne hki, hsame k hki]
    exact h k

/-- The client in the queue goes on waiting as long as it gets no reply. -/
theorem Tracks.waits_snoc (ht : Tracks whoIs p a) (hpat : Patient p e)
    (hrep : ∀ m ∈ a.waits, whoIs m.name ∉ e.replies.map Prod.fst) :
    ∀ m ∈ a.waits, ∃ m', unanswered (p ++ [e]) (whoIs m.name) = some m' ∧
      m'.kind = some .signup := by
  intro m hm
  obtain ⟨m', hm', hk⟩ := ht.waits m hm
  have hne : e.sender ≠ whoIs m.name := by
    intro heq
    rw [← heq, unanswered_sender hpat] at hm'
    cases hm'
  refine ⟨m', ?_, hk⟩
  rw [unanswered_snoc, if_neg (hrep m hm), if_neg hne, hm']

/-- It is not the sender, and it has no move. -/
theorem Tracks.waits_ne (ht : Tracks whoIs p a) (hpat : Patient p e) (hm : m ∈ a.waits) :
    whoIs m.name ≠ e.sender := by
  intro heq
  obtain ⟨m', hm', -⟩ := ht.waits m hm
  rw [heq, unanswered_sender hpat] at hm'
  cases hm'

theorem Tracks.waits_noPlay (ht : Tracks whoIs p a) (hm : m ∈ a.waits) :
    unansweredPlay p (whoIs m.name) = none := by
  obtain ⟨m', hm', hk⟩ := ht.waits m hm
  rw [unansweredPlay, hm']
  simp [Option.filter, hk]

theorem Tracks.signup (ht : Tracks whoIs p a) (hi : e.sender = i.val)
    (hname : whoIs e.message.name = i.val) (hk : e.message.kind = some .signup)
    (hans : e.replies.map rpsAnswer = (a.signup whoIs e.message i).2) :
    Tracks whoIs (p ++ [e]) (a.signup whoIs e.message i).1 := by
  have hfst := map_fst_replies hans
  refine ⟨?_, ?_, ?_⟩
  · rw [signup_table]
    refine entry_update ht.entry i ?_ fun k hki => present_of_ne hi hki
    have hthere : present (p ++ [e]) i.val = true := by
      rw [present_sender hi, hk]
      rfl
    rw [hthere]
    exact entry_unknown
  · intro m hm
    unfold Lobby.signup at hm hfst
    cases hw : a.waits with
    | none =>
      rw [hw] at hm hfst
      obtain rfl := Option.some.inj hm
      refine ⟨e.message, ?_, hk⟩
      have hsend : e.sender = whoIs e.message.name := hi.trans hname.symm
      rw [unanswered_snoc, hfst, if_neg (by simp), if_pos hsend]
    | some m₁ =>
      rw [hw] at hm
      cases hm
  · intro m hm k hk'
    rw [signup_table]
    unfold Lobby.signup at hm
    cases hw : a.waits with
    | none =>
      rw [hw] at hm
      obtain rfl := Option.some.inj hm
      obtain rfl : i = k := Fin.ext (Int.ofNat.inj (hname.symm.trans hk'))
      exact Function.update_self _ _ _
    | some m₁ =>
      rw [hw] at hm
      cases hm

theorem Tracks.play (ht : Tracks whoIs p a) (hpat : Patient p e) (hi : e.sender = i.val)
    (hk : e.message.kind = some .play) (hmove : IsMove e.message.playAction)
    (hans : e.replies.map rpsAnswer = (a.play e.message i j).2) :
    Tracks whoIs (p ++ [e]) (a.play e.message i j).1 := by
  have hfst := map_fst_replies hans
  have hthere : present (p ++ [e]) i.val = true := by
    rw [present_sender hi, hk]
    rfl
  have hupdate : ∀ x, Entry true x → ∀ k : Fin 64,
      Entry (present (p ++ [e]) k.val) (Function.update a.table i x k) := by
    intro x hx
    refine entry_update ht.entry i ?_ fun k hki => present_of_ne hi hki
    rwa [hthere]
  have hother : ∀ m ∈ a.waits, ∀ k : Fin 64, whoIs m.name = k.val → k ≠ i := by
    rintro m hm k hk' rfl
    exact ht.waits_ne hpat hm (hk'.trans hi.symm)
  rcases ht.play_cases (i := i) (j := j) hmove with
    ⟨hji, hx, hplay⟩ | ⟨hji, hx, hplay⟩ | ⟨x, r, hx, hxj, hr, hplay⟩
  · rw [hplay] at hfst ⊢
    refine ⟨hupdate _ (Or.inr ⟨Or.inr hmove, rfl⟩), ht.waits_snoc hpat fun m hm => ?_, ?_⟩
    · rw [hfst]
      have := ht.waits_ne hpat hm
      simpa [hi] using this
    · intro m hm k hk'
      show Function.update a.table i _ k = _
      rw [Function.update_of_ne (hother m hm k hk')]
      exact ht.unknown m hm k hk'
  · rw [hplay] at hfst ⊢
    refine ⟨hupdate _ (Or.inr ⟨Or.inr hmove, rfl⟩), ht.waits_snoc hpat fun m hm => ?_, ?_⟩
    · rw [hfst]
      simp
    · intro m hm k hk'
      show Function.update a.table i _ k = _
      rw [Function.update_of_ne (hother m hm k hk')]
      exact ht.unknown m hm k hk'
  · rw [hplay] at hfst ⊢
    -- the client whose move is scored is there, and it is not the one in the queue
    have hj : present (p ++ [e]) j.val = true := by
      by_cases hji : j = i
      · rwa [hji]
      · rw [present_of_ne hi hji]
        rw [if_neg hji] at hxj
        rcases ht.entry j with ⟨hx', -⟩ | ⟨-, hthere'⟩
        · exact absurd (hxj.trans hx') hx.ne_absent
        · exact hthere'
    refine ⟨?_, ht.waits_snoc hpat fun m hm => ?_, ?_⟩
    · refine entry_update (hupdate _ entry_unknown) j ?_ fun _ _ => rfl
      rw [hj]
      exact entry_unknown
    · rw [hfst]
      have hne := ht.waits_ne hpat hm
      rw [hi] at hne
      refine List.not_mem_cons_of_ne_of_not_mem hne ?_
      refine List.not_mem_cons_of_ne_of_not_mem ?_ List.not_mem_nil
      intro heq
      have hji := hother m hm j heq
      rw [if_neg hji, ht.unknown m hm j heq] at hxj
      exact hx.ne_unknown hxj
    · intro m hm k hk'
      by_cases hkj : k = j
      · subst hkj
        exact Function.update_self _ _ _
      · show Function.update (Function.update a.table i _) j _ k = _
        rw [Function.update_of_ne hkj, Function.update_of_ne (hother m hm k hk')]
        exact ht.unknown m hm k hk'

theorem Tracks.quit (ht : Tracks whoIs p a) (hpat : Patient p e) (hi : e.sender = i.val)
    (hk : e.message.kind = some .quit)
    (hans : e.replies.map rpsAnswer = (a.quit e.message i).2) :
    Tracks whoIs (p ++ [e]) (a.quit e.message i).1 := by
  have hfst := map_fst_replies hans
  refine ⟨?_, ht.waits_snoc hpat fun m hm => ?_, ?_⟩
  · refine entry_update ht.entry i ?_ fun k hki => present_of_ne hi hki
    refine Or.inl ⟨rfl, ?_⟩
    rw [present_sender hi, hk]
    rfl
  · rw [hfst]
    have := ht.waits_ne hpat hm
    simpa [Lobby.quit, hi] using this
  · intro m hm k hk'
    have hki : k ≠ i := by
      rintro rfl
      exact ht.waits_ne hpat hm (hk'.trans hi.symm)
    show Function.update a.table i _ k = _
    rw [Function.update_of_ne hki]
    exact ht.unknown m hm k hk'

/-- **Whatever the clients send, the table keeps track of them.** -/
theorem Tracks.step (ht : Tracks whoIs p a) (hl : Moves whoIs p e)
    (hstep : a.step whoIs e.sender e.message = .ok (a', e.replies.map rpsAnswer)) :
    Tracks whoIs (p ++ [e]) a' := by
  obtain ⟨i, hi, hname, hk | ⟨j, hk, hj, hmove⟩ | hk⟩ := hl.cases
  · rw [step_signup hk hname] at hstep
    have heq := Except.ok.inj hstep
    have := ht.signup hi hname hk (congrArg Prod.snd heq).symm
    rwa [heq] at this
  · rw [step_play hk hname hj] at hstep
    have heq := Except.ok.inj hstep
    have := ht.play hl.patient hi hk hmove (congrArg Prod.snd heq).symm
    rwa [heq] at this
  · rw [step_quit hk hi] at hstep
    have heq := Except.ok.inj hstep
    have := ht.quit hl.patient hi hk (congrArg Prod.snd heq).symm
    rwa [heq] at this

/-! ### One step of the moves -/

/-- A client that is there stays there, unless it quits itself. -/
theorem present_mono (hc : present p c = true)
    (hk : e.sender = c → e.message.kind ≠ some .quit) : present (p ++ [e]) c = true := by
  rw [present_snoc]
  split
  · rename_i hsend
    exact decide_eq_true (hk hsend)
  · exact hc

theorem natCast_ne (hji : j ≠ i) : (i.val : ℤ) ≠ j.val := by
  intro heq
  exact hji (Fin.ext (Int.ofNat.inj heq)).symm

theorem Scores.signup (hs : Scores whoIs p a) (ht : Tracks whoIs p a) (hpat : Patient p e)
    (hi : e.sender = i.val) (hname : whoIs e.message.name = i.val)
    (hk : e.message.kind = some .signup)
    (hans : e.replies.map rpsAnswer = (a.signup whoIs e.message i).2) :
    Scores whoIs (p ++ [e]) (a.signup whoIs e.message i).1 := by
  have hfst := map_fst_replies hans
  -- nobody has more or fewer moves than before
  have hplay : ∀ c, unansweredPlay (p ++ [e]) c = unansweredPlay p c := by
    intro c
    rw [unansweredPlay_snoc]
    split
    · rename_i hc
      rw [hfst] at hc
      unfold Lobby.signup at hc
      cases hw : a.waits with
      | none =>
        rw [hw] at hc
        cases hc
      | some m₁ =>
        rw [hw] at hc
        rcases List.mem_cons.mp hc with rfl | hc
        · exact (ht.waits_noPlay hw).symm
        · obtain rfl := List.mem_singleton.mp hc
          show none = unansweredPlay p (whoIs e.message.name)
          rw [hname, ← hi, unansweredPlay_sender hpat]
    · split
      · rename_i hsend
        rw [← hsend, unansweredPlay_sender hpat, hk]
        rfl
      · rfl
  refine ⟨?_, ?_, ?_⟩
  · intro k hm
    rw [signup_table] at hm
    rw [hplay]
    by_cases hki : k = i
    · subst hki
      rw [Function.update_self] at hm
      exact absurd rfl hm.ne_unknown
    · rw [Function.update_of_ne hki] at hm
      exact hs.recorded k hm
  · intro k m hm
    rw [hplay] at hm
    have hki : k ≠ i := by
      rintro rfl
      rw [← hi, unansweredPlay_sender hpat] at hm
      cases hm
    rw [signup_table, Function.update_of_ne hki]
    exact hs.move k m hm
  · intro c m hm
    rw [hplay] at hm
    refine present_mono (hs.opponent c m hm) fun _ => ?_
    rw [hk]
    decide

theorem Scores.play (hs : Scores whoIs p a) (ht : Tracks whoIs p a) (hi : e.sender = i.val)
    (hk : e.message.kind = some .play) (hj : whoIs e.message.opponent = j.val)
    (hmove : IsMove e.message.playAction) (hcare : present p j.val = true)
    (hans : e.replies.map rpsAnswer = (a.play e.message i j).2) :
    Scores whoIs (p ++ [e]) (a.play e.message i j).1 := by
  have hfst := map_fst_replies hans
  have hstay : ∀ c, present p c = true → present (p ++ [e]) c = true := by
    intro c hc
    refine present_mono hc fun _ => ?_
    rw [hk]
    decide
  rcases ht.play_cases (i := i) (j := j) hmove with
    ⟨hji, hx, -⟩ | ⟨hji, hx, hplay⟩ | ⟨x, r, hx, hxj, hr, hplay⟩
  · -- the opponent is there
    rw [(ht.entry j).absent_iff, hcare] at hx
    cases hx
  · rw [hplay] at hfst ⊢
    have hself : unansweredPlay (p ++ [e]) i.val = some e.message := by
      rw [unansweredPlay_snoc, hfst, if_neg (by simp), if_pos hi, if_pos hk]
    have hother : ∀ c : ℤ, c ≠ i.val → unansweredPlay (p ++ [e]) c = unansweredPlay p c := by
      intro c hc
      rw [unansweredPlay_snoc, hfst, if_neg (by simp), if_neg (by rw [hi]; exact hc.symm)]
    refine ⟨?_, ?_, ?_⟩
    · intro k hm
      by_cases hki : k = i
      · subst hki
        exact ⟨_, hself⟩
      · rw [hother _ (natCast_ne hki).symm]
        change IsMove (Function.update a.table i _ k) at hm
        rw [Function.update_of_ne hki] at hm
        exact hs.recorded k hm
    · intro k m hm
      by_cases hki : k = i
      · subst hki
        rw [hself] at hm
        obtain rfl := Option.some.inj hm
        exact Function.update_self _ _ _
      · rw [hother _ (natCast_ne hki).symm] at hm
        show Function.update a.table i _ k = _
        rw [Function.update_of_ne hki]
        exact hs.move k m hm
    · intro c m hm
      by_cases hc : c = i.val
      · subst hc
        rw [hself] at hm
        obtain rfl := Option.some.inj hm
        rw [hj]
        exact hstay _ hcare
      · rw [hother c hc] at hm
        exact hstay _ (hs.opponent c m hm)
  · -- both players are answered and their entries reset
    rw [hplay] at hfst ⊢
    have hboth : ∀ c : ℤ, c = i.val ∨ c = j.val → unansweredPlay (p ++ [e]) c = none := by
      intro c hc
      rw [unansweredPlay_snoc, hfst, if_pos]
      simpa using hc
    have hother : ∀ c : ℤ, c ≠ i.val → c ≠ j.val →
        unansweredPlay (p ++ [e]) c = unansweredPlay p c := by
      intro c hci hcj
      rw [unansweredPlay_snoc, hfst, if_neg (by simp [hci, hcj]),
        if_neg (by rw [hi]; exact hci.symm)]
    have hreset : ∀ k : Fin 64, k = i ∨ k = j → Function.update (Function.update a.table i
        RPSPlayAction.unknown.code) j RPSPlayAction.unknown.code k =
        RPSPlayAction.unknown.code := by
      intro k hk'
      by_cases hkj : k = j
      · subst hkj
        exact Function.update_self _ _ _
      · obtain rfl := hk'.resolve_right hkj
        rw [Function.update_of_ne hkj, Function.update_self]
    have hkeep : ∀ k : Fin 64, ¬ (k = i ∨ k = j) → Function.update (Function.update a.table i
        RPSPlayAction.unknown.code) j RPSPlayAction.unknown.code k = a.table k := by
      intro k hk'
      rw [Function.update_of_ne (fun h => hk' (Or.inr h)),
        Function.update_of_ne (fun h => hk' (Or.inl h))]
    refine ⟨?_, ?_, ?_⟩
    · intro k hm
      change IsMove (Function.update (Function.update a.table i _) j _ k) at hm
      by_cases hkij : k = i ∨ k = j
      · rw [hreset k hkij] at hm
        exact absurd rfl hm.ne_unknown
      · rw [hkeep k hkij] at hm
        rw [hother _ (natCast_ne fun h => hkij (Or.inl h)).symm
          (natCast_ne fun h => hkij (Or.inr h)).symm]
        exact hs.recorded k hm
    · intro k m hm
      have hkij : ¬ (k = i ∨ k = j) := by
        intro hkij
        have hval : (k.val : ℤ) = i.val ∨ (k.val : ℤ) = j.val := by
          rcases hkij with rfl | rfl
          · exact Or.inl rfl
          · exact Or.inr rfl
        rw [hboth _ hval] at hm
        cases hm
      rw [hother _ (natCast_ne fun h => hkij (Or.inl h)).symm
        (natCast_ne fun h => hkij (Or.inr h)).symm] at hm
      show Function.update (Function.update a.table i _) j _ k = _
      rw [hkeep k hkij]
      exact hs.move k m hm
    · intro c m hm
      have hc : ¬ (c = i.val ∨ c = j.val) := by
        intro hc
        rw [hboth c hc] at hm
        cases hm
      rw [hother c (fun h => hc (Or.inl h)) (fun h => hc (Or.inr h))] at hm
      exact hstay _ (hs.opponent c m hm)

theorem Scores.quit (hs : Scores whoIs p a) (hpat : Patient p e) (hi : e.sender = i.val)
    (hcare : ∀ c m, unansweredPlay p c = some m → whoIs m.opponent ≠ e.sender)
    (hans : e.replies.map rpsAnswer = (a.quit e.message i).2) :
    Scores whoIs (p ++ [e]) (a.quit e.message i).1 := by
  have hfst : e.replies.map Prod.fst = [(i.val : ℤ)] := map_fst_replies hans
  have hplay : ∀ c, unansweredPlay (p ++ [e]) c = unansweredPlay p c := by
    intro c
    rw [unansweredPlay_snoc, hfst]
    by_cases hc : c = i.val
    · rw [if_pos (List.mem_singleton.mpr hc), hc, ← hi, unansweredPlay_sender hpat]
    · rw [if_neg (by simpa using hc), if_neg (by rw [hi]; exact fun h => hc h.symm)]
  refine ⟨?_, ?_, ?_⟩
  · intro k hm
    rw [hplay]
    change IsMove (Function.update a.table i _ k) at hm
    by_cases hki : k = i
    · subst hki
      rw [Function.update_self] at hm
      exact absurd rfl hm.ne_absent
    · rw [Function.update_of_ne hki] at hm
      exact hs.recorded k hm
  · intro k m hm
    rw [hplay] at hm
    have hki : k ≠ i := by
      rintro rfl
      rw [← hi, unansweredPlay_sender hpat] at hm
      cases hm
    show Function.update a.table i _ k = _
    rw [Function.update_of_ne hki]
    exact hs.move k m hm
  · intro c m hm
    rw [hplay] at hm
    refine present_mono (hs.opponent c m hm) fun hsend => ?_
    exact absurd hsend.symm (hcare c m hm)

/-- **As long as the clients are careful, exactly the unanswered moves are recorded.** -/
theorem Scores.step (hs : Scores whoIs p a) (ht : Tracks whoIs p a) (hl : Moves whoIs p e)
    (hcare : Careful whoIs p e)
    (hstep : a.step whoIs e.sender e.message = .ok (a', e.replies.map rpsAnswer)) :
    Scores whoIs (p ++ [e]) a' := by
  obtain ⟨i, hi, hname, hk | ⟨j, hk, hj, hmove⟩ | hk⟩ := hl.cases
  · rw [step_signup hk hname] at hstep
    have heq := Except.ok.inj hstep
    have := hs.signup ht hl.patient hi hname hk (congrArg Prod.snd heq).symm
    rwa [heq] at this
  · rw [step_play hk hname hj] at hstep
    have heq := Except.ok.inj hstep
    have hcare' : present p j.val = true := hj ▸ hcare.play hk
    have := hs.play ht hi hk hj hmove hcare' (congrArg Prod.snd heq).symm
    rwa [heq] at this
  · rw [step_quit hk hi] at hstep
    have heq := Except.ok.inj hstep
    have := hs.quit hl.patient hi (hcare.quit hk) (congrArg Prod.snd heq).symm
    rwa [heq] at this

/-! ### Runs -/

variable {zero msg₀ : RPSMsg ν} {s : RPSServer ν}

/-- **The run lemma**: the server keeps track of its clients, whatever they send. -/
theorem tracks (run : Serves (rpsServer whoIs) (rpsServerInit zero msg₀) h s)
    (hl : Stepwise (Moves whoIs) h) :
    ∃ held a, s.Rep held a ∧ Tracks whoIs h a ∧
      (Stepwise (Careful whoIs) h → Scores whoIs h a) := by
  refine run.invariant (P := Moves whoIs) (I := fun h s => ∃ held a, s.Rep held a ∧
    Tracks whoIs h a ∧ (Stepwise (Careful whoIs) h → Scores whoIs h a)) ?_ hl ?_
  · exact ⟨none, _, rpsServerInit_rep zero msg₀, tracks_nil, fun _ => scores_nil⟩
  · rintro p s c m s' rs ⟨held, a, hrep, ht, hs⟩ hle hok
    obtain ⟨⟨a', answers⟩, hstep⟩ := hle.step a
    obtain ⟨held', s'', rs', hok', hrep', hans⟩ := hrep.step hstep
    rw [hok'] at hok
    obtain ⟨rfl, rfl⟩ := Prod.mk.inj (Except.ok.inj hok)
    have hstep' : a.step whoIs c m = .ok (a', rs'.map rpsAnswer) := hans ▸ hstep
    refine ⟨held', a', hrep', ht.step hle hstep', fun hcare => ?_⟩
    obtain ⟨hcare, hce⟩ := stepwise_snoc.mp hcare
    exact (hs hcare).step ht hle hce hstep'

/-- The server handles every message its clients can send. -/
theorem handles (run : Serves (rpsServer whoIs) (rpsServerInit zero msg₀) h s)
    (hl : Stepwise (Moves whoIs) h) (he : Moves whoIs h e) :
    ∃ s' rs, rpsServer whoIs s e.sender e.message = .ok (s', rs) := by
  obtain ⟨held, a, hrep, -, -⟩ := tracks run hl
  obtain ⟨⟨a', answers⟩, hstep⟩ := he.step a
  obtain ⟨-, s', rs, hok, -, -⟩ := hrep.step hstep
  exact ⟨s', rs, hok⟩

/-- One exchange of a run, seen in the lobby. -/
theorem exchange (run : Serves (rpsServer whoIs) (rpsServerInit zero msg₀) h s)
    (hl : Stepwise (Moves whoIs) h) {q : List (RPSExchange ν)} (hh : h = p ++ e :: q) :
    ∃ a a', Tracks whoIs p a ∧ (Stepwise (Careful whoIs) p → Scores whoIs p a) ∧
      a.step whoIs e.sender e.message = .ok (a', e.replies.map rpsAnswer) := by
  obtain ⟨s₁, s₂, run₁, hok⟩ := run.split hh
  have hl' : Stepwise (Moves whoIs) p := Stepwise.left (hh ▸ hl)
  obtain ⟨held, a, hrep, ht, hs⟩ := tracks run₁ hl'
  obtain ⟨⟨a', answers⟩, hstep⟩ := (hl p e q hh).step a
  obtain ⟨-, s', rs', hok', -, hans⟩ := hrep.step hstep
  rw [hok'] at hok
  obtain ⟨-, hrs⟩ := Prod.mk.inj (Except.ok.inj hok)
  exact ⟨a, a', ht, hs, by rw [← hrs, hans]; exact hstep⟩

theorem Scores.consistent (hs : Scores whoIs h a) (ht : Tracks whoIs h a)
    (hl : Stepwise (Moves whoIs) h) : Consistent whoIs h a.table := by
  constructor
  · intro i
    refine ⟨hs.recorded i, ?_⟩
    rintro ⟨m, hm⟩
    rw [hs.move i m hm]
    exact (moves_of_unansweredPlay hl hm).1
  · intro c m j hm hj
    have hthere := hs.opponent c m hm
    rw [hj] at hthere
    intro habsent
    rw [(ht.entry j).absent_iff, hthere] at habsent
    cases habsent

/-- The replies to a `SIGNUP` go to the client that waits and to the sender. -/
theorem Tracks.settled_signup (ht : Tracks whoIs p a) (hpat : Patient p e)
    (hi : e.sender = i.val) (hname : whoIs e.message.name = i.val)
    (hk : e.message.kind = some .signup)
    (hans : e.replies.map rpsAnswer = (a.signup whoIs e.message i).2) : Settled whoIs p e := by
  have hfst := map_fst_replies hans
  have hplay : e.message.kind ≠ some .play := by
    rw [hk]
    decide
  have hquit : e.message.kind ≠ some .quit := by
    rw [hk]
    decide
  refine ⟨?_, ?_, fun h => absurd h hplay, fun h => absurd h hquit, fun h => absurd h hplay⟩
  all_goals
    unfold Lobby.signup at hfst
    cases hw : a.waits with
    | none =>
      rw [hw] at hfst
      rw [hfst]
      simp
    | some m =>
      rw [hw] at hfst
      rw [hfst]
      have hne := ht.waits_ne hpat hw
      obtain ⟨m', hm', -⟩ := ht.waits m hw
      have hsend : whoIs e.message.name = e.sender := hname.trans hi.symm
      simp [hsend, hne, hm']

/-- A `PLAY` against another client that is there is recorded, or both are answered. -/
theorem Scores.settled_play (hs : Scores whoIs p a) (ht : Tracks whoIs p a)
    (hlp : Stepwise (Moves whoIs) p) (hi : e.sender = i.val) (hk : e.message.kind = some .play)
    (hj : whoIs e.message.opponent = j.val) (hmove : IsMove e.message.playAction) (hji : j ≠ i)
    (hthere : present p j.val = true)
    (hans : e.replies.map rpsAnswer = (a.play e.message i j).2) : Settled whoIs p e := by
  have hfst := map_fst_replies hans
  have habsent : present p (whoIs e.message.opponent) ≠ false := by
    rw [hj, hthere]
    decide
  have hquit : e.message.kind ≠ some .quit := by
    rw [hk]
    decide
  rcases ht.play_cases (i := i) (j := j) hmove with
    ⟨-, hx, -⟩ | ⟨-, hx, hplay⟩ | ⟨x, r, hx, hxj, hr, hplay⟩
  · rw [(ht.entry j).absent_iff, hthere] at hx
    cases hx
  · rw [hplay] at hans hfst
    refine ⟨?_, ?_, fun _ _ h => absurd h habsent, fun h => absurd h hquit, fun _ _ _ => ?_⟩
    · rw [hfst]
      exact List.nodup_nil
    · rw [hfst]
      exact fun c hc => absurd hc List.not_mem_nil
    · refine Or.inl ⟨?_, List.map_eq_nil_iff.mp hans⟩
      rw [hj]
      cases hm : unansweredPlay p j.val with
      | none => rfl
      | some m =>
        have hmove' := (moves_of_unansweredPlay hlp hm).1
        rw [hs.move j m hm] at hx
        exact absurd hx hmove'.ne_unknown
  · rw [if_neg hji] at hxj
    subst hxj
    obtain ⟨m, hm⟩ := hs.recorded j hx
    rw [hplay] at hans hfst
    refine ⟨?_, ?_, fun _ _ h => absurd h habsent, fun h => absurd h hquit, fun _ _ _ => ?_⟩
    · rw [hfst]
      simpa using natCast_ne hji
    · rw [hfst]
      intro c hc
      rcases List.mem_cons.mp hc with rfl | hc
      · exact Or.inl hi.symm
      · obtain rfl := List.mem_singleton.mp hc
        exact Or.inr ⟨m, (unansweredPlay_eq_some.mp hm).1⟩
    · refine Or.inr ⟨m, r, ?_, ?_, ?_⟩
      · rw [hj]
        exact hm
      · rw [← hs.move j m hm]
        exact hr
      · rw [hi, hj]
        exact hans

/-- A `QUIT` against which nobody plays is answered. -/
theorem settled_quit (hi : e.sender = i.val) (hk : e.message.kind = some .quit)
    (hcare : ∀ c m, unansweredPlay p c = some m → whoIs m.opponent ≠ e.sender)
    (hans : e.replies.map rpsAnswer = (a.quit e.message i).2) : Settled whoIs p e := by
  have hfst : e.replies.map Prod.fst = [(i.val : ℤ)] := map_fst_replies hans
  have hplay : e.message.kind ≠ some .play := by
    rw [hk]
    decide
  refine ⟨?_, ?_, fun h => absurd h hplay, fun _ c m hm h => absurd h (hcare c m hm),
    fun h => absurd h hplay⟩
  · rw [hfst]
    exact List.nodup_singleton _
  · rw [hfst]
    exact fun c hc => Or.inl ((List.mem_singleton.mp hc).trans hi.symm)

/-- What the replies of careful clients say. -/
theorem Scores.settled (hs : Scores whoIs p a) (ht : Tracks whoIs p a)
    (hlp : Stepwise (Moves whoIs) p) (hl : Moves whoIs p e) (hcare : Careful whoIs p e)
    (hstep : a.step whoIs e.sender e.message = .ok (a', e.replies.map rpsAnswer)) :
    Settled whoIs p e := by
  obtain ⟨i, hi, hname, hk | ⟨j, hk, hj, hmove⟩ | hk⟩ := hl.cases
  · exact ht.settled_signup hl.patient hi hname hk
      (congrArg Prod.snd (Except.ok.inj ((step_signup hk hname).symm.trans hstep))).symm
  · have hji : j ≠ i := by
      rintro rfl
      exact hcare.other hk (hj.trans hi.symm)
    exact hs.settled_play ht hlp hi hk hj hmove hji (hj ▸ hcare.play hk)
      (congrArg Prod.snd (Except.ok.inj ((step_play hk hname hj).symm.trans hstep))).symm
  · exact settled_quit hi hk (hcare.quit hk)
      (congrArg Prod.snd (Except.ok.inj ((step_quit hk hi).symm.trans hstep))).symm

/-- A move against another client is careful where that client is not `ABSENT`. -/
theorem Tracks.careful_play (ht : Tracks whoIs p a) (hl : Moves whoIs p e) (hi : e.sender = i.val)
    (hk : e.message.kind = some .play) (hj : whoIs e.message.opponent = j.val) (hji : j ≠ i)
    (hx : a.table j ≠ RPSPlayAction.absent.code) : Careful whoIs p e := by
  refine ⟨hl.move, fun _ => ?_, fun _ => ?_, fun hk' => ?_⟩
  · rw [hj, hi]
    exact (natCast_ne hji).symm
  · rw [hj]
    by_contra hno
    exact hx ((ht.entry j).absent_iff.mpr (Bool.eq_false_of_not_eq_true hno))
  · rw [hk] at hk'
    cases hk'

/-- Where a client that plays moves is not careful, a move stays in the table whose `PLAY` has been
answered, a `PLAY` stays unanswered whose opponent has gone, or a client is answered twice. -/
theorem Tracks.careful (ht : Tracks whoIs p a) (hl : Moves whoIs p e)
    (hstep : a.step whoIs e.sender e.message = .ok (a', e.replies.map rpsAnswer))
    (hcons : Consistent whoIs (p ++ [e]) a'.table) (hset : Settled whoIs p e) :
    Careful whoIs p e := by
  obtain ⟨i, hi, hname, hk | ⟨j, hk, hj, hmove⟩ | hk⟩ := hl.cases
  · refine ⟨hl.move, ?_, ?_, ?_⟩ <;>
      intro hk' <;>
      rw [hk] at hk' <;>
      cases hk'
  · have hans := Except.ok.inj ((step_play hk hname hj).symm.trans hstep)
    rcases ht.play_cases (i := i) (j := j) hmove with
      ⟨hji, hx, hplay⟩ | ⟨hji, hx, -⟩ | ⟨x, r, hx, hxj, -, hplay⟩
    · -- the move of the sender stays recorded, but it has its answer
      rw [hplay] at hans
      obtain ⟨rfl, hrs⟩ := Prod.mk.inj hans
      have hrec : IsMove (Function.update a.table i e.message.playAction i) := by
        rwa [Function.update_self]
      obtain ⟨m, hm⟩ := (hcons.recorded i).mp hrec
      rw [unansweredPlay_snoc, map_fst_replies hrs.symm, if_pos (by simp)] at hm
      cases hm
    · refine ht.careful_play hl hi hk hj hji ?_
      rw [hx]
      decide
    · have hji : j ≠ i := by
        rintro rfl
        -- the sender is answered for both players
        rw [hplay] at hans
        have honce := hset.once
        rw [map_fst_replies (congrArg Prod.snd hans).symm] at honce
        simp at honce
      rw [if_neg hji] at hxj
      exact ht.careful_play hl hi hk hj hji (hxj ▸ hx.ne_absent)
  · refine ⟨hl.move, ?_, ?_, fun _ c m hm hopp => ?_⟩
    · intro hk'
      rw [hk] at hk'
      cases hk'
    · intro hk'
      rw [hk] at hk'
      cases hk'
    · have hans := Except.ok.inj ((step_quit hk hi).symm.trans hstep)
      obtain ⟨rfl, hrs⟩ := Prod.mk.inj hans
      -- the sender is not the client that waits for it
      have hc : c ≠ e.sender := by
        rintro rfl
        rw [unansweredPlay_sender hl.patient] at hm
        cases hm
      have hm' : unansweredPlay (p ++ [e]) c = some m := by
        rw [unansweredPlay_snoc, map_fst_replies hrs.symm, if_neg (by simpa [← hi] using hc),
          if_neg hc.symm, hm]
      exact hcons.opponent c m i hm' (hopp.trans hi) (Function.update_self _ _ _)

/-- **A quit never strands or confuses an opponent, as long as** what is played are moves, nobody
plays against itself or against a client that is not there, and nobody quits against whom a `PLAY`
is unanswered: in such a run the server records exactly the unanswered moves, leaves nobody waiting
for an absent opponent, and answers as it should.  Of the runs in which moves are played these are
the only ones. -/
theorem rps_quit_consistent_iff (whoIs : ν → ℤ) (zero msg₀ : RPSMsg ν)
    (h : List (RPSExchange ν)) (s : RPSServer ν)
    (run : Serves (rpsServer whoIs) (rpsServerInit zero msg₀) h s)
    (hl : Stepwise (Legal whoIs) h) :
    (Stepwise (Careful whoIs) h → Unconfused whoIs zero msg₀ h) ∧
    (Stepwise (Moves whoIs) h →
      (Unconfused whoIs zero msg₀ h ↔ Stepwise (Careful whoIs) h)) := by
  have hsuff : Stepwise (Careful whoIs) h → Unconfused whoIs zero msg₀ h := by
    intro hcare
    have hm : Stepwise (Moves whoIs) h := fun p e q hh => ⟨hl p e q hh, (hcare p e q hh).move⟩
    constructor
    · intro p q s' hh run'
      have hmp : Stepwise (Moves whoIs) p := Stepwise.left (hh ▸ hm)
      obtain ⟨held, a, hrep, ht, hs⟩ := tracks run' hmp
      rw [hrep.table]
      exact (hs (Stepwise.left (hh ▸ hcare))).consistent ht hmp
    · intro p e q hh
      obtain ⟨a, a', ht, hs, hstep⟩ := exchange run hm hh
      have hmp : Stepwise (Moves whoIs) p := Stepwise.left (hh ▸ hm)
      exact (hs (Stepwise.left (hh ▸ hcare))).settled ht hmp (hm p e q hh) (hcare p e q hh) hstep
  refine ⟨hsuff, fun hm => ⟨?_, hsuff⟩⟩
  rintro ⟨hcons, hset⟩ p e q hh
  obtain ⟨s₁, s₂, run₁, hok⟩ := run.split hh
  obtain ⟨held, a, hrep, ht, -⟩ := tracks run₁ (Stepwise.left (hh ▸ hm))
  have hme := hm p e q hh
  obtain ⟨⟨a', answers⟩, hstep⟩ := hme.step a
  obtain ⟨held', s', rs', hok', hrep', hans⟩ := hrep.step hstep
  obtain ⟨rfl, hrs⟩ := Prod.mk.inj (Except.ok.inj (hok'.symm.trans hok))
  have hnext := hcons (p ++ [e]) q s' (by rw [hh, List.append_assoc]; rfl) (.snoc run₁ hok)
  rw [hrep'.table] at hnext
  exact ht.careful hme (by rw [← hrs, hans]; exact hstep) hnext (hset p e q hh)

/-- Messages of clients that are called by their tids. -/
def exampleMsg (action playAction : U32) (name opponent : ℤ) : RPSMsg ℤ :=
  ⟨action, playAction, name, opponent, 0, none⟩

/-- The answer to a signup, with the link the server leaves in it. -/
def examplePaired (name opponent : ℤ) (next : Option ChunkPtr) : RPSMsg ℤ :=
  ⟨0, 0, name, opponent, 0, next⟩

/-- Clients 7 and 8 sign up. -/
def signupExample : List (RPSExchange ℤ) :=
  [⟨7, exampleMsg 0 0 7 0, []⟩,
    ⟨8, exampleMsg 0 0 8 0, [(7, examplePaired 7 8 (some ⟨510, by decide⟩)),
      (8, examplePaired 8 7 none)]⟩]

/-- Client 7 plays and client 8 quits. -/
def strandedExample : List (RPSExchange ℤ) :=
  signupExample ++ [⟨7, exampleMsg 1 2 7 8, []⟩,
    ⟨8, exampleMsg 2 0 8 0, [(8, exampleMsg 2 0 8 0)]⟩]

theorem signupExample_legal : Stepwise (Legal id) signupExample :=
  stepwise_snoc (h := [_]).mpr ⟨stepwise_snoc (h := []).mpr ⟨stepwise_nil,
    ⟨by decide, ⟨7, rfl⟩, rfl, ⟨.signup, rfl⟩, by decide⟩⟩,
    ⟨by decide, ⟨8, rfl⟩, rfl, ⟨.signup, rfl⟩, by decide⟩⟩

theorem strandedExample_legal : Stepwise (Legal id) strandedExample :=
  stepwise_snoc (h := signupExample ++ [_]).mpr ⟨stepwise_snoc.mpr ⟨signupExample_legal,
    ⟨by decide, ⟨7, rfl⟩, rfl, ⟨.play, rfl⟩, fun _ => ⟨8, rfl⟩⟩⟩,
    ⟨by decide, ⟨8, rfl⟩, rfl, ⟨.quit, rfl⟩, by decide⟩⟩

/-- Client 7 has an unanswered `PLAY` and its opponent is `ABSENT`. -/
theorem rps_quit_strands : ∃ h s, Serves (rpsServer id)
    (rpsServerInit (exampleMsg 0 0 0 0) (exampleMsg 0 0 0 0)) h s ∧
      Stepwise (Legal id) h ∧ ¬ Consistent id h s.playActions := by
  have hrun : returns (serve (rpsServer id)
      (rpsServerInit (exampleMsg 0 0 0 0) (exampleMsg 0 0 0 0))
      (strandedExample.map fun e => (e.sender, e.message)))
      (fun r => decide (r.1 = strandedExample) &&
        decide (r.2.playActions ⟨8, by decide⟩ = RPSPlayAction.absent.code)) = true := by
    decide +kernel
  obtain ⟨⟨h, s⟩, hserve, hh⟩ := returns_iff.mp hrun
  obtain ⟨hh, habsent⟩ := Bool.and_eq_true_iff.mp hh
  obtain rfl : h = strandedExample := of_decide_eq_true hh
  refine ⟨_, s, serves_of_serve hserve, strandedExample_legal, fun hcons => ?_⟩
  exact hcons.opponent 7 (exampleMsg 1 2 7 8) ⟨8, by decide⟩ (by decide) rfl
    (of_decide_eq_true habsent)

/-- Both play: rock against paper. -/
def roundExample : List (RPSExchange ℤ) :=
  signupExample ++ [⟨7, exampleMsg 1 2 7 8, []⟩,
    ⟨8, exampleMsg 1 3 8 7, [(8, ⟨0, 0, 8, 7, 0, none⟩),
      (7, ⟨0, 0, 7, 8, 1, some ⟨510, by decide⟩⟩)]⟩]

/-- Client 8 quits after the round. -/
def quitExample : List (RPSExchange ℤ) :=
  roundExample ++ [⟨8, exampleMsg 2 0 8 0, [(8, exampleMsg 2 0 8 0)]⟩]

theorem quitExample_legal : Stepwise (Legal id) quitExample :=
  stepwise_snoc (h := roundExample).mpr
    ⟨stepwise_snoc (h := signupExample ++ [_]).mpr ⟨stepwise_snoc.mpr ⟨signupExample_legal,
      ⟨by decide, ⟨7, rfl⟩, rfl, ⟨.play, rfl⟩, fun _ => ⟨8, rfl⟩⟩⟩,
      ⟨by decide, ⟨8, rfl⟩, rfl, ⟨.play, rfl⟩, fun _ => ⟨7, rfl⟩⟩⟩,
      ⟨by decide, ⟨8, rfl⟩, rfl, ⟨.quit, rfl⟩, by decide⟩⟩

theorem quitExample_careful : Stepwise (Careful id) quitExample := by
  have hnobody : waiting roundExample = ∅ := by decide
  refine stepwise_snoc (h := roundExample).mpr
    ⟨stepwise_snoc (h := signupExample ++ [_]).mpr ⟨stepwise_snoc.mpr
      ⟨stepwise_snoc (h := [_]).mpr ⟨stepwise_snoc (h := []).mpr ⟨stepwise_nil, ?_⟩, ?_⟩, ?_⟩,
      ?_⟩, ?_⟩
  · exact ⟨by decide, by decide, by decide, fun hk => absurd hk (by decide)⟩
  · exact ⟨by decide, by decide, by decide, fun hk => absurd hk (by decide)⟩
  · exact ⟨by decide, by decide, by decide, fun hk => absurd hk (by decide)⟩
  · exact ⟨by decide, by decide, by decide, fun hk => absurd hk (by decide)⟩
  · refine ⟨by decide, by decide, by decide, fun _ c m hm => ?_⟩
    have hin := mem_waiting_iff.mpr ⟨m, (unansweredPlay_eq_some.mp hm).1⟩
    rw [hnobody] at hin
    exact absurd hin (Finset.notMem_empty c)

/-- Careful clients play moves. -/
theorem quitExample_moves : Stepwise (Moves id) quitExample := fun p e q hh =>
  ⟨quitExample_legal p e q hh, (quitExample_careful p e q hh).move⟩

theorem rps_quit_consistent_run : ∃ s, Serves (rpsServer id)
    (rpsServerInit (exampleMsg 0 0 0 0) (exampleMsg 0 0 0 0)) quitExample s ∧
      Consistent id quitExample s.playActions ∧ Stepwise (Settled id) quitExample := by
  have hrun : returns (serve (rpsServer id)
      (rpsServerInit (exampleMsg 0 0 0 0) (exampleMsg 0 0 0 0))
      (quitExample.map fun e => (e.sender, e.message)))
      (fun r => decide (r.1 = quitExample)) = true := by
    decide +kernel
  obtain ⟨⟨h, s⟩, hserve, hh⟩ := returns_iff.mp hrun
  obtain rfl : h = quitExample := of_decide_eq_true hh
  have run := serves_of_serve hserve
  obtain ⟨hcons, hset⟩ := (rps_quit_consistent_iff id _ _ quitExample s run
    quitExample_legal).1 quitExample_careful
  exact ⟨s, run, hcons quitExample [] s (List.append_nil _).symm run, hset⟩

end Rps

end RealtimeKernel
