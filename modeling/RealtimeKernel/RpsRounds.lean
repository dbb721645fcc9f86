import RealtimeKernel.StrandedPlayers

/-!
# Rounds of rock-paper-scissors

Clients that sign up once, play against the opponent their reply names and never quit are
careful, so that exactly the unanswered moves are recorded.  What is added here is who plays
against whom: the server pairs the clients in the order in which they sign up, the reply of each
names the other, and so the move that a `PLAY` is scored against is the partner's, from a `PLAY`
against the sender.
-/

namespace RealtimeKernel

open Lib

/-- What beats what. -/
def RPSPlayAction.beats : RPSPlayAction → RPSPlayAction → Bool
  | .rock, .scissors => true
  | .paper, .rock => true
  | .scissors, .paper => true
  | _, _ => false

/-- The results of the two players of a round. -/
def rpsVerdict (x y : RPSPlayAction) : RPSPlayResult × RPSPlayResult :=
  if x.beats y then (.won, .lost) else if y.beats x then (.lost, .won) else (.tie, .tie)

theorem IsMove.exists_code {x : U32} (h : IsMove x) : ∃ a : RPSPlayAction, x = a.code := by
  rcases h with rfl | rfl | rfl
  · exact ⟨.rock, rfl⟩
  · exact ⟨.paper, rfl⟩
  · exact ⟨.scissors, rfl⟩

/-- **The difference of two moves decides the round.** -/
theorem rpsResults_eq {x y : RPSPlayAction} (hx : IsMove x.code) (hy : IsMove y.code) :
    rpsResults x.code y.code = some (rpsVerdict x y) := by
  revert hx hy
  cases x <;> cases y <;> decide

namespace Rps

variable {ν : Type}

/-! ### Signing up -/

/-- The names that have signed up, in order. -/
def signups (h : List (RPSExchange ν)) : List ν :=
  (h.filter fun e => decide (e.message.kind = some .signup)).map fun e => e.message.name

/-- The name that waits for the next one. -/
def waitingName (h : List (RPSExchange ν)) : Option ν :=
  if (signups h).length % 2 = 0 then none else (signups h).getLast?

def SignedUp (h : List (RPSExchange ν)) (c : ℤ) : Prop :=
  ∃ f ∈ h, f.message.kind = some .signup ∧ f.sender = c

/-- The answer to the client's `SIGNUP` names an opponent. -/
def Named (h : List (RPSExchange ν)) (c : ℤ) (n : ν) : Prop :=
  ∃ f ∈ h, f.message.kind = some .signup ∧ ∃ r ∈ f.replies, r.1 = c ∧ r.2.opponent = n

/-- Clients that sign up once, play against the opponent their reply names and never quit. -/
structure Plays (whoIs : ν → ℤ) (p : List (RPSExchange ν)) (e : RPSExchange ν) : Prop
    extends Moves whoIs p e where
  once : e.message.kind = some .signup → ¬ SignedUp p e.sender
  named : e.message.kind = some .play → Named p e.sender e.message.opponent
  stays : e.message.kind ≠ some .quit

/-- What the replies to one message are: the second of a pair is told of the first and the first
of the second; the first move of a round gets no reply, and the second is answered together with
it, as the two moves decide. -/
structure Answers (whoIs : ν → ℤ) (p : List (RPSExchange ν)) (e : RPSExchange ν) : Prop where
  first : e.message.kind = some .signup → waitingName p = none → e.replies = []
  second : ∀ n, e.message.kind = some .signup → waitingName p = some n →
    e.replies.map (fun r => (r.1, r.2.name, r.2.opponent)) =
      [(whoIs n, n, e.message.name), (e.sender, e.message.name, n)]
  opening : e.message.kind = some .play →
    unansweredPlay p (whoIs e.message.opponent) = none → e.replies = []
  closing : ∀ m, e.message.kind = some .play →
    unansweredPlay p (whoIs e.message.opponent) = some m →
      whoIs m.opponent = e.sender ∧ ∃ x y : RPSPlayAction, e.message.playAction = x.code ∧
        m.playAction = y.code ∧ e.replies.map rpsAnswer =
          [⟨e.sender, e.message.name, e.message.opponent, (rpsVerdict x y).1.code⟩,
            ⟨whoIs e.message.opponent, e.message.opponent, e.message.name,
              (rpsVerdict x y).2.code⟩]
  /-- Until then a client that has played is not answered. -/
  only : ∀ c m, unansweredPlay p c = some m → c ∈ e.replies.map Prod.fst →
    e.message.kind = some .play ∧ whoIs e.message.opponent = c
  fair : Fair p e

/-- What one message does to the table. -/
structure Resets (whoIs : ν → ℤ) (e : RPSExchange ν) (t t' : Fin 64 → U32) : Prop where
  both : ∀ i : Fin 64, e.message.kind = some .play → e.replies ≠ [] →
    e.sender = i.val ∨ whoIs e.message.opponent = i.val → t' i = RPSPlayAction.unknown.code
  others : ∀ i : Fin 64, e.sender ≠ i.val →
    (e.message.kind = some .play → whoIs e.message.opponent ≠ i.val) → t' i = t i

/-! ### One more exchange -/

variable {whoIs : ν → ℤ} {h p : List (RPSExchange ν)} {e : RPSExchange ν} {c : ℤ}
  {a a' : Lobby ν} {m : RPSMsg ν} {n n' : ν} {i j : Fin 64}

theorem signups_signup (hk : e.message.kind = some .signup) :
    signups (p ++ [e]) = signups p ++ [e.message.name] := by
  simp [signups, List.filter_append, hk]

theorem signups_other (hk : e.message.kind ≠ some .signup) :
    signups (p ++ [e]) = signups p := by
  simp [signups, List.filter_append, hk]

theorem waitingName_first (hk : e.message.kind = some .signup) (hw : waitingName p = none) :
    waitingName (p ++ [e]) = some e.message.name := by
  have heven : (signups p).length % 2 = 0 := by
    by_contra hodd
    rw [waitingName, if_neg hodd, List.getLast?_eq_none_iff] at hw
    rw [hw] at hodd
    exact hodd rfl
  rw [waitingName, signups_signup hk, List.length_append, List.length_singleton, if_neg (by omega),
    List.getLast?_concat]

theorem waitingName_second (hk : e.message.kind = some .signup) (hw : waitingName p = some n) :
    waitingName (p ++ [e]) = none := by
  have hodd : ¬ (signups p).length % 2 = 0 := by
    intro heven
    rw [waitingName, if_pos heven] at hw
    cases hw
  rw [waitingName, signups_signup hk, List.length_append, List.length_singleton, if_pos (by omega)]

theorem waitingName_other (hk : e.message.kind ≠ some .signup) :
    waitingName (p ++ [e]) = waitingName p := by
  rw [waitingName, signups_other hk, waitingName]

theorem signedUp_snoc : SignedUp (p ++ [e]) c ↔
    SignedUp p c ∨ (e.message.kind = some .signup ∧ e.sender = c) := by
  simp [SignedUp, or_and_right, exists_or]

theorem named_snoc : Named (p ++ [e]) c n ↔
    Named p c n ∨ (e.message.kind = some .signup ∧
      ∃ r ∈ e.replies, r.1 = c ∧ r.2.opponent = n) := by
  simp [Named, or_and_right, exists_or]

theorem named_other (hk : e.message.kind ≠ some .signup) :
    Named (p ++ [e]) c n ↔ Named p c n := by
  rw [named_snoc]
  exact or_iff_left fun h => hk h.1

/-- Nobody quits. -/
theorem present_of_signedUp (hl : Stepwise (Plays whoIs) h) (hc : SignedUp h c) :
    present h c = true := by
  induction h using List.reverseRecOn with
  | nil =>
    obtain ⟨f, hf, -⟩ := hc
    cases hf
  | append_singleton h e ih =>
    obtain ⟨hl, he⟩ := stepwise_snoc.mp hl
    by_cases hsend : e.sender = c
    · rw [present_snoc, if_pos hsend]
      exact decide_eq_true he.stays
    · apply present_mono
      · apply ih hl
        exact (signedUp_snoc.mp hc).resolve_right fun h => hsend h.2
      · exact fun h => absurd h hsend

/-- Who plays against whom: the queue holds the name that waits, nobody else's `SIGNUP` is
unanswered, the opponent named to a client has been told of the client, and moves are played
against the opponent that was named. -/
structure Pairs (whoIs : ν → ℤ) (h : List (RPSExchange ν)) (a : Lobby ν) : Prop where
  waits : a.waits.map RPSMsg.name = waitingName h
  only : ∀ c m, unanswered h c = some m → m.kind = some .signup →
    waitingName h = some m.name ∧ whoIs m.name = c
  once : ∀ c n n', Named h c n → Named h c n' → n = n'
  symm : ∀ c n, Named h c n → whoIs n ≠ c ∧ ∃ n', Named h (whoIs n) n' ∧ whoIs n' = c
  signedUp : ∀ c n, Named h c n → SignedUp h c
  waiting : ∀ n, waitingName h = some n → SignedUp h (whoIs n) ∧ ∀ n', ¬ Named h (whoIs n) n'
  play : ∀ c m, unansweredPlay h c = some m → Named h c m.opponent

theorem pairs_nil : Pairs whoIs [] ⟨none, fun _ => RPSPlayAction.absent.code⟩ where
  waits := rfl
  only := fun _ _ hm => by cases hm
  once := fun _ _ _ hn => by
    obtain ⟨f, hf, -⟩ := hn
    cases hf
  symm := fun _ _ hn => by
    obtain ⟨f, hf, -⟩ := hn
    cases hf
  signedUp := fun _ _ hn => by
    obtain ⟨f, hf, -⟩ := hn
    cases hf
  waiting := fun _ hn => by cases hn
  play := fun _ _ hm => by cases hm

theorem exists_reply {answers : List (RPSAnswer ν)} (hans : e.replies.map rpsAnswer = answers) :
    (∃ r ∈ e.replies, r.1 = c ∧ r.2.opponent = n) ↔
      ∃ b ∈ answers, b.tid = c ∧ b.opponent = n := by
  rw [← hans]
  simp [rpsAnswer]

/-- The opponent that was named to a client is there. -/
theorem Pairs.present (hp : Pairs whoIs h a) (hl : Stepwise (Plays whoIs) h)
    (hn : Named h c n) : present h (whoIs n) = true := by
  obtain ⟨-, n', hn', -⟩ := hp.symm c n hn
  exact present_of_signedUp hl (hp.signedUp _ _ hn')

/-- Players are careful. -/
theorem Pairs.careful (hp : Pairs whoIs p a) (hl : Stepwise (Plays whoIs) p)
    (he : Plays whoIs p e) : Careful whoIs p e := by
  refine ⟨he.move, fun hk => ?_, fun hk => ?_, fun hk => ?_⟩
  · exact (hp.symm _ _ (he.named hk)).1
  · exact hp.present hl (he.named hk)
  · exact absurd hk he.stays

theorem unansweredPlay_cases (hm : unansweredPlay (p ++ [e]) c = some m) :
    c ∉ e.replies.map Prod.fst ∧
      ((e.sender = c ∧ e.message = m ∧ m.kind = some .play) ∨
        (e.sender ≠ c ∧ unansweredPlay p c = some m)) := by
  obtain ⟨hm, hk⟩ := unansweredPlay_eq_some.mp hm
  obtain ⟨hr, hm⟩ := unanswered_snoc_cases hm
  refine ⟨hr, hm.imp (fun h => ⟨h.1, h.2, hk⟩) fun h => ⟨h.1, ?_⟩⟩
  exact unansweredPlay_eq_some.mpr ⟨h.2, hk⟩

/-- The first of a pair waits. -/
theorem Pairs.signup_first (hp : Pairs whoIs p a) (he : Plays whoIs p e)
    (hk : e.message.kind = some .signup) (hw : a.waits = none) (hrep : e.replies = []) :
    Pairs whoIs (p ++ [e]) (a.signup whoIs e.message i).1 := by
  have hwait : waitingName p = none := by
    rw [← hp.waits, hw]
    rfl
  have hnamed : ∀ c n, Named (p ++ [e]) c n ↔ Named p c n := by
    intro c n
    rw [named_snoc, hrep]
    simp
  have hsigned : ∀ c, SignedUp p c → SignedUp (p ++ [e]) c :=
    fun c hc => signedUp_snoc.mpr (Or.inl hc)
  constructor
  · rw [waitingName_first hk hwait, Lobby.signup, hw]
    rfl
  · intro c m hm hkm
    obtain ⟨-, ⟨hc, rfl⟩ | ⟨-, hm⟩⟩ := unanswered_snoc_cases hm
    · exact ⟨waitingName_first hk hwait, he.name.trans hc⟩
    · have := (hp.only c m hm hkm).1
      rw [hwait] at this
      cases this
  · intro c n n' hn hn'
    exact hp.once c n n' ((hnamed c n).mp hn) ((hnamed c n').mp hn')
  · intro c n hn
    obtain ⟨hne, n', hn', hback⟩ := hp.symm c n ((hnamed c n).mp hn)
    exact ⟨hne, n', (hnamed _ _).mpr hn', hback⟩
  · intro c n hn
    exact hsigned c (hp.signedUp c n ((hnamed c n).mp hn))
  · intro n hn
    rw [waitingName_first hk hwait] at hn
    obtain rfl := Option.some.inj hn
    rw [he.name]
    refine ⟨signedUp_snoc.mpr (Or.inr ⟨hk, rfl⟩), fun n' hn' => ?_⟩
    exact he.once hk (hp.signedUp _ _ ((hnamed _ _).mp hn'))
  · intro c m hm
    obtain ⟨-, ⟨-, rfl, hkm⟩ | ⟨-, hm⟩⟩ := unansweredPlay_cases hm
    · rw [hk] at hkm
      cases hkm
    · exact (hnamed _ _).mpr (hp.play c m hm)

/-- The second of a pair and the first are told of each other. -/
theorem Pairs.signup_second (hp : Pairs whoIs p a) (ht : Tracks whoIs p a)
    (he : Plays whoIs p e) (hk : e.message.kind = some .signup) (hw : a.waits = some m)
    (hans : e.replies.map rpsAnswer = (a.signup whoIs e.message i).2) :
    Pairs whoIs (p ++ [e]) (a.signup whoIs e.message i).1 := by
  have hwait : waitingName p = some m.name := by
    rw [← hp.waits, hw]
    rfl
  have hans' : e.replies.map rpsAnswer = [⟨whoIs m.name, m.name, e.message.name, m.playResult⟩,
      ⟨whoIs e.message.name, e.message.name, m.name, e.message.playResult⟩] := by
    rw [hans, Lobby.signup, hw]
  have hfst : e.replies.map Prod.fst = [whoIs m.name, whoIs e.message.name] :=
    map_fst_replies hans'
  have hne : whoIs m.name ≠ e.sender := ht.waits_ne he.patient hw
  obtain ⟨hsigned, hunnamed⟩ := hp.waiting m.name hwait
  have hnamed : ∀ c n, Named (p ++ [e]) c n ↔ Named p c n ∨
      (whoIs m.name = c ∧ e.message.name = n) ∨ (e.sender = c ∧ m.name = n) := by
    intro c n
    rw [named_snoc, exists_reply hans', he.name]
    simp [hk]
  have hfirst : Named (p ++ [e]) (whoIs m.name) e.message.name :=
    (hnamed _ _).mpr (Or.inr (Or.inl ⟨rfl, rfl⟩))
  have hsecond : Named (p ++ [e]) e.sender m.name :=
    (hnamed _ _).mpr (Or.inr (Or.inr ⟨rfl, rfl⟩))
  have hnew : ∀ n, ¬ Named p e.sender n := fun n hn => he.once hk (hp.signedUp _ _ hn)
  constructor
  · rw [waitingName_second hk hwait, Lobby.signup, hw]
    rfl
  · intro c m' hm' hkm
    obtain ⟨hr, ⟨rfl, rfl⟩ | ⟨-, hm'⟩⟩ := unanswered_snoc_cases hm'
    · rw [hfst, he.name] at hr
      simp at hr
    · obtain ⟨hname, hc⟩ := hp.only c m' hm' hkm
      rw [hwait] at hname
      have hname := Option.some.inj hname
      rw [hfst, ← hc, ← hname] at hr
      simp at hr
  · intro c n n' hn hn'
    rcases (hnamed c n).mp hn with hn | ⟨rfl, rfl⟩ | ⟨rfl, rfl⟩
    · rcases (hnamed c n').mp hn' with hn' | ⟨rfl, rfl⟩ | ⟨rfl, rfl⟩
      · exact hp.once c n n' hn hn'
      · exact absurd hn (hunnamed n)
      · exact absurd hn (hnew n)
    · rcases (hnamed _ n').mp hn' with hn' | ⟨-, rfl⟩ | ⟨hc, -⟩
      · exact absurd hn' (hunnamed n')
      · rfl
      · exact absurd hc.symm hne
    · rcases (hnamed _ n').mp hn' with hn' | ⟨hc, -⟩ | ⟨-, rfl⟩
      · exact absurd hn' (hnew n')
      · exact absurd hc hne
      · rfl
  · intro c n hn
    rcases (hnamed c n).mp hn with hn | ⟨rfl, rfl⟩ | ⟨rfl, rfl⟩
    · obtain ⟨hne', n', hn', hback⟩ := hp.symm c n hn
      exact ⟨hne', n', (hnamed _ _).mpr (Or.inl hn'), hback⟩
    · rw [he.name]
      exact ⟨hne.symm, m.name, hsecond, rfl⟩
    · exact ⟨hne, e.message.name, hfirst, he.name⟩
  · intro c n hn
    rcases (hnamed c n).mp hn with hn | ⟨rfl, -⟩ | ⟨rfl, -⟩
    · exact signedUp_snoc.mpr (Or.inl (hp.signedUp c n hn))
    · exact signedUp_snoc.mpr (Or.inl hsigned)
    · exact signedUp_snoc.mpr (Or.inr ⟨hk, rfl⟩)
  · intro n hn
    rw [waitingName_second hk hwait] at hn
    cases hn
  · intro c m' hm'
    obtain ⟨-, ⟨-, rfl, hkm⟩ | ⟨-, hm'⟩⟩ := unansweredPlay_cases hm'
    · rw [hk] at hkm
      cases hkm
    · exact (hnamed _ _).mpr (Or.inl (hp.play c m' hm'))

/-- A move changes neither the queue nor the pairs. -/
theorem Pairs.play_step (hp : Pairs whoIs p a) (he : Plays whoIs p e)
    (hk : e.message.kind = some .play) (hw : a'.waits = a.waits) :
    Pairs whoIs (p ++ [e]) a' := by
  have hns : e.message.kind ≠ some .signup := by
    rw [hk]
    decide
  constructor
  · rw [hw, waitingName_other hns]
    exact hp.waits
  · intro c m hm hkm
    rw [waitingName_other hns]
    obtain ⟨-, ⟨-, rfl⟩ | ⟨-, hm⟩⟩ := unanswered_snoc_cases hm
    · exact absurd hkm hns
    · exact hp.only c m hm hkm
  · intro c n n' hn hn'
    exact hp.once c n n' ((named_other hns).mp hn) ((named_other hns).mp hn')
  · intro c n hn
    obtain ⟨hne, n', hn', hback⟩ := hp.symm c n ((named_other hns).mp hn)
    exact ⟨hne, n', (named_other hns).mpr hn', hback⟩
  · intro c n hn
    exact signedUp_snoc.mpr (Or.inl (hp.signedUp c n ((named_other hns).mp hn)))
  · intro n hn
    rw [waitingName_other hns] at hn
    obtain ⟨hsigned, hunnamed⟩ := hp.waiting n hn
    exact ⟨signedUp_snoc.mpr (Or.inl hsigned), fun n' hn' =>
      hunnamed n' ((named_other hns).mp hn')⟩
  · intro c m hm
    rw [named_other hns]
    obtain ⟨-, ⟨rfl, rfl, -⟩ | ⟨-, hm⟩⟩ := unansweredPlay_cases hm
    · exact he.named hk
    · exact hp.play c m hm

theorem Pairs.step (hp : Pairs whoIs p a) (ht : Tracks whoIs p a) (he : Plays whoIs p e)
    (hstep : a.step whoIs e.sender e.message = .ok (a', e.replies.map rpsAnswer)) :
    Pairs whoIs (p ++ [e]) a' := by
  obtain ⟨i, hi, hname, hk | ⟨j, hk, hj, hmove⟩ | hk⟩ := he.toMoves.cases
  · rw [step_signup hk hname] at hstep
    have heq := Except.ok.inj hstep
    have hans : e.replies.map rpsAnswer = (a.signup whoIs e.message i).2 :=
      (congrArg Prod.snd heq).symm
    have ha' : (a.signup whoIs e.message i).1 = a' := congrArg Prod.fst heq
    rw [← ha']
    cases hw : a.waits with
    | none =>
      apply hp.signup_first he hk hw
      rw [Lobby.signup, hw] at hans
      exact List.map_eq_nil_iff.mp hans
    | some m => exact hp.signup_second ht he hk hw hans
  · rw [step_play hk hname hj] at hstep
    have heq := Except.ok.inj hstep
    have ha' : (a.play e.message i j).1 = a' := congrArg Prod.fst heq
    apply hp.play_step he hk
    rw [← ha']
    rcases ht.play_cases (i := i) (j := j) hmove with
      ⟨-, -, hplay⟩ | ⟨-, -, hplay⟩ | ⟨x, r, -, -, -, hplay⟩
    · rw [hplay]
    · rw [hplay]
    · rw [hplay]
  · exact absurd hk he.stays

/-! ### The replies -/

theorem Pairs.answers_signup (hp : Pairs whoIs p a) (ht : Tracks whoIs p a)
    (he : Plays whoIs p e) (hk : e.message.kind = some .signup)
    (hans : e.replies.map rpsAnswer = (a.signup whoIs e.message i).2) : Answers whoIs p e := by
  have hns : e.message.kind ≠ some .play := by
    rw [hk]
    decide
  cases hw : a.waits with
  | none =>
    have hwait : waitingName p = none := by
      rw [← hp.waits, hw]
      rfl
    rw [Lobby.signup, hw] at hans
    have hrep : e.replies = [] := List.map_eq_nil_iff.mp hans
    constructor
    · exact fun _ _ => hrep
    · intro n _ hn
      rw [hwait] at hn
      cases hn
    · exact fun hk' => absurd hk' hns
    · exact fun _ hk' => absurd hk' hns
    · intro c m _ hc
      rw [hrep] at hc
      cases hc
    · constructor
      · rw [hrep]
        exact List.nodup_nil
      · intro c hc
        rw [hrep] at hc
        cases hc
  | some m =>
    have hwait : waitingName p = some m.name := by
      rw [← hp.waits, hw]
      rfl
    rw [Lobby.signup, hw] at hans
    have hfst : e.replies.map Prod.fst = [whoIs m.name, whoIs e.message.name] :=
      map_fst_replies hans
    have hne : whoIs m.name ≠ e.sender := ht.waits_ne he.patient hw
    constructor
    · intro _ hn
      rw [hwait] at hn
      cases hn
    · intro n _ hn
      rw [hwait] at hn
      obtain rfl := Option.some.inj hn
      have hmap := congrArg (List.map fun b : RPSAnswer ν => (b.tid, b.name, b.opponent)) hans
      rw [List.map_map] at hmap
      refine hmap.trans ?_
      rw [← he.name]
      rfl
    · exact fun hk' => absurd hk' hns
    · exact fun _ hk' => absurd hk' hns
    · intro c m' hm' hc
      rw [hfst] at hc
      rcases List.mem_cons.mp hc with rfl | hc
      · rw [ht.waits_noPlay hw] at hm'
        cases hm'
      · obtain rfl := List.mem_singleton.mp hc
        rw [he.name, unansweredPlay_sender he.patient] at hm'
        cases hm'
    · constructor
      · rw [hfst, he.name]
        simpa using hne
      · intro c hc
        rw [hfst, he.name] at hc
        rcases List.mem_cons.mp hc with rfl | hc
        · obtain ⟨m', hm', -⟩ := ht.waits m hw
          exact Or.inr (mem_waiting_iff.mpr ⟨m', hm'⟩)
        · exact Or.inl (List.mem_singleton.mp hc)

theorem Pairs.answers_play (hp : Pairs whoIs p a) (ht : Tracks whoIs p a)
    (hs : Scores whoIs p a) (hl : Stepwise (Plays whoIs) p) (he : Plays whoIs p e)
    (hi : e.sender = i.val) (hk : e.message.kind = some .play)
    (hj : whoIs e.message.opponent = j.val) (hmove : IsMove e.message.playAction)
    (hans : e.replies.map rpsAnswer = (a.play e.message i j).2) : Answers whoIs p e := by
  have hns : e.message.kind ≠ some .signup := by
    rw [hk]
    decide
  have hmoves : Stepwise (Moves whoIs) p := hl.mono fun _ _ h => h.toMoves
  obtain ⟨hne, n', hn', hback⟩ := hp.symm _ _ (he.named hk)
  rcases ht.play_cases (i := i) (j := j) hmove with
    ⟨hji, hx, -⟩ | ⟨hji, hx, hplay⟩ | ⟨x, r, hx, hxj, hr, hplay⟩
  · -- the opponent is there
    have hthere := hp.present hl (he.named hk)
    rw [hj] at hthere
    rw [(ht.entry j).absent_iff, hthere] at hx
    cases hx
  · -- the first move of a round
    rw [hplay] at hans
    have hrep : e.replies = [] := List.map_eq_nil_iff.mp hans
    constructor
    · exact fun hk' => absurd hk' hns
    · exact fun _ hk' => absurd hk' hns
    · exact fun _ _ => hrep
    · intro m _ hm
      rw [hj] at hm
      have hm' := (moves_of_unansweredPlay hmoves hm).1
      rw [hs.move j m hm] at hx
      exact absurd hx hm'.ne_unknown
    · intro c m _ hc
      rw [hrep] at hc
      cases hc
    · constructor
      · rw [hrep]
        exact List.nodup_nil
      · intro c hc
        rw [hrep] at hc
        cases hc
  · -- the second move
    have hji : j ≠ i := by
      rintro rfl
      exact hne (hj.trans hi.symm)
    rw [if_neg hji] at hxj
    subst hxj
    obtain ⟨m, hm⟩ := hs.recorded j hx
    rw [hplay] at hans
    have hfst : e.replies.map Prod.fst = [(i.val : ℤ), (j.val : ℤ)] := map_fst_replies hans
    constructor
    · exact fun hk' => absurd hk' hns
    · exact fun _ hk' => absurd hk' hns
    · intro _ hnone
      rw [hj, hm] at hnone
      cases hnone
    · intro m' _ hm'
      rw [hj, hm] at hm'
      obtain rfl := Option.some.inj hm'
      constructor
      · have hname := hp.play _ m hm
        rw [← hj] at hname
        rw [hp.once _ _ _ hname hn']
        exact hback
      · obtain ⟨y, hy⟩ := hx.exists_code
        obtain ⟨z, hz⟩ := hmove.exists_code
        refine ⟨z, y, hz, (hs.move j m hm).symm.trans hy, ?_⟩
        rw [hz, hy] at hr
        rw [hz] at hmove
        rw [hy] at hx
        rw [rpsResults_eq hmove hx] at hr
        obtain rfl := Option.some.inj hr
        rw [hans, hi, hj]
    · intro c m' hm' hc
      rw [hfst] at hc
      rcases List.mem_cons.mp hc with rfl | hc
      · rw [← hi, unansweredPlay_sender he.patient] at hm'
        cases hm'
      · obtain rfl := List.mem_singleton.mp hc
        exact ⟨hk, hj⟩
    · constructor
      · rw [hfst]
        simpa using (natCast_ne hji)
      · intro c hc
        rw [hfst] at hc
        rcases List.mem_cons.mp hc with rfl | hc
        · exact Or.inl hi.symm
        · obtain rfl := List.mem_singleton.mp hc
          exact Or.inr (mem_waiting_iff.mpr ⟨m, (unansweredPlay_eq_some.mp hm).1⟩)

theorem Pairs.answers (hp : Pairs whoIs p a) (ht : Tracks whoIs p a)
    (hs : Scores whoIs p a) (hl : Stepwise (Plays whoIs) p) (he : Plays whoIs p e)
    (hstep : a.step whoIs e.sender e.message = .ok (a', e.replies.map rpsAnswer)) :
    Answers whoIs p e := by
  obtain ⟨i, hi, hname, hk | ⟨j, hk, hj, hmove⟩ | hk⟩ := he.toMoves.cases
  · rw [step_signup hk hname] at hstep
    exact hp.answers_signup ht he hk (congrArg Prod.snd (Except.ok.inj hstep)).symm
  · rw [step_play hk hname hj] at hstep
    exact hp.answers_play ht hs hl he hi hk hj hmove
      (congrArg Prod.snd (Except.ok.inj hstep)).symm
  · exact absurd hk he.stays

/-! ### The table -/

theorem Tracks.resets (ht : Tracks whoIs p a) (he : Plays whoIs p e)
    (hstep : a.step whoIs e.sender e.message = .ok (a', e.replies.map rpsAnswer))
    (hthere : e.message.kind = some .play → present p (whoIs e.message.opponent) = true) :
    Resets whoIs e a.table a'.table := by
  obtain ⟨i, hi, hname, hk | ⟨j, hk, hj, hmove⟩ | hk⟩ := he.toMoves.cases
  · rw [step_signup hk hname] at hstep
    have htable : a'.table = Function.update a.table i RPSPlayAction.unknown.code := by
      rw [← signup_table, Except.ok.inj hstep]
    constructor
    · intro k hk'
      rw [hk] at hk'
      cases hk'
    · intro k hne _
      rw [htable]
      apply Function.update_of_ne
      rintro rfl
      exact hne hi
  · rw [step_play hk hname hj] at hstep
    have heq := Except.ok.inj hstep
    rcases ht.play_cases (i := i) (j := j) hmove with
      ⟨hji, hx, -⟩ | ⟨hji, hx, hplay⟩ | ⟨x, r, hx, hxj, hr, hplay⟩
    · have hthere := hthere hk
      rw [hj] at hthere
      rw [(ht.entry j).absent_iff, hthere] at hx
      cases hx
    · rw [hplay] at heq
      obtain ⟨rfl, hans⟩ := Prod.mk.inj heq
      constructor
      · intro k _ hne
        exact absurd (List.map_eq_nil_iff.mp hans.symm) hne
      · intro k hne _
        apply Function.update_of_ne
        rintro rfl
        exact hne hi
    · rw [hplay] at heq
      obtain ⟨rfl, -⟩ := Prod.mk.inj heq
      constructor
      · intro k _ _ hk'
        rw [hi, hj] at hk'
        show Function.update (Function.update a.table i _) j _ k = _
        by_cases hkj : k = j
        · subst hkj
          exact Function.update_self _ _ _
        · have hki : k = i := by
            by_contra hki
            exact hk'.elim (natCast_ne hki) (natCast_ne hkj)
          rw [Function.update_of_ne hkj, hki, Function.update_self]
      · intro k hne hopp
        show Function.update (Function.update a.table i _) j _ k = _
        rw [Function.update_of_ne, Function.update_of_ne]
        · rintro rfl
          exact hne hi
        · rintro rfl
          exact hopp hk hj
  · exact absurd hk he.stays

/-! ### Runs -/

variable {zero msg₀ : RPSMsg ν} {s : RPSServer ν}

theorem plays_moves (hl : Stepwise (Plays whoIs) h) : Stepwise (Moves whoIs) h :=
  hl.mono fun _ _ he => he.toMoves

/-- **The run lemma**: after any messages of players the server knows who plays against whom,
and it has answered them as the rules say. -/
theorem pairs (run : Serves (rpsServer whoIs) (rpsServerInit zero msg₀) h s)
    (hl : Stepwise (Plays whoIs) h) :
    ∃ held a, s.Rep held a ∧ Tracks whoIs h a ∧ Scores whoIs h a ∧ Pairs whoIs h a ∧
      Stepwise (Answers whoIs) h := by
  refine run.invariant (P := fun p e => Plays whoIs p e ∧ Stepwise (Plays whoIs) p)
    (I := fun h s => ∃ held a, s.Rep held a ∧ Tracks whoIs h a ∧ Scores whoIs h a ∧
      Pairs whoIs h a ∧ Stepwise (Answers whoIs) h) ?_ ?_ ?_
  · exact ⟨none, _, rpsServerInit_rep zero msg₀, tracks_nil, scores_nil, pairs_nil, stepwise_nil⟩
  · intro p e q hh
    exact ⟨hl p e q hh, Stepwise.left (hh ▸ hl)⟩
  · rintro p s c m s' rs ⟨held, a, hrep, ht, hs, hp, hans⟩ ⟨he, hlp⟩ hok
    obtain ⟨⟨a', answers⟩, hstep⟩ := he.toMoves.step a
    obtain ⟨held', s'', rs', hok', hrep', hrs⟩ := hrep.step hstep
    rw [hok'] at hok
    obtain ⟨rfl, rfl⟩ := Prod.mk.inj (Except.ok.inj hok)
    have hstep' : a.step whoIs c m = .ok (a', rs'.map rpsAnswer) := hrs ▸ hstep
    refine ⟨held', a', hrep', ht.step he.toMoves hstep', ?_, hp.step ht he hstep', ?_⟩
    · exact hs.step ht he.toMoves (hp.careful hlp he) hstep'
    · exact stepwise_snoc.mpr ⟨hans, hp.answers ht hs hlp he hstep'⟩

/-- **Every round is answered as rock-paper-scissors says**, whoever plays first: the server
pairs the clients in the order in which they sign up and tells each the other's name, answers
the two moves of a round together, resets the two entries and no other, holds a chunk for the
`SIGNUP` that waits only, loses no message and answers none twice. -/
theorem rps_rounds (whoIs : ν → ℤ) (zero msg₀ : RPSMsg ν) (h : List (RPSExchange ν))
    (s : RPSServer ν) (run : Serves (rpsServer whoIs) (rpsServerInit zero msg₀) h s)
    (hl : Stepwise (Plays whoIs) h) :
    (∀ p e q, h = p ++ e :: q → Answers whoIs p e ∧
      ∀ s₁ s₂, Serves (rpsServer whoIs) (rpsServerInit zero msg₀) p s₁ →
        rpsServer whoIs s₁ e.sender e.message = .ok (s₂, e.replies) →
          Resets whoIs e s₁.playActions s₂.playActions) ∧
    (∀ c m, unanswered h c = some m → m.kind = some .signup →
      waitingName h = some m.name ∧ whoIs m.name = c) ∧
    (∃ held : Option ChunkPtr, s.memoryPool.Accounts held.toList ∧
      held.map (fun c => (s.memoryPool.chunk c).name) = waitingName h) ∧
    (∀ c, requests h c = answers h c + if c ∈ waiting h then 1 else 0) ∧
    (∀ i m, unansweredPlay h (i : Fin 64).val = some m → s.playActions i = m.playAction) ∧
    (∀ i : Fin 64, IsMove (s.playActions i) → ∃ m, unansweredPlay h i.val = some m) ∧
    (∀ e, Plays whoIs h e → ∃ s' rs, rpsServer whoIs s e.sender e.message = .ok (s', rs)) := by
  obtain ⟨held, a, hrep, ht, hs, hp, hans⟩ := pairs run hl
  refine ⟨?_, hp.only, ⟨held, hrep.accounts, ?_⟩, ?_, ?_, ?_, ?_⟩
  · intro p e q hh
    refine ⟨hans p e q hh, fun s₁ s₂ run₁ hok => ?_⟩
    have hlp : Stepwise (Plays whoIs) p := Stepwise.left (hh ▸ hl)
    have he := hl p e q hh
    obtain ⟨held₁, a₁, hrep₁, ht₁, -, hp₁, -⟩ := pairs run₁ hlp
    obtain ⟨⟨a₂, answers⟩, hstep⟩ := he.toMoves.step a₁
    obtain ⟨held₂, s₂', rs, hok', hrep₂, hrs⟩ := hrep₁.step hstep
    obtain ⟨rfl, rfl⟩ := Prod.mk.inj (Except.ok.inj (hok'.symm.trans hok))
    rw [hrep₁.table, hrep₂.table]
    exact ht₁.resets he (hrs ▸ hstep) fun hk => hp₁.present hlp (he.named hk)
  · rw [← hp.waits, ← hrep.waits, Option.map_map]
    rfl
  · exact requests_eq fun p e q hh => ⟨(hl p e q hh).patient, (hans p e q hh).fair⟩
  · intro i m hm
    rw [hrep.table]
    exact hs.move i m hm
  · intro i hm
    rw [hrep.table] at hm
    exact hs.recorded i hm
  · intro e he
    exact handles run (plays_moves hl) he.toMoves

theorem roundExample_plays : Stepwise (Plays id) roundExample := by
  have hl : Stepwise (Moves id) roundExample := Stepwise.left quitExample_moves
  have hopponent : ∀ c n r, (c, r) ∈ [((7 : ℤ), examplePaired 7 8 (some ⟨510, by decide⟩)),
      (8, examplePaired 8 7 none)] → r.opponent = n → Named signupExample c n := by
    intro c n r hr hn
    exact ⟨_, List.mem_cons_of_mem _ List.mem_cons_self, rfl, (c, r), hr, rfl, hn⟩
  refine stepwise_snoc (h := signupExample ++ [_]).mpr ⟨stepwise_snoc.mpr
    ⟨stepwise_snoc (h := [_]).mpr ⟨stepwise_snoc (h := []).mpr ⟨stepwise_nil, ?_⟩, ?_⟩, ?_⟩, ?_⟩
  · refine ⟨hl [] _ _ rfl, fun _ h => ?_, fun hk => absurd hk (by decide), by decide⟩
    obtain ⟨f, hf, -⟩ := h
    cases hf
  · refine ⟨hl [_] _ _ rfl, fun _ h => ?_, fun hk => absurd hk (by decide), by decide⟩
    obtain ⟨f, hf, -, hc⟩ := h
    obtain rfl := List.mem_singleton.mp hf
    cases hc
  · refine ⟨hl signupExample _ _ rfl, fun hk => absurd hk (by decide), fun _ => ?_, by decide⟩
    exact hopponent 7 8 _ List.mem_cons_self rfl
  · refine ⟨hl (signupExample ++ [_]) _ _ rfl, fun hk => absurd hk (by decide), fun _ => ?_,
      by decide⟩
    apply (named_other (by decide)).mpr
    exact hopponent 8 7 _ (List.mem_cons_of_mem _ List.mem_cons_self) rfl

theorem rps_rounds_run : ∃ s, Serves (rpsServer id)
    (rpsServerInit (exampleMsg 0 0 0 0) (exampleMsg 0 0 0 0)) roundExample s ∧
      Answers id (signupExample ++ [⟨7, exampleMsg 1 2 7 8, []⟩])
        ⟨8, exampleMsg 1 3 8 7, [(8, ⟨0, 0, 8, 7, 0, none⟩),
          (7, ⟨0, 0, 7, 8, 1, some ⟨510, by decide⟩⟩)]⟩ := by
  have hrun : returns (serve (rpsServer id)
      (rpsServerInit (exampleMsg 0 0 0 0) (exampleMsg 0 0 0 0))
      (roundExample.map fun e => (e.sender, e.message)))
      (fun r => decide (r.1 = roundExample)) = true := by
    decide +kernel
  obtain ⟨⟨h, s⟩, hserve, hh⟩ := returns_iff.mp hrun
  obtain rfl : h = roundExample := of_decide_eq_true hh
  have run := serves_of_serve hserve
  exact ⟨s, run, ((rps_rounds id _ _ roundExample s run roundExample_plays).1
    (signupExample ++ [_]) _ [] rfl).1⟩

end Rps

end RealtimeKernel
