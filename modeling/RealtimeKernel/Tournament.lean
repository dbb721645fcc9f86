import RealtimeKernel.RpsClients

/-!
# A tournament of rock-paper-scissors

The steps of the clients and of the server interleave in any order.  A client plays its next
round only after both players were told the result of the last one, so nobody quits while its
opponent has a move to make: the tournament is consistent at every step, and it ends with
everybody home but the one who found no opponent.
-/

namespace RealtimeKernel

open Lib

variable {ν : Type}

namespace Rps

section Step

variable {whoIs : ν → ℤ} {name : ℤ → ν} {players : Finset ℤ} {s : Tournament ν} {a : Lobby ν}
  {m : RPSMsg ν} {c d : ℤ} {rest : List (ℤ × RPSMsg ν)}

/-- The server handles the message of `c` without losing a reply, and the tournament stays
consistent. -/
def Served (whoIs : ν → ℤ) (name : ℤ → ν) (players : Finset ℤ) (s : Tournament ν) (c : ℤ)
    (m : RPSMsg ν) (rest : List (ℤ × RPSMsg ν)) : Prop :=
  ∃ server rs a', rpsServer whoIs s.server c m = .ok (server, rs) ∧
    (rs.map Prod.fst).Nodup ∧ (∀ r ∈ rs, r.1 ∈ insert c s.awaiting) ∧
    Consistency name players
      ⟨server, (Network.deliver rpsClient (s.client, insert c s.awaiting) rs).1, rest,
        (Network.deliver rpsClient (s.client, insert c s.awaiting) rs).2⟩ a'

theorem Served.silent {server : RPSServer ν} {a' : Lobby ν}
    (hok : rpsServer whoIs s.server c m = .ok (server, []))
    (h : Consistency name players ⟨server, s.client, rest, insert c s.awaiting⟩ a') :
    Served whoIs name players s c m rest :=
  ⟨server, [], a', hok, List.nodup_nil, fun _ hr => absurd hr List.not_mem_nil, h⟩

theorem Served.one {server : RPSServer ν} {a' : Lobby ν} {r : RPSMsg ν}
    (hok : rpsServer whoIs s.server c m = .ok (server, [(c, r)])) (hidle : c ∉ s.awaiting)
    (h : Consistency name players
      ⟨server, Function.update s.client c (rpsClient.resume (s.client c) r), rest, s.awaiting⟩ a') :
    Served whoIs name players s c m rest := by
  refine ⟨server, [(c, r)], a', hok, by simp, fun r' hr' => ?_, ?_⟩
  · rw [List.mem_singleton.mp hr']
    exact Finset.mem_insert_self _ _
  · rw [Network.deliver_one hidle]
    exact h

theorem Served.two {server : RPSServer ν} {a' : Lobby ν} {e : ℤ} {r r' : RPSMsg ν}
    (hok : rpsServer whoIs s.server c m = .ok (server, [(d, r), (e, r')]))
    (hd : d ∈ insert c s.awaiting) (he : e ∈ insert c s.awaiting) (hed : e ≠ d)
    (h : Consistency name players ⟨server,
      Function.update (Function.update s.client d (rpsClient.resume (s.client d) r)) e
        (rpsClient.resume (s.client e) r'), rest, ((insert c s.awaiting).erase d).erase e⟩ a') :
    Served whoIs name players s c m rest := by
  refine ⟨server, [(d, r), (e, r')], a', hok, by simpa using hed.symm, fun r'' hr'' => ?_, ?_⟩
  · rcases List.mem_pair.mp hr'' with rfl | rfl
    · exact hd
    · exact he
  · rw [Network.deliver_two hd he hed]
    exact h

/-- An opponent that has rounds to play has no move recorded, or awaits the result. -/
theorem Consistency.entry (hs : Consistency name players s a) {j : Fin 64} (hj : d = j.val)
    (hd : d ∈ players) (hopp : HasOpponent (s.client d).place)
    (hlt : finished (s.client d).place < rpsClientRounds) :
    (a.table j = RPSPlayAction.unknown.code ∧ d ∉ s.awaiting) ∨
      ∃ k, (s.client d).place = .playing k ∧ IsMove (a.table j) ∧
        (s.client d).msg.opponent = (s.client d).reply.opponent ∧ d ∉ s.mailbox.map Prod.fst ∧
        d ∈ s.awaiting := by
  have hfits := hs.fits j (hj ▸ hd)
  rw [← hj] at hfits
  cases hfits with
  | signup place => exact absurd hopp (by rw [place]; exact id)
  | signing place => exact absurd hopp (by rw [place]; exact id)
  | waits place => exact absurd hopp (by rw [place]; exact id)
  | round place _ _ idle entry => exact Or.inl ⟨entry, idle⟩
  | playing place _ _ _ _ _ idle entry => exact Or.inl ⟨entry, idle⟩
  | @recorded k place lt move opponent out heard =>
    exact Or.inr ⟨k, place, move, opponent, out, heard⟩
  | quit place => exact absurd (place ▸ hlt) (lt_irrefl _)
  | quitting place => exact absurd (place ▸ hlt) (lt_irrefl _)
  | exited place => exact absurd (place ▸ hlt) (lt_irrefl _)

section Cases

variable (hs : Consistency name players s a) (hname : ∀ c ∈ players, whoIs (name c) = c)
  (first : s.mailbox = (c, m) :: rest) {i : Fin 64} (hi : c = i.val)
include hs hname first hi

theorem Consistency.signup_first (hwaits : a.waits = none)
    (place : (s.client c).place = .signing) (kind : m.kind = some .signup) :
    Served whoIs name players s c m rest := by
  obtain ⟨hc, -, hn⟩ := hs.head_mem first
  have hwho : whoIs m.name = i.val := by rw [hn, hname c hc, hi]
  have hstep := step_signup (a := a) (c := c) kind hwho
  have hsignup : a.signup whoIs m i = (⟨some { m with next := none },
      Function.update a.table i RPSPlayAction.unknown.code⟩, []) := by
    simp only [Lobby.signup, hwaits]
  rw [hsignup] at hstep
  obtain ⟨server, rs, hok, hrep, hans⟩ := hs.handled hstep
  obtain rfl : rs = [] := List.map_eq_nil_iff.mp hans
  apply Served.silent hok
  refine hs.heard first hi hrep (.waits place id trivial rfl) rfl ?_ ?_ ?_
  · intro e he hplace
    rcases Finset.mem_insert.mp he with rfl | he
    · exact ⟨_, rfl, hn⟩
    · obtain ⟨m', hm', -⟩ := hs.waits e he hplace
      rw [hwaits] at hm'
      cases hm'
  · intro m' hm'
    obtain rfl := Option.some.inj hm'
    exact ⟨c, Finset.mem_insert_self _ _, place, hn⟩
  · intro d hd hcd hdc
    have hopp := hdc.other
    rw [place] at hopp
    exact hopp.elim

theorem Consistency.signup_second (hrange : ∀ c ∈ players, 0 ≤ c ∧ c < 64) {m₁ : RPSMsg ν}
    (hwaits : a.waits = some m₁) (place : (s.client c).place = .signing)
    (hidle : c ∉ s.awaiting) (kind : m.kind = some .signup) :
    Served whoIs name players s c m rest := by
  obtain ⟨hc, -, hn⟩ := hs.head_mem first
  have hwho : whoIs m.name = i.val := by rw [hn, hname c hc, hi]
  obtain ⟨d, hd, hplace, hm₁⟩ := hs.waiting m₁ hwaits
  have hdp := hs.awaits hd
  obtain ⟨j, hj⟩ := index_of_mem hrange hdp
  have hdc : d ≠ c := by
    rintro rfl
    exact hidle hd
  have hstep := step_signup (a := a) (c := c) kind hwho
  have hsignup : a.signup whoIs m i = (⟨none,
      Function.update a.table i RPSPlayAction.unknown.code⟩,
      [⟨d, m₁.name, m.name, m₁.playResult⟩, ⟨c, m.name, m₁.name, m.playResult⟩]) := by
    simp only [Lobby.signup, hwaits, hwho, hm₁, hname d hdp, ← hi]
  rw [hsignup] at hstep
  obtain ⟨server, rs, hok, hrep, hans⟩ := hs.handled hstep
  obtain ⟨r, r', rfl, hr, hr', -, -⟩ := two_replies hans
  have hfits := hs.fits j (hj ▸ hdp)
  rw [← hj] at hfits
  have haw : ((insert c s.awaiting).erase d).erase c = s.awaiting.erase d := by
    rw [Finset.erase_right_comm, Finset.erase_insert hidle]
  apply Served.two hok (Finset.mem_insert_of_mem hd) (Finset.mem_insert_self _ _) hdc.symm
  rw [haw]
  have hlen : ∀ e ∈ players, (s.client e).place = .signing → (s.client e).results.length = 0 :=
    fun e he hpl => by rw [(hs.scores e he).1, hpl, finished]
  have henter : Enters (rpsClient.resume (s.client c) r') (name c) (name d) 0 :=
    .of_signing place (hs.named c hc) (hr'.trans hm₁) (hlen c hc place)
  have henter' : Enters (rpsClient.resume (s.client d) r) (name d) (name c) 0 :=
    .of_signing hplace (hs.named d hdp) (hr.trans hn) (hlen d hdp hplace)
  have hempty := List.eq_nil_of_length_eq_zero henter.length
  have hempty' := List.eq_nil_of_length_eq_zero henter'.length
  have hentry : a.table j = RPSPlayAction.unknown.code ∧ d ∉ s.mailbox.map Prod.fst := by
    cases hfits with
    | waits _ out _ entry => exact ⟨entry, out⟩
    | signing _ _ _ idle => exact absurd hd idle
    | recorded h => exact absurd (hplace.symm.trans h) (by simp)
    | signup h => exact absurd (hplace.symm.trans h) (by simp)
    | round h => exact absurd (hplace.symm.trans h) (by simp)
    | playing h => exact absurd (hplace.symm.trans h) (by simp)
    | quit h => exact absurd (hplace.symm.trans h) (by simp)
    | quitting h => exact absurd (hplace.symm.trans h) (by simp)
    | exited h => exact absurd (hplace.symm.trans h) (by simp)
  have honly : ∀ e ∈ s.awaiting, (s.client e).place = .signing → e = d := by
    intro e he hpl
    obtain ⟨m', hm', hn'⟩ := hs.waits e he hpl
    rw [hwaits] at hm'
    obtain rfl := Option.some.inj hm'
    rw [← hname e (hs.awaits he), ← hn', hm₁, hname d hdp]
  refine hs.both first hidle hd hentry.2 hi hj hrep ?_ (k := 0) ?_ ?_ ?_ ?_ ?_ ?_ ?_ ?_
  · intro e hec hed
    rw [Function.update_of_ne hec, Function.update_of_ne hed]
  · rw [Function.update_self]
    exact henter
  · rw [Function.update_of_ne hdc, Function.update_self]
    exact henter'
  · rw [Function.update_self, Function.update_of_ne hdc, Function.update_self, hempty, hempty']
    rfl
  · rw [Function.update_self, Function.update_of_ne hdc, Function.update_self, hempty, hempty']
    rfl
  · have hij : j ≠ i := by
      rintro rfl
      exact hdc (hj.trans hi.symm)
    show Function.update a.table i _ = _
    rw [← hentry.1, Function.update_comm hij.symm, Function.update_eq_self]
  · exact fun e he hed hpl => absurd (honly e he hpl) hed
  · intro m' hm'
    cases hm'
  · intro e f _ hef hfe _ _
    constructor
    · rintro rfl
      have hopp := hef.other
      rw [place] at hopp
      exact hopp
    · rintro rfl
      have hopp := hef.other
      rw [hplace] at hopp
      exact hopp

theorem Consistency.play (hrange : ∀ c ∈ players, 0 ≤ c ∧ c < 64) {k : ℕ}
    (place : (s.client c).place = .playing k) (hlt : k < rpsClientRounds)
    (hidle : c ∉ s.awaiting) (kind : m.kind = some .play) (move : IsMove m.playAction)
    (opponent : (s.client c).msg.opponent = (s.client c).reply.opponent) :
    Served whoIs name players s c m rest := by
  obtain ⟨hc, hm, hn⟩ := hs.head_mem first
  have hopp : HasOpponent (s.client c).place := by rw [place]; trivial
  obtain ⟨d, hdp, hcd, hdc⟩ := hs.paired c hc hopp
  obtain ⟨j, hj⟩ := index_of_mem hrange hdp
  have hwho : whoIs m.name = i.val := by rw [hn, hname c hc, hi]
  have hopponent : m.opponent = name d := by rw [hm, opponent, hcd.opponent]
  have hwho' : whoIs m.opponent = j.val := by rw [hopponent, hname d hdp, hj]
  have hij : j ≠ i := by
    rintro rfl
    exact hcd.ne (hi.trans hj.symm)
  have hstep := step_play (a := a) (c := c) kind hwho hwho'
  have hrounds : finished (s.client d).place = k := by
    rw [← hcd.rounds, place, finished]
  have hentry : Function.update a.table i m.playAction j = a.table j :=
    Function.update_of_ne hij _ _
  rcases hs.entry hj hdp hcd.other (hrounds.symm ▸ hlt) with
    ⟨hunknown, hdidle⟩ | ⟨k', place', move', opponent', hout, hd⟩
  · rw [Lobby.play_unknown (hentry.trans hunknown)] at hstep
    obtain ⟨server, rs, hok, hrep, hans⟩ := hs.handled hstep
    obtain rfl : rs = [] := List.map_eq_nil_iff.mp hans
    apply Served.silent hok
    have hnot : ∀ e ∈ insert c s.awaiting, (s.client e).place = .signing → e ∈ s.awaiting := by
      intro e he hplace
      rcases Finset.mem_insert.mp he with rfl | he
      · rw [place] at hplace
        cases hplace
      · exact he
    refine hs.heard first hi hrep (.recorded place hlt move opponent id trivial) rfl ?_ ?_ ?_
    · exact fun e he hplace => hs.waits e (hnot e he hplace) hplace
    · intro m' hm'
      obtain ⟨e, he, hplace, hn'⟩ := hs.waiting m' hm'
      exact ⟨e, Finset.mem_insert_of_mem he, hplace, hn'⟩
    · intro e he hce _
      rw [← hcd.unique hname hce hdp he]
      exact hdidle
  · obtain ⟨res, hres, hscore, hscore', hopp₂, hopp₁⟩ := move.scores move'
    rw [Lobby.play_scored (hentry.trans rfl) move'.ne_absent move'.ne_unknown hres, ← hi, ← hj]
      at hstep
    obtain ⟨server, rs, hok, hrep, hans⟩ := hs.handled hstep
    obtain ⟨r, r', rfl, hr, hr', hrr, hrr'⟩ := two_replies hans
    have hkk : k' = k := by rw [← hrounds, place', finished]
    subst hkk
    obtain ⟨hlen, hscores⟩ := hs.scores c hc
    obtain ⟨hlen', hscores'⟩ := hs.scores d hdp
    rw [place, finished] at hlen
    rw [hrounds] at hlen'
    obtain ⟨henter, hcres⟩ := Enters.of_playing (r := r) place hlt (hs.named c hc)
      (opponent.trans hcd.opponent) (hr.trans hopponent) hlen hscores (hrr ▸ hscore)
    obtain ⟨henter', hdres⟩ := Enters.of_playing (r := r') place' hlt (hs.named d hdp)
      (opponent'.trans hdc.opponent) (hr'.trans hn) hlen' hscores' (hrr' ▸ hscore')
    have haw : ((insert c s.awaiting).erase c).erase d = s.awaiting.erase d := by
      rw [Finset.erase_insert hidle]
    apply Served.two hok (Finset.mem_insert_self _ _) (Finset.mem_insert_of_mem hd) hcd.ne.symm
    rw [haw]
    refine hs.both first hidle hd hout hi hj hrep ?_ (k := k' + 1) ?_ ?_ ?_ ?_ rfl ?_ ?_ ?_
    · intro e hec hed
      rw [Function.update_of_ne hed, Function.update_of_ne hec]
    · rw [Function.update_of_ne hcd.ne, Function.update_self]
      exact henter
    · rw [Function.update_self]
      exact henter'
    · rw [Function.update_self, Function.update_of_ne hcd.ne, Function.update_self, hcres, hdres,
        List.map_append, hcd.results, hrr, hrr']
      show _ ++ [res.2.code] = _ ++ [opposite res.1.code]
      rw [hopp₂]
    · rw [Function.update_self, Function.update_of_ne hcd.ne, Function.update_self, hcres, hdres,
        List.map_append, hdc.results, hrr, hrr']
      show _ ++ [res.1.code] = _ ++ [opposite res.2.code]
      rw [hopp₁]
    · exact fun e he _ hplace => hs.waits e he hplace
    · intro m' hm'
      obtain ⟨e, he, hplace, hn'⟩ := hs.waiting m' hm'
      refine ⟨e, he, ?_, hplace, hn'⟩
      rintro rfl
      rw [place'] at hplace
      cases hplace
    · intro e f he hef hfe hec hed
      constructor
      · rintro rfl
        exact hed (hfe.unique hname hcd he hdp)
      · rintro rfl
        exact hec (hfe.unique hname hdc he hc)

omit hname in
theorem Consistency.quit (place : (s.client c).place = .quitting) (hidle : c ∉ s.awaiting)
    (kind : m.kind = some .quit)
    (opponent : (s.client c).msg.opponent = (s.client c).reply.opponent) :
    Served whoIs name players s c m rest := by
  obtain ⟨hc, hm, hn⟩ := hs.head_mem first
  have hstep : a.step whoIs c m = _ := step_quit kind hi
  obtain ⟨server, rs, hok, hrep, hans⟩ := hs.handled hstep
  obtain ⟨r, rfl, hr⟩ := one_reply hans
  change rpsServer whoIs s.server c m = .ok (server, [((i.val : ℤ), r)]) at hok
  rw [← hi] at hok
  apply Served.one hok hidle
  have hg : rpsClient.resume (s.client c) r =
      { s.client c with reply := r, place := .exited } := by
    show RpsClient.resume rpsMsgSize (s.client c) r = _
    rw [RpsClient.resume, place]
  have hrest := hs.head_notMem_rest first
  have hall : ∀ e, Alike (s.client e)
      (Function.update s.client c (rpsClient.resume (s.client c) r) e) := by
    intro e
    by_cases he : e = c
    · rw [he, Function.update_self, hg]
      refine ⟨rfl, ?_, rfl, by rw [place]; rfl, by rw [place]; rfl⟩
      exact hr.trans (by rw [hm, opponent])
    · rw [Function.update_of_ne he]
      exact .of_eq rfl
  refine ⟨hrep, fun e he => ?_, hs.mail_served first fun e he => ?_, hs.nodup_rest first,
    hs.awaits, fun j hj => ?_, fun e he hplace => ?_, fun m' hm' => ?_, fun e he => ?_,
    fun e he hopp => ?_⟩
  · rw [(hall e).name]
    exact hs.named e he
  · refine Function.update_of_ne ?_ _ _
    rintro rfl
    exact hrest he
  · by_cases hji : j = i
    · subst hji
      dsimp only
      rw [← hi, Function.update_self, hg]
      exact .exited rfl hrest hidle (Function.update_self ..)
    · have hne : (j.val : ℤ) ≠ c := hi ▸ (natCast_ne hji).symm
      dsimp only
      rw [Function.update_of_ne hne]
      exact (hs.fits j hj).congr (queued_rest first hne) Iff.rfl
        (Function.update_of_ne hji _ _).symm
  · have hne : e ≠ c := by
      rintro rfl
      exact hidle he
    dsimp only at hplace
    rw [Function.update_of_ne hne] at hplace
    exact hs.waits e he hplace
  · obtain ⟨e, he, hplace, hn'⟩ := hs.waiting m' hm'
    refine ⟨e, he, ?_, hn'⟩
    dsimp only
    rw [Function.update_of_ne]
    · exact hplace
    · rintro rfl
      exact hidle he
  · rw [(hall e).results, (hall e).rounds]
    exact hs.scores e he
  · obtain ⟨d, hd, hcd, hdc⟩ := hs.paired e he ((hall e).opponent.mp hopp)
    exact ⟨d, hd, hcd.congr (hall e) (hall d) hcd.once, hdc.congr (hall d) (hall e) hdc.once⟩

end Cases

/-- **The server handles the first message**, whoever sent it. -/
theorem Consistency.serve (hs : Consistency name players s a)
    (hname : ∀ c ∈ players, whoIs (name c) = c) (hrange : ∀ c ∈ players, 0 ≤ c ∧ c < 64)
    (first : s.mailbox = (c, m) :: rest) : Served whoIs name players s c m rest := by
  obtain ⟨hc, hm, -⟩ := hs.head_mem first
  obtain ⟨i, hi⟩ := index_of_mem hrange hc
  have hfits := hs.fits i (hi ▸ hc)
  rw [← hi] at hfits
  have hsent : c ∈ s.mailbox.map Prod.fst := by rw [first]; exact List.mem_cons_self
  cases hfits with
  | signing place kind _ idle _ =>
    rw [← hm] at kind
    cases hwaits : a.waits with
    | none => exact hs.signup_first hname first hi hwaits place kind
    | some m₁ => exact hs.signup_second hname first hi hrange hwaits place idle kind
  | playing place lt kind move opponent _ idle _ =>
    rw [← hm] at kind move
    exact hs.play hname first hi hrange place lt idle kind move opponent
  | quitting place kind opponent _ idle _ =>
    rw [← hm] at kind
    exact hs.quit first hi place idle kind opponent
  | signup _ out => exact absurd hsent out
  | waits _ out => exact absurd hsent out
  | round _ _ out => exact absurd hsent out
  | recorded _ _ _ _ out => exact absurd hsent out
  | quit _ _ out => exact absurd hsent out
  | exited _ out => exact absurd hsent out

/-- **A step of a client or of the server** keeps the tournament consistent. -/
theorem Consistency.step {s' : Tournament ν} {l : List (RPSExchange ν)}
    (hs : Consistency name players s a) (hname : ∀ c ∈ players, whoIs (name c) = c)
    (hrange : ∀ c ∈ players, 0 ≤ c ∧ c < 64)
    (step : Network.Step rpsClient (rpsServer whoIs) players s l s') :
    ∃ a', Consistency name players s' a' := by
  cases step with
  | call hc sends => exact ⟨a, hs.call hrange hc sends⟩
  | serve first handles =>
    obtain ⟨server, rs, a', hok, -, -, hs'⟩ := hs.serve hname hrange first
    rw [handles] at hok
    obtain ⟨rfl, rfl⟩ := Prod.mk.inj (Except.ok.inj hok)
    exact ⟨a', hs'⟩

/-! ### From start to end -/

/-- Before the first step. -/
structure Starts (name : ℤ → ν) (players : Finset ℤ) (s : Tournament ν) : Prop where
  server : ∃ zero msg, s.server = rpsServerInit zero msg
  mailbox : s.mailbox = []
  awaiting : s.awaiting = ∅
  clients : ∀ c ∈ players,
    (s.client c).place = .signup ∧ (s.client c).name = name c ∧ (s.client c).results = []

theorem Starts.consistency (h : Starts name players s) :
    Consistency name players s ⟨none, fun _ => RPSPlayAction.absent.code⟩ := by
  obtain ⟨zero, msg, hserver⟩ := h.server
  refine ⟨⟨none, hserver ▸ rpsServerInit_rep zero msg⟩, fun c hc => (h.clients c hc).2.1, ?_, ?_,
    ?_, fun i hi => ?_, ?_, fun m hm => (by cases hm), fun c hc => ?_, fun c hc hopp => ?_⟩
  · intro c m hm
    rw [h.mailbox] at hm
    cases hm
  · rw [h.mailbox]
    exact List.nodup_nil
  · rw [h.awaiting]
    exact Finset.empty_subset _
  · refine .signup (h.clients _ hi).1 ?_ ?_ rfl
    · rw [h.mailbox]
      exact List.not_mem_nil
    · rw [h.awaiting]
      exact Finset.notMem_empty _
  · intro c hc
    rw [h.awaiting] at hc
    cases hc
  · obtain ⟨place, -, results⟩ := h.clients c hc
    rw [place, results]
    exact ⟨rfl, fun r hr => by cases hr⟩
  · rw [(h.clients c hc).1] at hopp
    exact hopp.elim

section Runs

variable {s₀ : Tournament ν} {n : ℕ} {h : List (RPSExchange ν)}
  (hname : ∀ c ∈ players, whoIs (name c) = c) (hrange : ∀ c ∈ players, 0 ≤ c ∧ c < 64)
  (h₀ : Starts name players s₀) (r : Network.Runs rpsClient (rpsServer whoIs) players s₀ n h s)
include hname hrange h₀ r

theorem Starts.consistent : ∃ a, Consistency name players s a :=
  r.invariant (I := fun s => ∃ a, Consistency name players s a) ⟨_, h₀.consistency⟩
    fun _ _ _ ⟨_, hs⟩ step => hs.step hname hrange step

/-- **A tournament is fair.**  However the steps interleave, the server handles the next message,
and every reply that it makes is to a client that waits for one.  A client that has an opponent is
that one's opponent, too; the two have played the same number of rounds, each round was won, lost or
a tie, and what one has won the other has lost. -/
theorem tournament_fair :
    (∀ c m rest, s.mailbox = (c, m) :: rest → ∃ server rs,
      rpsServer whoIs s.server c m = .ok (server, rs) ∧ (rs.map Prod.fst).Nodup ∧
        ∀ r ∈ rs, r.1 ∈ insert c s.awaiting) ∧
      ∀ c ∈ players, (s.client c).results.length = finished (s.client c).place ∧
        (∀ r ∈ (s.client c).results, IsScore r) ∧
        (HasOpponent (s.client c).place →
          ∃ d ∈ players, Match name s c d ∧ Match name s d c) := by
  obtain ⟨a, hs⟩ := h₀.consistent hname hrange r
  refine ⟨fun c m rest first => ?_, fun c hc => ⟨(hs.scores c hc).1, (hs.scores c hc).2,
    hs.paired c hc⟩⟩
  obtain ⟨server, rs, -, hok, hnodup, hmem, -⟩ := hs.serve hname hrange first
  exact ⟨server, rs, hok, hnodup, hmem⟩

end Runs

/-! ### Two players -/

def pairMsg : RPSMsg ℤ := ⟨0, 0, 0, 0, 0, none⟩

def pairStart : Tournament ℤ where
  server := rpsServerInit pairMsg pairMsg
  client c := ⟨.signup, c, pairMsg, pairMsg, []⟩
  mailbox := []
  awaiting := ∅

/-- The second player makes the first move of the first round. -/
def pairTurns : List (Network.Turn ℤ U32) :=
  [.call 1 0, .call 2 0, .serve, .serve, .call 2 7, .serve, .call 1 5, .serve, .call 1 4, .call 2 4,
    .serve, .serve, .call 2 8, .call 1 6, .serve, .serve, .call 1 0, .serve, .call 2 0, .serve]

theorem pairStart_starts : Starts id {1, 2} pairStart :=
  ⟨⟨_, _, rfl⟩, rfl, rfl, fun _ _ => ⟨rfl, rfl, rfl⟩⟩

theorem pairTurns_runs : ∃ s h,
    Network.Runs rpsClient (rpsServer id) {1, 2} pairStart pairTurns.length h s ∧ s.mailbox = [] ∧
      (s.client 1).place = .exited ∧ (s.client 2).place = .exited ∧
      (s.client 1).results = [0, 2, 0] ∧ (s.client 2).results = [1, 2, 1] := by
  have hend : (Network.turns rpsClient (rpsServer id) {1, 2} pairTurns pairStart).map (fun x =>
      (x.1.mailbox, (x.1.client 1).place, (x.1.client 2).place, (x.1.client 1).results,
        (x.1.client 2).results)) = some ([], .exited, .exited, [0, 2, 0], [1, 2, 1]) := by
    decide +kernel
  obtain ⟨⟨s, h⟩, hturns, heq⟩ := Option.map_eq_some_iff.mp hend
  simp only [Prod.mk.injEq] at heq
  have hruns := Network.Runs.turns .refl hturns
  rw [Nat.zero_add, List.nil_append] at hruns
  exact ⟨s, h, hruns, heq⟩

theorem tournament_fair_pair : ∃ s h,
    Network.Runs rpsClient (rpsServer id) {1, 2} pairStart pairTurns.length h s ∧
      (s.client 1).results = [0, 2, 0] ∧ (s.client 2).results = [1, 2, 1] ∧
      ∃ d ∈ ({1, 2} : Finset ℤ), Match id s 1 d ∧ Match id s d 1 := by
  obtain ⟨s, h, hruns, -, hplace, -, hres₁, hres₂⟩ := pairTurns_runs
  have hfair := tournament_fair (fun _ _ => rfl) (by decide) pairStart_starts hruns
  exact ⟨s, h, hruns, hres₁, hres₂, (hfair.2 1 (by decide)).2.2 (by rw [hplace]; trivial)⟩

/-! ### The end -/

/-- The messages that a client has left to send, at most. -/
def messagesLeft (g : RpsClient ν) : ℕ :=
  match g.place with
  | .signup => rpsClientRounds + 2
  | .signing => rpsClientRounds + 1
  | .round i => rpsClientRounds - (i + 1) + 2
  | .playing i => rpsClientRounds - (i + 1) + 1
  | .quit => 1
  | .quitting | .exited => 0

theorem messagesLeft_send (g : RpsClient ν) (clo : U32) (m : RPSMsg ν) (g' : RpsClient ν)
    (hs : rpsClient.send g clo = some (m, g')) : messagesLeft g' < messagesLeft g := by
  change RpsClient.send g clo = _ at hs
  unfold RpsClient.send at hs
  cases hplace : g.place <;> rw [hplace] at hs <;> cases hs <;>
    simp [messagesLeft, hplace]

theorem messagesLeft_atRound (g : RpsClient ν) (i : ℕ) :
    messagesLeft (g.atRound i) ≤ rpsClientRounds - i + 1 := by
  unfold RpsClient.atRound
  split
  · simp only [messagesLeft]
    omega
  · simp [messagesLeft]

theorem messagesLeft_resume (g : RpsClient ν) (r : RPSMsg ν) :
    messagesLeft (rpsClient.resume g r) ≤ messagesLeft g := by
  change messagesLeft (RpsClient.resume rpsMsgSize g r) ≤ _
  unfold RpsClient.resume
  cases hplace : g.place with
  | signing =>
    have := messagesLeft_atRound { g with reply := r } 0
    simpa [messagesLeft, hplace, rpsMsgSize] using this
  | playing i =>
    refine (messagesLeft_atRound _ _).trans ?_
    simp [messagesLeft, hplace]
  | quitting => simp [messagesLeft]
  | signup => exact le_rfl
  | round i => exact le_rfl
  | quit => exact le_rfl
  | exited => exact le_rfl

/-- A client that is left when nothing more can happen waits for an opponent, or has quit. -/
theorem Consistency.stuck (hs : Consistency name players s a)
    (hname : ∀ c ∈ players, whoIs (name c) = c) (hrange : ∀ c ∈ players, 0 ≤ c ∧ c < 64)
    (hstuck : Network.Stuck rpsClient (rpsServer whoIs) players s) (hc : c ∈ players) :
    ((s.client c).place = .signing ∧ c ∈ s.awaiting) ∨ (s.client c).place = .exited := by
  have hmail : s.mailbox = [] := by
    match hm : s.mailbox with
    | [] => rfl
    | (c, m) :: rest =>
      obtain ⟨server, rs, -, hok, -⟩ := hs.serve hname hrange hm
      exact absurd (.serve hm hok) (hstuck _ _)
  have hsilent : ∀ c ∈ players, (s.client c).send 0 = none := by
    intro c hc
    match hsend : (s.client c).send 0 with
    | none => rfl
    | some (m, g) => exact absurd (.call hc hsend) (hstuck _ _)
  have hfits : ∀ c ∈ players, ((s.client c).place = .signing ∧ c ∈ s.awaiting) ∨
      (s.client c).place = .exited ∨ (c ∈ s.awaiting ∧ HasOpponent (s.client c).place ∧
        finished (s.client c).place < rpsClientRounds) := by
    intro c hc
    obtain ⟨i, hi⟩ := index_of_mem hrange hc
    have hfits := hs.fits i (hi ▸ hc)
    rw [← hi, hmail] at hfits
    have hsend := hsilent c hc
    unfold RpsClient.send at hsend
    cases hfits with
    | waits place _ heard => exact Or.inl ⟨place, heard⟩
    | exited place => exact Or.inr (Or.inl place)
    | recorded place lt _ _ _ heard =>
      refine Or.inr (Or.inr ⟨heard, ?_, ?_⟩)
      · rw [place]
        trivial
      · rw [place]
        exact lt
    | signup place => simp [place] at hsend
    | round place => simp [place] at hsend
    | quit place => simp [place] at hsend
    | signing _ _ sent => cases sent
    | playing _ _ _ _ _ sent => cases sent
    | quitting _ _ _ sent => cases sent
  rcases hfits c hc with h | h | ⟨heard, hopp, hlt⟩
  · exact Or.inl h
  · exact Or.inr h
  · obtain ⟨d, hd, hcd, -⟩ := hs.paired c hc hopp
    have hother := hcd.other
    rcases hfits d hd with ⟨place, -⟩ | place | ⟨heard', -⟩
    · rw [place] at hother
      exact hother.elim
    · rw [hcd.rounds, place] at hlt
      exact absurd hlt (lt_irrefl _)
    · exact absurd ⟨heard, heard'⟩ hcd.once

/-- A set whose members have partners in it is even. -/
theorem even_card_of_partners {t : Finset ℤ} (f : ℤ → ℤ) (hmem : ∀ c ∈ t, f c ∈ t)
    (hne : ∀ c ∈ t, f c ≠ c) (hback : ∀ c ∈ t, f (f c) = c) : 2 ∣ t.card := by
  induction t using Finset.strongInduction with
  | H t ih =>
    rcases t.eq_empty_or_nonempty with rfl | ⟨c, hc⟩
    · exact dvd_zero 2
    have hpartner : f c ∈ t.erase c := Finset.mem_erase.mpr ⟨hne c hc, hmem c hc⟩
    have hcard : ((t.erase c).erase (f c)).card + 2 = t.card := by
      have h₁ := Finset.card_erase_add_one hpartner
      have h₂ := Finset.card_erase_add_one hc
      omega
    have hsub : (t.erase c).erase (f c) ⊂ t :=
      (Finset.erase_subset _ _).trans_ssubset (Finset.erase_ssubset hc)
    have hrest : ∀ d ∈ (t.erase c).erase (f c), d ∈ t ∧ d ≠ c ∧ d ≠ f c := by
      intro d hd
      obtain ⟨hdf, hd⟩ := Finset.mem_erase.mp hd
      obtain ⟨hdc, hd⟩ := Finset.mem_erase.mp hd
      exact ⟨hd, hdc, hdf⟩
    have hdvd := ih _ hsub
      (by
        intro d hd
        obtain ⟨hd, hdc, hdf⟩ := hrest d hd
        refine Finset.mem_erase.mpr ⟨fun h => hdc ?_,
          Finset.mem_erase.mpr ⟨fun h => hdf ?_, hmem d hd⟩⟩
        · rw [← hback d hd, h, hback c hc]
        · rw [← hback d hd, h])
      (fun d hd => hne d (hrest d hd).1) fun d hd => hback d (hrest d hd).1
    omega

/-- Opponents come in pairs. -/
theorem Consistency.even_card (hs : Consistency name players s a)
    (hname : ∀ c ∈ players, whoIs (name c) = c)
    (hstuck : ∀ c ∈ players, (s.client c).place = .signing ∨ (s.client c).place = .exited) :
    2 ∣ (players.filter fun c => (s.client c).place = .exited).card := by
  have hpartner : ∀ c ∈ players.filter fun c => (s.client c).place = .exited,
      whoIs (s.client c).reply.opponent ∈ (players.filter fun c => (s.client c).place = .exited) ∧
        c ≠ whoIs (s.client c).reply.opponent ∧
        whoIs (s.client (whoIs (s.client c).reply.opponent)).reply.opponent = c := by
    intro c hc
    obtain ⟨hc, place⟩ := Finset.mem_filter.mp hc
    obtain ⟨d, hd, hcd, hdc⟩ := hs.paired c hc (by rw [place]; trivial)
    rw [hcd.opponent, hname d hd, hdc.opponent, hname c hc]
    refine ⟨Finset.mem_filter.mpr ⟨hd, (hstuck d hd).resolve_left fun hplace => ?_⟩, hcd.ne, rfl⟩
    have hother := hcd.other
    rw [hplace] at hother
    exact hother
  exact even_card_of_partners (fun c => whoIs (s.client c).reply.opponent)
    (fun c hc => (hpartner c hc).1) (fun c hc => (hpartner c hc).2.1.symm)
    fun c hc => (hpartner c hc).2.2

section Runs

variable {s₀ : Tournament ν} {n : ℕ} {h : List (RPSExchange ν)}
  (hname : ∀ c ∈ players, whoIs (name c) = c) (hrange : ∀ c ∈ players, 0 ≤ c ∧ c < 64)
  (h₀ : Starts name players s₀) (r : Network.Runs rpsClient (rpsServer whoIs) players s₀ n h s)
include hname hrange h₀ r

/-- **A tournament ends.**  It takes at most ten steps for each player, and where no step is left
every player has played its three rounds and quit, but for one that waits for an opponent when the
number of players is odd. -/
theorem tournament_ends :
    n ≤ 10 * players.card ∧
      (Network.Stuck rpsClient (rpsServer whoIs) players s →
        (players.filter fun c => (s.client c).place ≠ .exited).card = players.card % 2 ∧
          ∀ c ∈ players, ((s.client c).place = .exited ∧
              (s.client c).results.length = rpsClientRounds) ∨
            ((s.client c).place = .signing ∧ c ∈ s.awaiting)) := by
  obtain ⟨a, hs⟩ := h₀.consistent hname hrange r
  constructor
  · have hle := r.steps_le messagesLeft messagesLeft_send messagesLeft_resume
    have hsum : ∑ c ∈ players, 2 * messagesLeft (s₀.client c) = 10 * players.card := by
      rw [Finset.sum_const_nat (m := 10), mul_comm]
      intro c hc
      rw [messagesLeft, (h₀.clients c hc).1]
      rfl
    rw [h₀.mailbox, List.length_nil] at hle
    omega
  · intro hstuck
    have hall := fun c (hc : c ∈ players) => hs.stuck hname hrange hstuck hc
    refine ⟨?_, fun c hc => ?_⟩
    · have heven := hs.even_card hname fun c hc => (hall c hc).imp And.left id
      have hone : (players.filter fun c => (s.client c).place ≠ .exited).card ≤ 1 := by
        rw [Finset.card_le_one]
        intro c hc d hd
        obtain ⟨hc, hnc⟩ := Finset.mem_filter.mp hc
        obtain ⟨hd, hnd⟩ := Finset.mem_filter.mp hd
        obtain ⟨hcp, hca⟩ := (hall c hc).resolve_right hnc
        obtain ⟨hdp, hda⟩ := (hall d hd).resolve_right hnd
        obtain ⟨m, hm, hmn⟩ := hs.waits c hca hcp
        obtain ⟨m', hm', hmn'⟩ := hs.waits d hda hdp
        obtain rfl := Option.mem_unique hm hm'
        rw [← hname c hc, ← hmn, hmn', hname d hd]
      have hsplit := Finset.card_filter_add_card_filter_not (s := players)
        fun c => (s.client c).place = .exited
      simp only [← ne_eq] at hsplit
      omega
    · rcases hall c hc with h | h
      · exact Or.inr h
      · refine Or.inl ⟨h, ?_⟩
        rw [(hs.scores c hc).1, h, finished]

end Runs

theorem tournament_ends_pair : ∃ s h,
    Network.Runs rpsClient (rpsServer id) {1, 2} pairStart pairTurns.length h s ∧
      pairTurns.length ≤ 10 * ({1, 2} : Finset ℤ).card ∧
      Network.Stuck rpsClient (rpsServer id) {1, 2} s ∧
      (({1, 2} : Finset ℤ).filter fun c => (s.client c).place ≠ .exited).card = 2 % 2 := by
  obtain ⟨s, h, hruns, hmail, hplace₁, hplace₂, -⟩ := pairTurns_runs
  have hstuck : Network.Stuck rpsClient (rpsServer id) {1, 2} s := by
    intro l s' step
    cases step with
    | @call c clo m g hc sends =>
      change RpsClient.send _ _ = _ at sends
      unfold RpsClient.send at sends
      rcases Finset.mem_insert.mp hc with rfl | hc
      · simp [hplace₁] at sends
      · rw [Finset.mem_singleton.mp hc] at sends
        simp [hplace₂] at sends
    | serve first =>
      rw [hmail] at first
      cases first
  have hends := tournament_ends (fun _ _ => rfl) (by decide) pairStart_starts hruns
  exact ⟨s, h, hruns, hends.1, hstuck, (hends.2 hstuck).1⟩

end Step

end Rps

end RealtimeKernel
