import Mathlib.Algebra.Order.BigOperators.Group.Finset
import RealtimeKernel.Lib.Servers

/-!
# Clients that run programs

Each client of a server runs a program of its own.  It sends a message and is blocked until the
server replies to it.  Messages wait in a mailbox in the order in which they were sent, and the
server handles the first of them; a reply resumes its client if the server has received the
client's message, and is lost otherwise.  The steps of the clients and of the server interleave
in any order.
-/

namespace RealtimeKernel.Lib

universe w

variable {σ τ μ ρ : Type w} {γ α ε : Type*}

/-- The program of a client: the message that it sends next, which may depend on an input, and
how a reply to it goes on.  A program that is blocked, or at its end, sends nothing. -/
structure Program (γ μ ρ α : Type*) where
  send : γ → α → Option (μ × γ)
  resume : γ → ρ → γ

/-- The server, the clients, the messages the server has not received, and the clients whose
message it has received and not answered. -/
structure Network (σ τ μ : Type w) (γ : Type*) where
  server : σ
  client : τ → γ
  mailbox : List (τ × μ)
  awaiting : Finset τ

namespace Network

variable [DecidableEq τ]

/-- Makes the replies, one after the other. -/
def deliver (P : Program γ μ ρ α) :
    (τ → γ) × Finset τ → List (τ × ρ) → (τ → γ) × Finset τ
  | s, [] => s
  | (client, awaiting), (c, r) :: rs =>
    if c ∈ awaiting then
      deliver P (Function.update client c (P.resume (client c) r), awaiting.erase c) rs
    else deliver P (client, awaiting) rs

/-- A step of one of the clients, or of the server; the exchanges that it makes. -/
inductive Step (P : Program γ μ ρ α) (handle : Server σ τ μ ρ ε) (clients : Finset τ)
    (s : Network σ τ μ γ) : List (Exchange τ μ ρ) → Network σ τ μ γ → Prop
  | call {c : τ} {a : α} {m : μ} {g : γ} (client : c ∈ clients)
      (sends : P.send (s.client c) a = some (m, g)) :
      Step P handle clients s []
        { s with client := Function.update s.client c g, mailbox := s.mailbox ++ [(c, m)] }
  | serve {c : τ} {m : μ} {rest : List (τ × μ)} {server : σ} {rs : List (τ × ρ)}
      (first : s.mailbox = (c, m) :: rest) (handles : handle s.server c m = .ok (server, rs)) :
      Step P handle clients s [⟨c, m, rs⟩]
        { server := server
          client := (deliver P (s.client, insert c s.awaiting) rs).1
          mailbox := rest
          awaiting := (deliver P (s.client, insert c s.awaiting) rs).2 }

/-- From `s₀` the network has taken `n` steps, in which the server made the exchanges `h`. -/
inductive Runs (P : Program γ μ ρ α) (handle : Server σ τ μ ρ ε) (clients : Finset τ)
    (s₀ : Network σ τ μ γ) : ℕ → List (Exchange τ μ ρ) → Network σ τ μ γ → Prop
  | refl : Runs P handle clients s₀ 0 [] s₀
  | tail {n : ℕ} {h l : List (Exchange τ μ ρ)} {s s' : Network σ τ μ γ} :
      Runs P handle clients s₀ n h s → Step P handle clients s l s' →
      Runs P handle clients s₀ (n + 1) (h ++ l) s'

/-- Whose step it is; a client has the input `a`. -/
inductive Turn (τ : Type w) (α : Type*)
  | call (c : τ) (a : α)
  | serve

/-- The step of a turn. -/
def turn (P : Program γ μ ρ α) (handle : Server σ τ μ ρ ε) (clients : Finset τ)
    (s : Network σ τ μ γ) : Turn τ α → Option (Network σ τ μ γ × List (Exchange τ μ ρ))
  | .call c a =>
    if c ∈ clients then
      (P.send (s.client c) a).map fun (m, g) =>
        ({ s with client := Function.update s.client c g, mailbox := s.mailbox ++ [(c, m)] }, [])
    else none
  | .serve =>
    match s.mailbox with
    | [] => none
    | (c, m) :: rest =>
      match handle s.server c m with
      | .error _ => none
      | .ok (server, rs) =>
        let (client, awaiting) := deliver P (s.client, insert c s.awaiting) rs
        some (⟨server, client, rest, awaiting⟩, [⟨c, m, rs⟩])

/-- The steps of a list of turns. -/
def turns (P : Program γ μ ρ α) (handle : Server σ τ μ ρ ε) (clients : Finset τ) :
    List (Turn τ α) → Network σ τ μ γ → Option (Network σ τ μ γ × List (Exchange τ μ ρ))
  | [], s => some (s, [])
  | t :: ts, s => do
    let (s', l) ← turn P handle clients s t
    let (s'', h) ← turns P handle clients ts s'
    some (s'', l ++ h)

/-- No step is possible. -/
def Stuck (P : Program γ μ ρ α) (handle : Server σ τ μ ρ ε) (clients : Finset τ)
    (s : Network σ τ μ γ) : Prop := ∀ l s', ¬ Step P handle clients s l s'

variable {P : Program γ μ ρ α} {handle : Server σ τ μ ρ ε} {clients awaiting : Finset τ}
  {s₀ s s' : Network σ τ μ γ} {h l : List (Exchange τ μ ρ)} {n : ℕ} {client : τ → γ} {c d : τ}
  {r : ρ} {rs : List (τ × ρ)}

/-! ### Replies -/

theorem deliver_nil : deliver P (client, awaiting) [] = (client, awaiting) := rfl

theorem deliver_cons (hc : c ∈ awaiting) : deliver P (client, awaiting) ((c, r) :: rs) =
    deliver P (Function.update client c (P.resume (client c) r), awaiting.erase c) rs := by
  rw [deliver, if_pos hc]

/-- A reply to the client that has just been heard. -/
theorem deliver_one (hc : c ∉ awaiting) : deliver P (client, insert c awaiting) [(c, r)] =
    (Function.update client c (P.resume (client c) r), awaiting) := by
  rw [deliver_cons (Finset.mem_insert_self c awaiting), deliver_nil, Finset.erase_insert hc]

/-- Replies to two clients that have been heard. -/
theorem deliver_two {r' : ρ} (hc : c ∈ awaiting) (hd : d ∈ awaiting) (hdc : d ≠ c) :
    deliver P (client, awaiting) [(c, r), (d, r')] =
      (Function.update (Function.update client c (P.resume (client c) r)) d
        (P.resume (client d) r'), (awaiting.erase c).erase d) := by
  rw [deliver_cons hc, deliver_cons (Finset.mem_erase.mpr ⟨hdc, hd⟩), deliver_nil,
    Function.update_of_ne hdc]

/-- Replies that go to clients that wait, one to each, resume these clients and no others. -/
theorem deliver_spec (client : τ → γ) (hnodup : (rs.map Prod.fst).Nodup)
    (hmem : ∀ d ∈ rs.map Prod.fst, d ∈ awaiting) :
    (∀ d r, (d, r) ∈ rs → (deliver P (client, awaiting) rs).1 d = P.resume (client d) r) ∧
    (∀ d ∉ rs.map Prod.fst, (deliver P (client, awaiting) rs).1 d = client d) ∧
    (deliver P (client, awaiting) rs).2 = awaiting \ (rs.map Prod.fst).toFinset := by
  induction rs generalizing client awaiting with
  | nil =>
    refine ⟨fun d r h => absurd h List.not_mem_nil, fun d _ => rfl, ?_⟩
    rw [List.map_nil, List.toFinset_nil, Finset.sdiff_empty, deliver_nil]
  | cons e rs ih =>
    obtain ⟨c, r⟩ := e
    rw [List.map_cons, List.nodup_cons] at hnodup
    have hne : ∀ d ∈ rs.map Prod.fst, d ≠ c := fun d hd hdc => hnodup.1 (hdc ▸ hd)
    have hc : c ∈ awaiting := hmem c List.mem_cons_self
    have hmem' : ∀ d ∈ rs.map Prod.fst, d ∈ awaiting.erase c := fun d hd =>
      Finset.mem_erase.mpr ⟨hne d hd, hmem d (List.mem_cons_of_mem _ hd)⟩
    obtain ⟨hto, hothers, hawaiting⟩ :=
      ih (Function.update client c (P.resume (client c) r)) hnodup.2 hmem'
    rw [deliver_cons hc]
    refine ⟨fun d r' h => ?_, fun d h => ?_, ?_⟩
    · rcases List.mem_cons.mp h with h | h
      · obtain ⟨rfl, rfl⟩ := Prod.mk.inj h
        rw [hothers d hnodup.1, Function.update_self]
      · rw [hto d r' h, Function.update_of_ne (hne d (List.mem_map_of_mem h))]
    · rw [List.map_cons, List.mem_cons, not_or] at h
      rw [hothers d h.2, Function.update_of_ne h.1]
    · rw [hawaiting, List.map_cons, List.toFinset_cons, Finset.sdiff_insert,
        Finset.erase_sdiff_comm]

/-- Replies leave no client with more messages to send. -/
theorem deliver_measure (f : γ → ℕ) (hresume : ∀ g r, f (P.resume g r) ≤ f g) (c : τ) :
    f ((deliver P (client, awaiting) rs).1 c) ≤ f (client c) := by
  induction rs generalizing client awaiting with
  | nil => exact le_rfl
  | cons e rs ih =>
    obtain ⟨d, r⟩ := e
    rw [deliver]
    split
    · refine ih.trans ?_
      by_cases hcd : c = d
      · subst hcd
        rw [Function.update_self]
        exact hresume _ r
      · rw [Function.update_of_ne hcd]
    · exact ih

/-! ### Runs -/

theorem Step.of_turn {t : Turn τ α} (ht : turn P handle clients s t = some (s', l)) :
    Step P handle clients s l s' := by
  cases t with
  | call c a =>
    simp only [turn] at ht
    split at ht
    · rename_i hc
      obtain ⟨⟨m, g⟩, hsend, hs⟩ := Option.map_eq_some_iff.mp ht
      cases hs
      exact .call hc hsend
    · cases ht
  | serve =>
    simp only [turn] at ht
    split at ht
    · cases ht
    · rename_i first
      split at ht
      · cases ht
      · rename_i handles
        cases ht
        exact .serve first handles

theorem Runs.turns {ts : List (Turn τ α)} {h₀ : List (Exchange τ μ ρ)}
    (r : Runs P handle clients s₀ n h₀ s) (hts : turns P handle clients ts s = some (s', h)) :
    Runs P handle clients s₀ (n + ts.length) (h₀ ++ h) s' := by
  induction ts generalizing n h₀ h s with
  | nil =>
    cases hts
    rwa [List.append_nil]
  | cons t ts ih =>
    obtain ⟨⟨s₁, l⟩, ht, hts⟩ := Option.bind_eq_some_iff.mp hts
    obtain ⟨⟨s₂, h'⟩, hts', heq⟩ := Option.bind_eq_some_iff.mp hts
    cases heq
    have := ih (r.tail (.of_turn ht)) hts'
    rwa [List.append_assoc, Nat.add_assoc, Nat.add_comm 1] at this

/-- **The invariant rule.** -/
theorem Runs.invariant {I : Network σ τ μ γ → Prop} (r : Runs P handle clients s₀ n h s)
    (h₀ : I s₀) (step : ∀ s l s', I s → Step P handle clients s l s' → I s') : I s := by
  induction r with
  | refl => exact h₀
  | tail _ hs ih => exact step _ _ _ ih hs

/-- The server of a network serves. -/
theorem Runs.serves (r : Runs P handle clients s₀ n h s) :
    Serves handle s₀.server h s.server := by
  induction r with
  | refl => exact .nil
  | tail _ hs ih =>
    cases hs with
    | call => rwa [List.append_nil]
    | serve first handles => exact .snoc ih handles

/-- **The bound on runs**: where every client sends at most `f` messages more, a run takes at
most two steps for each of them. -/
theorem Runs.steps_le (f : γ → ℕ)
    (hsend : ∀ g a m g', P.send g a = some (m, g') → f g' < f g)
    (hresume : ∀ g r, f (P.resume g r) ≤ f g) (r : Runs P handle clients s₀ n h s) :
    n + (s.mailbox.length + ∑ c ∈ clients, 2 * f (s.client c)) ≤
      s₀.mailbox.length + ∑ c ∈ clients, 2 * f (s₀.client c) := by
  induction r with
  | refl => rw [Nat.zero_add]
  | @tail n h l s s' _ hs ih =>
    cases hs with
    | @call c a m g client sends =>
      have hlt : 2 * f g + 2 ≤ 2 * f (s.client c) := by
        have := hsend _ _ _ _ sends
        omega
      have hsum : ∑ d ∈ clients, 2 * f (Function.update s.client c g d) + 2 ≤
          ∑ d ∈ clients, 2 * f (s.client d) := by
        rw [← Finset.add_sum_erase clients _ client, ← Finset.add_sum_erase clients _ client,
          Function.update_self]
        have hrest : ∑ d ∈ clients.erase c, 2 * f (Function.update s.client c g d) =
            ∑ d ∈ clients.erase c, 2 * f (s.client d) :=
          Finset.sum_congr rfl fun d hd => by rw [Function.update_of_ne (Finset.ne_of_mem_erase hd)]
        omega
      have hlen : (s.mailbox ++ [(c, m)]).length = s.mailbox.length + 1 := by simp
      dsimp only
      omega
    | @serve c m rest server rs first handles =>
      have hsum : ∑ d ∈ clients,
          2 * f ((deliver P (s.client, insert c s.awaiting) rs).1 d) ≤
          ∑ d ∈ clients, 2 * f (s.client d) :=
        Finset.sum_le_sum fun d _ => Nat.mul_le_mul_left 2 (deliver_measure f hresume d)
      rw [first, List.length_cons] at ih
      dsimp only
      omega

end Network

end RealtimeKernel.Lib
