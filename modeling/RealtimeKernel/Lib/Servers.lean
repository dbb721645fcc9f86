import Mathlib.Data.Finset.Basic
import Mathlib.Data.List.Count
import Mathlib.Data.List.Infix
import RealtimeKernel.Lib.Runs

/-!
# Servers and their clients

A server handles one message at a time and may answer any of its clients.  A history is the
list of the exchanges so far: who sent which message, and the replies the server made while it
handled it, in order.  A client waits from its message until the next reply to it, and a client
that is *patient* sends nothing while it waits.
-/

namespace RealtimeKernel.Lib

universe w

variable {σ τ μ ρ : Type w} {ε : Type*}

/-- One message a server handled and the replies it made. -/
structure Exchange (τ μ ρ : Type w) where
  sender : τ
  message : μ
  replies : List (τ × ρ)
  deriving DecidableEq

/-- What a server does with a message. -/
abbrev Server (σ τ μ ρ : Type w) (ε : Type*) := σ → τ → μ → Except ε (σ × List (τ × ρ))

/-- Started in `s₀`, the server has made the exchanges and is in state `s`. -/
inductive Serves (handle : Server σ τ μ ρ ε) (s₀ : σ) : List (Exchange τ μ ρ) → σ → Prop
  | nil : Serves handle s₀ [] s₀
  | snoc {h : List (Exchange τ μ ρ)} {s s' : σ} {c : τ} {m : μ} {rs : List (τ × ρ)} :
      Serves handle s₀ h s → handle s c m = .ok (s', rs) →
      Serves handle s₀ (h ++ [⟨c, m, rs⟩]) s'

/-- Every exchange of a history stands in the relation `P` to what came before it. -/
def Stepwise (P : List (Exchange τ μ ρ) → Exchange τ μ ρ → Prop)
    (h : List (Exchange τ μ ρ)) : Prop :=
  ∀ p e q, h = p ++ e :: q → P p e

section Histories

variable {P : List (Exchange τ μ ρ) → Exchange τ μ ρ → Prop} {h : List (Exchange τ μ ρ)}
  {e : Exchange τ μ ρ} {handle : Server σ τ μ ρ ε} {s₀ s : σ}

theorem stepwise_nil : Stepwise P [] := along_nil

theorem stepwise_snoc : Stepwise P (h ++ [e]) ↔ Stepwise P h ∧ P h e := along_snoc

theorem Stepwise.left {q : List (Exchange τ μ ρ)} (hs : Stepwise P (h ++ q)) : Stepwise P h :=
  Along.left hs

theorem Stepwise.mono {Q : List (Exchange τ μ ρ) → Exchange τ μ ρ → Prop} (hs : Stepwise P h)
    (hPQ : ∀ p e, P p e → Q p e) : Stepwise Q h :=
  fun p e q hpq => hPQ p e (hs p e q hpq)

/-- **The invariant rule.**  What holds before the first message and is carried through every
exchange that satisfies `P` holds after any history of such exchanges. -/
theorem Serves.invariant {I : List (Exchange τ μ ρ) → σ → Prop} (r : Serves handle s₀ h s)
    (h₀ : I [] s₀) (hP : Stepwise P h)
    (step : ∀ h s c m s' rs, I h s → P h ⟨c, m, rs⟩ → handle s c m = .ok (s', rs) →
      I (h ++ [⟨c, m, rs⟩]) s') : I h s := by
  induction r with
  | nil => exact h₀
  | snoc _ hm ih =>
    obtain ⟨hs, he⟩ := stepwise_snoc.mp hP
    exact step _ _ _ _ _ _ (ih hs) he hm

/-- An exchange of a run was made in a state that the exchanges before it led to. -/
theorem Serves.split (r : Serves handle s₀ h s) {p q : List (Exchange τ μ ρ)}
    (hh : h = p ++ e :: q) :
    ∃ s₁ s₂, Serves handle s₀ p s₁ ∧ handle s₁ e.sender e.message = .ok (s₂, e.replies) := by
  induction r generalizing q with
  | nil => simp at hh
  | @snoc h' s₁ s₂ c m rs r hm ih =>
    rcases List.eq_nil_or_concat q with rfl | ⟨q', f, rfl⟩
    · obtain ⟨rfl, he⟩ := List.append_inj' hh rfl
      obtain rfl := (List.cons.inj he).1
      exact ⟨s₁, s₂, r, hm⟩
    · have hh' : h' ++ [⟨c, m, rs⟩] = (p ++ e :: q') ++ [f] := by simpa using hh
      exact ih (List.append_inj' hh' rfl).1

/-- Handles a list of messages. -/
def serve (handle : Server σ τ μ ρ ε) : σ → List (τ × μ) → Except ε (List (Exchange τ μ ρ) × σ)
  | s, [] => .ok ([], s)
  | s, (c, m) :: ms => do
    let (s', rs) ← handle s c m
    let (h, s'') ← serve handle s' ms
    .ok (⟨c, m, rs⟩ :: h, s'')

theorem Serves.cons {s₁ : σ} {c : τ} {m : μ} {rs : List (τ × ρ)}
    (hm : handle s₀ c m = .ok (s₁, rs)) (r : Serves handle s₁ h s) :
    Serves handle s₀ (⟨c, m, rs⟩ :: h) s := by
  induction r with
  | nil => exact .snoc .nil hm
  | snoc _ hm' ih => exact .snoc ih hm'

theorem serves_of_serve {ms : List (τ × μ)} (hs : serve handle s₀ ms = .ok (h, s)) :
    Serves handle s₀ h s := by
  induction ms generalizing s₀ h with
  | nil =>
    cases hs
    exact .nil
  | cons cm ms ih =>
    obtain ⟨c, m⟩ := cm
    obtain ⟨⟨s₁, rs⟩, hm, hs⟩ := bind_eq_ok.mp hs
    obtain ⟨⟨h', s'⟩, hr, hlast⟩ := bind_eq_ok.mp hs
    cases hlast
    exact .cons hm (ih hr)

end Histories

/-! ### What a server reads of a message -/

/-- One turn of a server's loop: what it reads of what it was sent, and what it does then. -/
abbrev Turn (σ τ δ μ ρ : Type w) (ε : Type*) := σ → τ → δ → Except ε (μ × σ × List (τ × ρ))

/-- Started in `s₀`, the server has taken turns that all met the condition `C`. -/
inductive Attends {δ : Type w} (turn : Turn σ τ δ μ ρ ε)
    (C : List (Exchange τ μ ρ) → σ → τ → δ → Prop) (s₀ : σ) : List (Exchange τ μ ρ) → σ → Prop
  | nil : Attends turn C s₀ [] s₀
  | snoc {h : List (Exchange τ μ ρ)} {s s' : σ} {c : τ} {d : δ} {m : μ} {rs : List (τ × ρ)} :
      Attends turn C s₀ h s → C h s c d → turn s c d = .ok (m, s', rs) →
      Attends turn C s₀ (h ++ [⟨c, m, rs⟩]) s'

/-- Takes turns as long as they meet the condition. -/
def attend {δ : Type w} (turn : Turn σ τ δ μ ρ ε) (C : List (Exchange τ μ ρ) → σ → τ → δ → Prop)
    [∀ h s c d, Decidable (C h s c d)] :
    List (Exchange τ μ ρ) → σ → List (τ × δ) → Option (List (Exchange τ μ ρ) × σ)
  | h, s, [] => some (h, s)
  | h, s, (c, d) :: ds =>
    if C h s c d then
      match turn s c d with
      | .ok (m, s', rs) => attend turn C (h ++ [⟨c, m, rs⟩]) s' ds
      | .error _ => none
    else none

theorem Attends.attend {δ : Type w} {turn : Turn σ τ δ μ ρ ε}
    {C : List (Exchange τ μ ρ) → σ → τ → δ → Prop} [∀ h s c d, Decidable (C h s c d)] {s₀ s s' : σ}
    {h h' : List (Exchange τ μ ρ)} {ds : List (τ × δ)} (r : Attends turn C s₀ h s)
    (ha : Lib.attend turn C h s ds = some (h', s')) : Attends turn C s₀ h' s' := by
  induction ds generalizing h s with
  | nil =>
    cases ha
    exact r
  | cons cd ds ih =>
    obtain ⟨c, d⟩ := cd
    unfold Lib.attend at ha
    split at ha
    · rename_i hc
      split at ha
      · rename_i hturn
        exact ih (.snoc r hc hturn) ha
      · cases ha
    · cases ha

/-! ### Waiting clients -/

section Waiting

variable [DecidableEq τ] {h : List (Exchange τ μ ρ)} {e : Exchange τ μ ρ} {c : τ}

/-- The clients that wait for a reply. -/
def waiting (h : List (Exchange τ μ ρ)) : Finset τ :=
  h.foldl (fun w e => insert e.sender w \ (e.replies.map Prod.fst).toFinset) ∅

theorem waiting_snoc : waiting (h ++ [e]) =
    insert e.sender (waiting h) \ (e.replies.map Prod.fst).toFinset := by
  simp [waiting]

theorem mem_waiting_snoc : c ∈ waiting (h ++ [e]) ↔
    (c = e.sender ∨ c ∈ waiting h) ∧ c ∉ e.replies.map Prod.fst := by
  simp [waiting_snoc]

/-- The sender was not waiting. -/
def Patient (h : List (Exchange τ μ ρ)) (e : Exchange τ μ ρ) : Prop := e.sender ∉ waiting h

instance (h : List (Exchange τ μ ρ)) (e : Exchange τ μ ρ) : Decidable (Patient h e) :=
  inferInstanceAs (Decidable (_ ∉ _))

/-- The last message of a client. -/
def lastMessage (h : List (Exchange τ μ ρ)) (c : τ) : Option μ :=
  (h.filter fun e => decide (e.sender = c)).getLast?.map Exchange.message

/-- The message a client waits to be answered. -/
def unanswered (h : List (Exchange τ μ ρ)) (c : τ) : Option μ :=
  if c ∈ waiting h then lastMessage h c else none

@[simp] theorem lastMessage_nil : lastMessage ([] : List (Exchange τ μ ρ)) c = none := rfl

theorem lastMessage_snoc : lastMessage (h ++ [e]) c =
    if e.sender = c then some e.message else lastMessage h c := by
  unfold lastMessage
  rw [List.filter_append]
  by_cases hc : e.sender = c
  · simp [hc]
  · simp [hc]

@[simp] theorem unanswered_nil : unanswered ([] : List (Exchange τ μ ρ)) c = none := rfl

theorem unanswered_snoc : unanswered (h ++ [e]) c =
    if c ∈ e.replies.map Prod.fst then none
    else if e.sender = c then some e.message else unanswered h c := by
  unfold unanswered
  rw [lastMessage_snoc]
  simp only [mem_waiting_snoc]
  by_cases hr : c ∈ e.replies.map Prod.fst
  · simp [hr]
  · by_cases hc : e.sender = c
    · simp [hr, hc]
    · have hc' : c ≠ e.sender := fun heq => hc heq.symm
      simp [hr, hc, hc']

/-- What is unanswered after one more exchange is the message of the sender, or an old one. -/
theorem unanswered_snoc_cases {m : μ} (hm : unanswered (h ++ [e]) c = some m) :
    c ∉ e.replies.map Prod.fst ∧
      ((e.sender = c ∧ e.message = m) ∨ (e.sender ≠ c ∧ unanswered h c = some m)) := by
  rw [unanswered_snoc] at hm
  split at hm
  · cases hm
  · rename_i hr
    refine ⟨hr, ?_⟩
    split at hm
    · rename_i hsend
      exact Or.inl ⟨hsend, Option.some.inj hm⟩
    · rename_i hsend
      exact Or.inr ⟨hsend, hm⟩

theorem lastMessage_of_unanswered {m : μ} (hm : unanswered h c = some m) :
    lastMessage h c = some m := by
  unfold unanswered at hm
  split at hm
  · exact hm
  · cases hm

/-- The last message of a client was sent in one of the exchanges. -/
theorem exists_of_lastMessage {m : μ} (hm : lastMessage h c = some m) :
    ∃ p e q, h = p ++ e :: q ∧ e.sender = c ∧ e.message = m := by
  induction h using List.reverseRecOn with
  | nil => cases hm
  | append_singleton h e ih =>
    rw [lastMessage_snoc] at hm
    split at hm
    · rename_i hc
      exact ⟨h, e, [], rfl, hc, Option.some.inj hm⟩
    · obtain ⟨p, f, q, rfl, hf⟩ := ih hm
      exact ⟨p, f, q ++ [e], by simp, hf⟩

/-- A client waits just when a message of it is unanswered. -/
theorem mem_waiting_iff : c ∈ waiting h ↔ ∃ m, unanswered h c = some m := by
  induction h using List.reverseRecOn with
  | nil => simp [waiting]
  | append_singleton h e ih =>
    rw [mem_waiting_snoc, unanswered_snoc, ih]
    by_cases hr : c ∈ e.replies.map Prod.fst
    · simp [hr]
    · by_cases hc : e.sender = c
      · simp [hr, hc]
      · have hc' : c ≠ e.sender := fun heq => hc heq.symm
        simp [hr, hc, hc']

/-- How often a client has sent a message. -/
def requests (h : List (Exchange τ μ ρ)) (c : τ) : ℕ := (h.map Exchange.sender).count c

/-- How often a client has been answered. -/
def answers (h : List (Exchange τ μ ρ)) (c : τ) : ℕ :=
  (h.flatMap fun e => e.replies.map Prod.fst).count c

theorem requests_snoc : requests (h ++ [e]) c = requests h c + if e.sender = c then 1 else 0 := by
  simp [requests, List.count_cons]

theorem answers_snoc : answers (h ++ [e]) c =
    answers h c + (e.replies.map Prod.fst).count c := by
  simp [answers]

/-- The server answers clients that wait, each once. -/
structure Fair (h : List (Exchange τ μ ρ)) (e : Exchange τ μ ρ) : Prop where
  nodup : (e.replies.map Prod.fst).Nodup
  mem : ∀ c ∈ e.replies.map Prod.fst, c = e.sender ∨ c ∈ waiting h

/-- **No request is lost and none is answered twice**: of the messages of a client all are
answered but the last, while it waits. -/
theorem requests_eq (hs : Stepwise (fun p e => Patient p e ∧ Fair p e) h) (c : τ) :
    requests h c = answers h c + if c ∈ waiting h then 1 else 0 := by
  induction h using List.reverseRecOn with
  | nil => simp [requests, answers, waiting]
  | append_singleton h e ih =>
    obtain ⟨hs, hpat, hfair⟩ := stepwise_snoc.mp hs
    have hcount : (e.replies.map Prod.fst).count c =
        if c ∈ e.replies.map Prod.fst then 1 else 0 := by
      split
      · rename_i hc
        exact List.count_eq_one_of_mem hfair.nodup hc
      · rename_i hc
        exact List.count_eq_zero_of_not_mem hc
    rw [requests_snoc, answers_snoc, ih hs, hcount]
    simp only [mem_waiting_snoc]
    by_cases hsend : e.sender = c
    · subst hsend
      have hw : e.sender ∉ waiting h := hpat
      by_cases hr : e.sender ∈ e.replies.map Prod.fst
      · simp [hw, hr]
      · simp [hw, hr]
    · have hsend' : c ≠ e.sender := fun h => hsend h.symm
      by_cases hr : c ∈ e.replies.map Prod.fst
      · have hw : c ∈ waiting h := (hfair.mem c hr).resolve_left hsend'
        simp [hsend, hw, hr]
      · simp [hsend, hsend', hr]

end Waiting

end RealtimeKernel.Lib
