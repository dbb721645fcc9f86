import Mathlib.Data.List.Forall2
import Mathlib.Data.List.Induction
import Mathlib.Tactic.Common

/-!
# Fallible computations, loops and their refinement

A C function that may stop the machine (a failed assertion, a null dereference) is a
function into `Except ε`.  Two such computations *refine* each other up to a relation when
they stop for the same reason or both return related results; `Refines.bind` composes this
through a sequence of calls.

A service loop runs `enter` and then `handle` once per input, for ever.  `Loop.Run` lists
the iterations of one run together with the state at each of the three places of an
iteration, so that a property of a whole history is an induction on the list.
-/

namespace RealtimeKernel.Lib

universe u v

variable {ε : Type v} {α β γ δ : Type u} {σ τ : Type u}

/-! ### Sequencing fallible computations -/

theorem bind_eq_ok {x : Except ε α} {f : α → Except ε β} {b : β} :
    (x >>= f) = .ok b ↔ ∃ a, x = .ok a ∧ f a = .ok b := by
  cases x with
  | error e => simp [bind, Except.bind]
  | ok a => simp [bind, Except.bind]

theorem map_eq_ok {x : Except ε α} {f : α → β} {b : β} :
    x.map f = .ok b ↔ ∃ a, x = .ok a ∧ f a = b := by
  cases x with
  | error e => simp [Except.map]
  | ok a => simp [Except.map]

@[simp] theorem ok_bind (a : α) (f : α → Except ε β) : (Except.ok a >>= f) = f a := rfl

@[simp] theorem error_bind (e : ε) (f : α → Except ε β) :
    ((Except.error e : Except ε α) >>= f) = .error e := rfl

/-- The computation returns and the test accepts its result. -/
def returns (x : Except ε α) (p : α → Bool) : Bool := x.toOption.any p

theorem returns_iff {x : Except ε α} {p : α → Bool} :
    returns x p = true ↔ ∃ a, x = .ok a ∧ p a = true := by
  cases x with
  | error e => simp [returns, Except.toOption]
  | ok a => simp [returns, Except.toOption]

/-- Why the computation stopped, if it did. -/
def failure : Except ε α → Option ε
  | .ok _ => none
  | .error e => some e

theorem failure_eq_some {x : Except ε α} {e : ε} : failure x = some e ↔ x = .error e := by
  cases x with
  | error e' => simp [failure]
  | ok a => simp [failure]

/-! ### Refinement of fallible computations -/

/-- Both computations stop with the same error, or both return and the results are related. -/
inductive Refines (R : α → β → Prop) : Except ε α → Except ε β → Prop
  | ok {a : α} {b : β} (h : R a b) : Refines R (.ok a) (.ok b)
  | error {e : ε} : Refines R (.error e) (.error e)

@[simp] theorem refines_ok {R : α → β → Prop} {a : α} {b : β} :
    Refines (ε := ε) R (.ok a) (.ok b) ↔ R a b :=
  ⟨fun h => by cases h; assumption, .ok⟩

@[simp] theorem refines_error {R : α → β → Prop} {e : ε} :
    Refines R (.error e) (.error e) := .error

/-- Refinement composes through `bind` when the continuations refine on related results. -/
theorem Refines.bind {R : α → β → Prop} {S : γ → δ → Prop} {x : Except ε α} {y : Except ε β}
    {f : α → Except ε γ} {g : β → Except ε δ} (h : Refines R x y)
    (hfg : ∀ a b, R a b → Refines S (f a) (g b)) : Refines S (x >>= f) (y >>= g) := by
  cases h with
  | ok h => exact hfg _ _ h
  | error => exact .error

theorem Refines.ok_left {R : α → β → Prop} {x : Except ε α} {y : Except ε β} {a : α}
    (h : Refines R x y) (hx : x = .ok a) : ∃ b, y = .ok b ∧ R a b := by
  subst hx
  cases h with
  | ok h => exact ⟨_, rfl, h⟩

theorem Refines.ok_right {R : α → β → Prop} {x : Except ε α} {y : Except ε β} {b : β}
    (h : Refines R x y) (hy : y = .ok b) : ∃ a, x = .ok a ∧ R a b := by
  subst hy
  cases h with
  | ok h => exact ⟨_, rfl, h⟩

theorem Refines.error_left {R : α → β → Prop} {x : Except ε α} {y : Except ε β} {e : ε}
    (h : Refines R x y) (hx : x = .error e) : y = .error e := by
  subst hx
  cases h with
  | error => rfl

theorem Refines.error_right {R : α → β → Prop} {x : Except ε α} {y : Except ε β} {e : ε}
    (h : Refines R x y) (hy : y = .error e) : x = .error e := by
  subst hy
  cases h with
  | error => rfl

/-! ### Properties of every prefix -/

section Along

variable {β : Type*} {P : List β → β → Prop} {l : List β} {e : β}

/-- Every entry of a list stands in the relation `P` to the entries before it. -/
def Along (P : List β → β → Prop) (l : List β) : Prop := ∀ p e q, l = p ++ e :: q → P p e

theorem along_nil : Along P [] := by
  intro p e q hpq
  simp at hpq

theorem along_snoc : Along P (l ++ [e]) ↔ Along P l ∧ P l e := by
  constructor
  · intro hs
    refine ⟨fun p f q hpq => hs p f (q ++ [e]) (by simp [hpq]), hs l e [] rfl⟩
  · rintro ⟨hs, he⟩ p f q hpq
    rcases List.eq_nil_or_concat q with rfl | ⟨q', g, rfl⟩
    · obtain ⟨rfl, hf⟩ := List.append_inj' hpq rfl
      obtain rfl := (List.cons.inj hf).1
      exact he
    · have hpq' : l ++ [e] = (p ++ f :: q') ++ [g] := by simpa using hpq
      exact hs p f q' (List.append_inj' hpq' rfl).1

theorem Along.left {q : List β} (hs : Along P (l ++ q)) : Along P l :=
  fun p e r hpr => hs p e (r ++ q) (by simp [hpr])

theorem along_iff : Along P l ↔ ∀ n, (hn : n < l.length) → P (l.take n) l[n] := by
  constructor
  · intro hs n hn
    apply hs _ _ (l.drop (n + 1))
    rw [List.getElem_cons_drop, List.take_append_drop]
  · rintro hs p e q rfl
    have hp := hs p.length (by simp)
    simpa using hp

instance [∀ p e, Decidable (P p e)] : Decidable (Along P l) := decidable_of_iff _ along_iff.symm

end Along

/-- What is collected along a list grows with its last element. -/
theorem filterMap_snoc {α β : Type*} (f : α → Option β) (l : List α) (e : α) :
    (l ++ [e]).filterMap f = l.filterMap f ++ (f e).toList := by
  rw [List.filterMap_append]
  cases he : f e with
  | none => simp [he]
  | some b => simp [he]

/-! ### Loops and their runs -/

/-- A service loop: each input is first taken in (`enter`) and then acted on (`handle`). -/
structure Loop (σ : Type u) (α : Type u) (ε : Type v) where
  enter : σ → α → Except ε σ
  handle : σ → α → Except ε σ

/-- One iteration of a loop: the state at the loop head, the input, the state in which the
input is handled, and the state at the next loop head. -/
structure Iter (σ : Type u) (α : Type u) where
  head : σ
  input : α
  mid : σ
  next : σ

variable {α : Type u}

/-- `L.Run s₀ h s`: started at `s₀`, the loop has made the iterations `h` and is at its head
in state `s`. -/
inductive Loop.Run (L : Loop σ α ε) (s₀ : σ) : List (Iter σ α) → σ → Prop
  | nil : Loop.Run L s₀ [] s₀
  | snoc {h : List (Iter σ α)} {s m s' : σ} {a : α} : Loop.Run L s₀ h s →
      L.enter s a = .ok m → L.handle m a = .ok s' → Loop.Run L s₀ (h ++ [⟨s, a, m, s'⟩]) s'

namespace Loop

variable {L : Loop σ α ε} {s₀ s : σ} {h : List (Iter σ α)}

/-- The iterations over a list of inputs, and the state after them. -/
def exec (L : Loop σ α ε) : σ → List α → Except ε (List (Iter σ α) × σ)
  | s, [] => .ok ([], s)
  | s, a :: as => do
    let m ← L.enter s a
    let s' ← L.handle m a
    let (h, s'') ← L.exec s' as
    .ok (⟨s, a, m, s'⟩ :: h, s'')

/-- A run can be started one iteration earlier. -/
theorem Run.cons {s₁ m : σ} {a : α} (hm : L.enter s₀ a = .ok m) (hs : L.handle m a = .ok s₁)
    (r : L.Run s₁ h s) : L.Run s₀ (⟨s₀, a, m, s₁⟩ :: h) s := by
  induction r with
  | nil => exact .snoc .nil hm hs
  | snoc _ hm' hs' ih => exact .snoc ih hm' hs'

/-- Every successful execution is a run over the same inputs. -/
theorem run_of_exec {as : List α} (hs : L.exec s₀ as = .ok (h, s)) :
    L.Run s₀ h s ∧ h.map Iter.input = as := by
  induction as generalizing s₀ h with
  | nil =>
    cases hs
    exact ⟨.nil, rfl⟩
  | cons a as ih =>
    simp only [exec, bind_eq_ok] at hs
    obtain ⟨m, hm, s₁, hs₁, ⟨h', s'⟩, hr, hlast⟩ := hs
    cases hlast
    obtain ⟨r, hmap⟩ := ih hr
    exact ⟨.cons hm hs₁ r, by simp [hmap]⟩

/-- **The invariant rule.**  What holds at the first loop head and is carried through every
iteration that satisfies `P` holds at the head reached by any run all of whose iterations
satisfy `P`. -/
theorem Run.invariant {I : σ → Prop} {P : Iter σ α → Prop} (r : L.Run s₀ h s) (h₀ : I s₀)
    (hP : ∀ i ∈ h, P i)
    (step : ∀ s a m s', I s → P ⟨s, a, m, s'⟩ → L.enter s a = .ok m → L.handle m a = .ok s' →
      I s') : I s := by
  induction r with
  | nil => exact h₀
  | snoc r hm hs ih =>
    exact step _ _ _ _ (ih fun i hi => hP i (by simp [hi])) (hP _ (by simp)) hm hs

/-- The invariant rule for a property of the state together with the history that led to it. -/
theorem Run.history {I : List (Iter σ α) → σ → Prop} {P : Iter σ α → Prop} (r : L.Run s₀ h s)
    (h₀ : I [] s₀) (hP : ∀ i ∈ h, P i)
    (step : ∀ h s a m s', L.Run s₀ h s → (∀ i ∈ h, P i) → I h s → P ⟨s, a, m, s'⟩ →
      L.enter s a = .ok m → L.handle m a = .ok s' → I (h ++ [⟨s, a, m, s'⟩]) s') : I h s := by
  induction r with
  | nil => exact h₀
  | snoc r hm hs ih =>
    have hP' := fun i hi => hP i (List.mem_append_left _ hi)
    exact step _ _ _ _ _ r hP' (ih hP') (hP _ (by simp)) hm hs

/-- Every iteration of a run starts at a loop head that an earlier part of the run reached. -/
theorem Run.split (r : L.Run s₀ h s) {h₁ h₂ : List (Iter σ α)} {i : Iter σ α}
    (hh : h = h₁ ++ i :: h₂) :
    L.Run s₀ h₁ i.head ∧ L.enter i.head i.input = .ok i.mid ∧
      L.handle i.mid i.input = .ok i.next ∧ L.Run s₀ (h₁ ++ [i]) i.next := by
  induction r generalizing h₂ with
  | nil => simp at hh
  | @snoc h' s m s' a r hm hs ih =>
    rcases List.eq_nil_or_concat h₂ with rfl | ⟨h₂', j, rfl⟩
    · obtain ⟨rfl, hi⟩ := List.append_inj' hh rfl
      obtain rfl := (List.cons.inj hi).1
      exact ⟨r, hm, hs, .snoc r hm hs⟩
    · have hh' : h' ++ [⟨s, a, m, s'⟩] = (h₁ ++ i :: h₂') ++ [j] := by simpa using hh
      exact ih (List.append_inj' hh' rfl).1

/-- The last iteration of a run. -/
theorem Run.unsnoc {i : Iter σ α} (r : L.Run s₀ (h ++ [i]) s) :
    L.Run s₀ h i.head ∧ L.enter i.head i.input = .ok i.mid ∧
      L.handle i.mid i.input = .ok i.next ∧ s = i.next := by
  generalize hh : h ++ [i] = h' at r
  cases r with
  | nil => simp at hh
  | snoc r hm hs =>
    obtain ⟨rfl, hi⟩ := List.append_inj' hh rfl
    obtain rfl := (List.cons.inj hi).1
    exact ⟨r, hm, hs, rfl⟩

/-! ### Refinement of loops -/

/-- `i` and `j` are iterations on the same input with related states. -/
structure IterRel (R : σ → τ → Prop) (i : Iter σ α) (j : Iter τ α) : Prop where
  head : R i.head j.head
  input : i.input = j.input
  mid : R i.mid j.mid
  next : R i.next j.next

/-- What holds of every entry of a list holds, suitably transferred, of every related entry. -/
theorem forall_of_forall₂ {β γ : Type*} {R : β → γ → Prop} {l : List β} {l' : List γ}
    (hR : List.Forall₂ R l l') {P : β → Prop} {Q : γ → Prop} (h : ∀ b ∈ l, P b)
    (hPQ : ∀ b c, R b c → P b → Q c) : ∀ c ∈ l', Q c := by
  induction hR with
  | nil => simp
  | cons hbc _ ih =>
    intro c hc
    rcases List.mem_cons.mp hc with rfl | hc
    · exact hPQ _ _ hbc (h _ (by simp))
    · exact ih (fun b hb => h b (by simp [hb])) c hc

theorem map_input_eq {R : σ → τ → Prop} {h' : List (Iter τ α)}
    (hh : List.Forall₂ (IterRel R) h h') : h'.map Iter.input = h.map Iter.input := by
  induction hh with
  | nil => rfl
  | cons hij _ ih => rw [List.map_cons, List.map_cons, ih, hij.input]

/-- A run of a loop is matched, iteration by iteration, by a run of a loop it refines. -/
theorem Run.refines {M : Loop τ α ε} {R : σ → τ → Prop} {t₀ : τ} (r : L.Run s₀ h s)
    (h₀ : R s₀ t₀)
    (henter : ∀ s t a, R s t → Refines R (L.enter s a) (M.enter t a))
    (hhandle : ∀ s t a, R s t → Refines R (L.handle s a) (M.handle t a)) :
    ∃ h' t, M.Run t₀ h' t ∧ R s t ∧ List.Forall₂ (IterRel R) h h' := by
  induction r with
  | nil => exact ⟨[], t₀, .nil, h₀, .nil⟩
  | snoc r hm hs ih =>
    obtain ⟨h', t, r', hst, hh⟩ := ih
    obtain ⟨m', hm', hmm⟩ := (henter _ _ _ hst).ok_left hm
    obtain ⟨t', ht', hst'⟩ := (hhandle _ _ _ hmm).ok_left hs
    refine ⟨_, t', .snoc r' hm' ht', hst', ?_⟩
    exact List.rel_append hh (.cons ⟨hst, rfl, hmm, hst'⟩ .nil)

end Loop

end RealtimeKernel.Lib
