import RealtimeKernel.Lib.Runs

/-!
# Sessions with a component

A component answers calls: each call returns an answer and leaves the component in a new state,
or fails.  A session is the transcript of the calls made so far, each with its answer.  What a
caller promises may depend on the answers it was given (it frees only what it was handed), so a
promise is a predicate on the transcript so far and on the call.
-/

namespace RealtimeKernel.Lib

/-- What a call answers and the state it leaves. -/
abbrev Component (σ α ρ ε : Type*) := σ → α → Except ε (ρ × σ)

variable {σ τ α ρ ε : Type*} {step : Component σ α ρ ε} {step' : Component τ α ρ ε}
  {s₀ s : σ} {t₀ t : τ} {h : List (α × ρ)}

/-- `Session step s₀ h s`: from `s₀`, the calls of the transcript `h` got the answers of `h`
and led to `s`. -/
inductive Session (step : Component σ α ρ ε) (s₀ : σ) : List (α × ρ) → σ → Prop
  | nil : Session step s₀ [] s₀
  | snoc {h : List (α × ρ)} {s s' : σ} {a : α} {r : ρ} : Session step s₀ h s →
      step s a = .ok (r, s') → Session step s₀ (h ++ [(a, r)]) s'

/-- Every call of the transcript was made as promised. -/
def Promised (promise : List (α × ρ) → α → Prop) (h : List (α × ρ)) : Prop :=
  Along (fun p e => promise p e.1) h

theorem promised_nil {promise : List (α × ρ) → α → Prop} : Promised promise [] := along_nil

theorem promised_snoc {promise : List (α × ρ) → α → Prop} {e : α × ρ} :
    Promised promise (h ++ [e]) ↔ Promised promise h ∧ promise h e.1 := along_snoc

theorem promised_of_forall {promise : List (α × ρ) → α → Prop} (hp : ∀ p a, promise p a) :
    Promised promise h := fun p e _ _ => hp p e.1

instance {promise : List (α × ρ) → α → Prop} [∀ p a, Decidable (promise p a)] :
    Decidable (Promised promise h) :=
  inferInstanceAs (Decidable (Along (fun p e => promise p e.1) h))

namespace Session

/-- The transcript of a list of calls, and the state after them. -/
def exec (step : Component σ α ρ ε) : σ → List α → Except ε (List (α × ρ) × σ)
  | s, [] => .ok ([], s)
  | s, a :: as =>
    match step s a with
    | .error e => .error e
    | .ok (r, s') =>
      match exec step s' as with
      | .error e => .error e
      | .ok (h, s'') => .ok ((a, r) :: h, s'')

/-- A session can be started one call earlier. -/
theorem cons {s₁ : σ} {a : α} {r : ρ} (hs : step s₀ a = .ok (r, s₁))
    (hh : Session step s₁ h s) : Session step s₀ ((a, r) :: h) s := by
  induction hh with
  | nil => exact .snoc .nil hs
  | snoc _ hs' ih => exact .snoc ih hs'

/-- Every successful execution is a session of the same calls. -/
theorem of_exec {as : List α} (hs : exec step s₀ as = .ok (h, s)) : Session step s₀ h s := by
  induction as generalizing s₀ h with
  | nil =>
    cases hs
    exact .nil
  | cons a as ih =>
    unfold exec at hs
    split at hs
    · cases hs
    · rename_i r s₁ hstep
      split at hs
      · cases hs
      · rename_i h' s₂ hrest
        cases hs
        exact .cons hstep (ih hrest)

/-- **The invariant rule.**  What holds of the empty transcript and the first state, and is kept
by every call made as promised, holds after every session of such calls. -/
theorem invariant {promise : List (α × ρ) → α → Prop} {I : List (α × ρ) → σ → Prop}
    (hh : Session step s₀ h s) (hp : Promised promise h) (h₀ : I [] s₀)
    (hstep : ∀ h s a r s', I h s → promise h a → step s a = .ok (r, s') → I (h ++ [(a, r)]) s') :
    I h s := by
  induction hh with
  | nil => exact h₀
  | snoc _ hs ih =>
    obtain ⟨hp', ha⟩ := promised_snoc.mp hp
    exact hstep _ _ _ _ _ (ih hp') ha hs

/-- **The refinement rule.**  When related states give related states and the same answer to
every call, every session of the one component is a session of the other. -/
theorem refines {R : σ → τ → Prop} (hh : Session step s₀ h s) (h₀ : R s₀ t₀)
    (hstep : ∀ s t a r s', R s t → step s a = .ok (r, s') →
      ∃ t', step' t a = .ok (r, t') ∧ R s' t') :
    ∃ t, Session step' t₀ h t ∧ R s t := by
  induction hh with
  | nil => exact ⟨t₀, .nil, h₀⟩
  | snoc _ hs ih =>
    obtain ⟨t, ht, hR⟩ := ih
    obtain ⟨t', ht', hR'⟩ := hstep _ _ _ _ _ hR hs
    exact ⟨t', .snoc ht ht', hR'⟩

/-- A session leads to one state. -/
theorem unique {s' : σ} (hh : Session step s₀ h s) (hh' : Session step s₀ h s') : s = s' := by
  induction hh generalizing s' with
  | nil =>
    generalize hl : ([] : List (α × ρ)) = l at hh'
    cases hh' with
    | nil => rfl
    | snoc _ _ => simp at hl
  | @snoc h s s₁ a r hh hs ih =>
    generalize hl : h ++ [(a, r)] = l at hh'
    cases hh' with
    | nil => simp at hl
    | @snoc h' s' s₁' a' r' hh' hs' =>
      obtain ⟨rfl, he⟩ := List.append_inj' hl rfl
      cases he
      obtain rfl := ih hh'
      rw [hs] at hs'
      cases hs'
      rfl

/-- The last call of a session. -/
theorem unsnoc {e : α × ρ} (hh : Session step s₀ (h ++ [e]) s) :
    ∃ s', Session step s₀ h s' ∧ step s' e.1 = .ok (e.2, s) := by
  generalize hl : h ++ [e] = l at hh
  cases hh with
  | nil => simp at hl
  | @snoc h' s' s₁ a r hh hs =>
    obtain ⟨rfl, he⟩ := List.append_inj' hl rfl
    cases he
    exact ⟨s', hh, hs⟩

/-- Every part of a transcript from its start is the transcript of a session. -/
theorem take {p q : List (α × ρ)} (hh : Session step s₀ (p ++ q) s) :
    ∃ s', Session step s₀ p s' := by
  induction q using List.reverseRecOn generalizing s with
  | nil => exact ⟨s, by simpa using hh⟩
  | append_singleton q e ih =>
    rw [← List.append_assoc] at hh
    obtain ⟨s', hh', -⟩ := hh.unsnoc
    exact ih hh'

/-- **Where a property breaks.**  When a legal call made in a good state leads to a good state
just when it is made as promised, all states of a session of legal calls are good just when all
its calls are made as promised. -/
theorem good_iff {legal promise : List (α × ρ) → α → Prop} (Good : List (α × ρ) → σ → Prop)
    (hh : Session step s₀ h s) (hl : Promised legal h) (h₀ : Good [] s₀)
    (hstep : ∀ h s a r s', Session step s₀ h s → Promised legal h → Good h s → legal h a →
      step s a = .ok (r, s') → (Good (h ++ [(a, r)]) s' ↔ promise h a)) :
    (∀ p q s', h = p ++ q → Session step s₀ p s' → Good p s') ↔ Promised promise h := by
  induction hh with
  | nil =>
    constructor
    · intro _
      exact promised_nil
    · intro _ p q s' hpq hs'
      obtain ⟨rfl, -⟩ := List.append_eq_nil_iff.mp hpq.symm
      rw [Session.unique hs' .nil]
      exact h₀
  | @snoc h s s₁ a r hh hs ih =>
    obtain ⟨hl', ha⟩ := promised_snoc.mp hl
    rw [promised_snoc, ← ih hl']
    have hlast (hbefore : ∀ p q s', h = p ++ q → Session step s₀ p s' → Good p s') :
        Good (h ++ [(a, r)]) s₁ ↔ promise h a :=
      hstep h s a r s₁ hh hl' (hbefore h [] s (by simp) hh) ha hs
    constructor
    · intro hgood
      have hbefore : ∀ p q s', h = p ++ q → Session step s₀ p s' → Good p s' := by
        intro p q s' hpq hs'
        exact hgood p (q ++ [(a, r)]) s' (by rw [hpq, List.append_assoc]) hs'
      exact ⟨hbefore, (hlast hbefore).mp (hgood _ [] s₁ (by simp) (.snoc hh hs))⟩
    · rintro ⟨hbefore, hpa⟩ p q s' hpq hs'
      rcases List.eq_nil_or_concat q with rfl | ⟨q', e, rfl⟩
      · rw [List.append_nil] at hpq
        subst hpq
        rw [Session.unique hs' (.snoc hh hs)]
        exact (hlast hbefore).mpr hpa
      · rw [List.concat_eq_append, ← List.append_assoc] at hpq
        obtain ⟨hpq', -⟩ := List.append_inj' hpq rfl
        exact hbefore p q' s' hpq' hs'

end Session

end RealtimeKernel.Lib
