import RealtimeKernel.Lib.Families

/-!
# Stable priority queues as one list for each priority

The abstract view of a priority queue with `n` priorities is a function `c : Fin n → List α`,
each list in order of arrival.  `popHighest` takes the first element of the highest non-empty
list.  Queues that share storage are a family `c : ι → Fin n → List α`, counted as the family
`cells c` over all pairs of a queue and a priority.
-/

namespace RealtimeKernel.Lib

variable {α ι : Type*} {n : ℕ}

/-- The first index with `p`, searched from the highest index down. -/
def highest (p : Fin n → Bool) : Option (Fin n) := (List.finRange n).reverse.find? p

theorem highest_eq_none {p : Fin n → Bool} : highest p = none ↔ ∀ i, p i = false := by
  simp [highest]

theorem highest_eq_some {p : Fin n → Bool} {i : Fin n} :
    highest p = some i ↔ p i = true ∧ ∀ j, i < j → p j = false := by
  unfold highest
  rw [List.find?_eq_some_iff_append]
  have hpw : ((List.finRange n).reverse).Pairwise (· > ·) :=
    List.pairwise_reverse.mpr (List.pairwise_lt_finRange n)
  constructor
  · rintro ⟨hi, as, bs, heq, has⟩
    refine ⟨hi, fun j hj => ?_⟩
    have hmem : j ∈ as ++ i :: bs := heq ▸ List.mem_reverse.mpr (List.mem_finRange j)
    rw [heq, List.pairwise_append] at hpw
    rcases List.mem_append.mp hmem with hja | hjb
    · simpa using has j hja
    · rcases List.mem_cons.mp hjb with rfl | hjb
      · exact absurd hj (lt_irrefl _)
      · exact absurd hj (not_lt.mpr (le_of_lt ((List.pairwise_cons.mp hpw.2.1).1 j hjb)))
  · rintro ⟨hi, hlt⟩
    obtain ⟨as, bs, heq⟩ := List.append_of_mem
      (List.mem_reverse.mpr (List.mem_finRange i) : i ∈ (List.finRange n).reverse)
    refine ⟨hi, as, bs, heq, fun j hj => ?_⟩
    rw [heq, List.pairwise_append] at hpw
    simpa using hlt j (hpw.2.2 j hj i (by simp))

/-- Appends an element to the list of one priority. -/
def pushAt (c : Fin n → List α) (p : Fin n) (a : α) : Fin n → List α :=
  Function.update c p (c p ++ [a])

/-- Takes the first element of the highest non-empty list. -/
def popHighest (c : Fin n → List α) : Option (α × (Fin n → List α)) :=
  match highest fun p => !(c p).isEmpty with
  | none => none
  | some p =>
    match c p with
    | [] => none
    | a :: rest => some (a, Function.update c p rest)

theorem popHighest_eq_none {c : Fin n → List α} : popHighest c = none ↔ ∀ p, c p = [] := by
  unfold popHighest
  split
  · rename_i h
    rw [highest_eq_none] at h
    simpa using h
  · rename_i p h
    rw [highest_eq_some] at h
    have hp : c p ≠ [] := by simpa using h.1
    split
    · contradiction
    · simpa using ⟨p, hp⟩

/-- What a successful pop says: the element headed a list above which all lists are empty. -/
theorem popHighest_eq_some {c c' : Fin n → List α} {a : α} :
    popHighest c = some (a, c') ↔ ∃ p rest, c p = a :: rest ∧ (∀ q, p < q → c q = []) ∧
      c' = Function.update c p rest := by
  unfold popHighest
  constructor
  · intro h
    split at h
    · cases h
    · rename_i p hp
      rw [highest_eq_some] at hp
      split at h
      · cases h
      · rename_i b rest hc
        obtain ⟨rfl, rfl⟩ : b = a ∧ Function.update c p rest = c' := by simpa using h
        exact ⟨p, rest, hc, fun q hq => by simpa using hp.2 q hq, rfl⟩
  · rintro ⟨p, rest, hc, hq, rfl⟩
    have hp : highest (fun p => !(c p).isEmpty) = some p := by
      rw [highest_eq_some]
      exact ⟨by simp [hc], fun q hlt => by simp [hq q hlt]⟩
    rw [hp]
    simp [hc]

/-! ### Membership and counts -/

theorem mem_pushAt {c : Fin n → List α} {p q : Fin n} {a b : α} :
    b ∈ pushAt c p a q ↔ b ∈ c q ∨ (q = p ∧ b = a) := by
  unfold pushAt
  by_cases hq : q = p
  · subst hq
    simp
  · simp [hq]

/-- What is left after a pop was there before, and so was the element taken. -/
theorem mem_of_popHighest {c c' : Fin n → List α} {a : α} (h : popHighest c = some (a, c')) :
    (∃ p, a ∈ c p) ∧ ∀ q b, b ∈ c' q → b ∈ c q := by
  obtain ⟨p, rest, hc, -, rfl⟩ := popHighest_eq_some.mp h
  refine ⟨⟨p, by simp [hc]⟩, fun q b hb => ?_⟩
  by_cases hq : q = p
  · subst hq
    rw [Function.update_self] at hb
    simp [hc, hb]
  · rwa [Function.update_of_ne hq] at hb

theorem occurs_pushAt [DecidableEq α] (c : Fin n → List α) (p : Fin n) (a b : α) :
    occurs (pushAt c p a) b = occurs c b + if b = a then 1 else 0 := by
  have h := occurs_update c p (c p ++ [a]) b
  unfold pushAt
  rw [List.count_append, List.count_singleton] at h
  by_cases hb : b = a
  · subst hb
    simp at h ⊢
    omega
  · have hb' : (a == b) = false := by simpa using fun h => hb h.symm
    simp [hb, hb'] at h ⊢
    omega

theorem occurs_popHighest [DecidableEq α] {c c' : Fin n → List α} {a : α}
    (h : popHighest c = some (a, c')) (b : α) :
    occurs c' b + (if b = a then 1 else 0) = occurs c b := by
  obtain ⟨p, rest, hc, -, rfl⟩ := popHighest_eq_some.mp h
  have h := occurs_update c p rest b
  rw [hc, List.count_cons] at h
  by_cases hb : b = a
  · subst hb
    simp at h ⊢
    omega
  · have hb' : (a == b) = false := by simpa using fun h => hb h.symm
    simp [hb, hb'] at h ⊢
    omega

/-! ### Families of priority queues -/

/-- A family of priority queues, as one family of lists. -/
def cells (c : ι → Fin n → List α) (j : ι × Fin n) : List α := c j.1 j.2

theorem cells_update [DecidableEq ι] (c : ι → Fin n → List α) (i : ι) (p : Fin n) (l : List α) :
    cells (Function.update c i (Function.update (c i) p l))
      = Function.update (cells c) (i, p) l := by
  funext j
  obtain ⟨i', p'⟩ := j
  by_cases hi : i' = i
  · subst hi
    by_cases hp : p' = p
    · subst hp; simp [cells]
    · simp [cells, hp]
  · simp [cells, hi]

theorem occurs_cells_pushAt [Fintype ι] [DecidableEq ι] [DecidableEq α]
    (c : ι → Fin n → List α) (i : ι) (p : Fin n) (a b : α) :
    occurs (cells (Function.update c i (pushAt (c i) p a))) b
      = occurs (cells c) b + if b = a then 1 else 0 := by
  have h := occurs_update (cells c) (i, p) (c i p ++ [a]) b
  unfold pushAt
  rw [cells_update]
  rw [List.count_append, List.count_singleton] at h
  by_cases hb : b = a
  · subst hb
    simp [cells] at h ⊢
    omega
  · have hb' : (a == b) = false := by simpa using fun h => hb h.symm
    simp [cells, hb, hb'] at h ⊢
    omega

theorem occurs_cells_popHighest [Fintype ι] [DecidableEq ι] [DecidableEq α]
    {c : ι → Fin n → List α} {i : ι} {q : Fin n → List α} {a : α}
    (h : popHighest (c i) = some (a, q)) (b : α) :
    occurs (cells (Function.update c i q)) b + (if b = a then 1 else 0)
      = occurs (cells c) b := by
  obtain ⟨p, rest, hc, -, rfl⟩ := popHighest_eq_some.mp h
  rw [cells_update]
  have h := occurs_update (cells c) (i, p) rest b
  have hc' : cells c (i, p) = a :: rest := hc
  rw [hc', List.count_cons] at h
  by_cases hb : b = a
  · subst hb
    simp at h ⊢
    omega
  · have hb' : (a == b) = false := by simpa using fun h => hb h.symm
    simp [hb, hb'] at h ⊢
    omega

end RealtimeKernel.Lib
