import RealtimeKernel.Lib.PriorityLists

/-!
# Stable priority queues as one list of entries

What a stable priority queue is for: entries wait in the order in which they were pushed, and
the next one out is the earliest of those with the highest priority.  `byPriority` sorts the
entries of a queue into one list for each priority; popping the highest non-empty list takes
the same entry.
-/

namespace RealtimeKernel.Lib

variable {α : Type*} {n : ℕ}

/-- The entry `e` leaves the queue `q`: none has a higher priority, and those before it have a
lower one. -/
def Leaves (q : List (α × Fin n)) (e : α × Fin n) (q' : List (α × Fin n)) : Prop :=
  ∃ l r, q = l ++ e :: r ∧ q' = l ++ r ∧ (∀ x ∈ q, x.2 ≤ e.2) ∧ ∀ x ∈ l, x.2 < e.2

/-- The entries of each priority, in the order in which they were pushed. -/
def byPriority (q : List (α × Fin n)) (p : Fin n) : List α :=
  (q.filter fun e => decide (e.2 = p)).map Prod.fst

@[simp] theorem byPriority_nil : byPriority ([] : List (α × Fin n)) = fun _ => [] := rfl

theorem byPriority_append (q q' : List (α × Fin n)) (p : Fin n) :
    byPriority (q ++ q') p = byPriority q p ++ byPriority q' p := by
  simp [byPriority]

theorem byPriority_cons (e : α × Fin n) (q : List (α × Fin n)) (p : Fin n) :
    byPriority (e :: q) p = if e.2 = p then e.1 :: byPriority q p else byPriority q p := by
  unfold byPriority
  by_cases h : e.2 = p
  · simp [h]
  · simp [h]

/-- Pushing an entry appends to the list of its priority. -/
theorem byPriority_push (q : List (α × Fin n)) (e : α × Fin n) :
    byPriority (q ++ [e]) = pushAt (byPriority q) e.2 e.1 := by
  funext p
  rw [byPriority_append, byPriority_cons, byPriority_nil]
  unfold pushAt
  by_cases h : e.2 = p
  · subst h
    simp
  · have h' : p ≠ e.2 := fun hp => h hp.symm
    simp [h, h']

theorem mem_byPriority {q : List (α × Fin n)} {p : Fin n} {a : α} :
    a ∈ byPriority q p ↔ (a, p) ∈ q := by
  simp [byPriority]

theorem byPriority_eq_nil {q : List (α × Fin n)} {p : Fin n} :
    byPriority q p = [] ↔ ∀ e ∈ q, e.2 ≠ p := by
  simp [byPriority]

theorem byPriority_all_nil {q : List (α × Fin n)} : (∀ p, byPriority q p = []) ↔ q = [] := by
  constructor
  · intro h
    rw [List.eq_nil_iff_forall_not_mem]
    intro e he
    exact byPriority_eq_nil.mp (h e.2) e he rfl
  · rintro rfl p
    rfl

/-- The lists of all priorities together have as many elements as the queue. -/
theorem entries_byPriority (q : List (α × Fin n)) : entries (byPriority q) = q.length := by
  induction q using List.reverseRecOn with
  | nil => simp [entries]
  | append_singleton q e ih =>
    have h := entries_update (byPriority q) e.2 (byPriority q e.2 ++ [e.1])
    rw [List.length_append, List.length_singleton] at h
    rw [byPriority_push, List.length_append, List.length_singleton, ← ih]
    unfold pushAt
    omega

/-- **The entry that leaves heads the highest non-empty list.** -/
theorem Leaves.popHighest {q q' : List (α × Fin n)} {e : α × Fin n} (h : Leaves q e q') :
    popHighest (byPriority q) = some (e.1, byPriority q') := by
  obtain ⟨l, r, rfl, rfl, hmax, hl⟩ := h
  have hfirst : byPriority l e.2 = [] := by
    rw [byPriority_eq_nil]
    intro x hx heq
    exact absurd (hl x hx) (by rw [heq]; exact lt_irrefl _)
  refine popHighest_eq_some.mpr ⟨e.2, byPriority r e.2, ?_, fun p hp => ?_, ?_⟩
  · rw [byPriority_append, hfirst, byPriority_cons, if_pos rfl, List.nil_append]
  · rw [byPriority_eq_nil]
    intro x hx heq
    exact absurd (hmax x hx) (by rw [heq]; exact not_le.mpr hp)
  · funext p
    by_cases hp : p = e.2
    · subst hp
      rw [Function.update_self, byPriority_append, hfirst, List.nil_append]
    · have hp' : e.2 ≠ p := fun h => hp h.symm
      rw [Function.update_of_ne hp, byPriority_append, byPriority_append, byPriority_cons,
        if_neg hp']

/-- An entry can leave a queue that is not empty. -/
theorem exists_leaves {q : List (α × Fin n)} (hq : q ≠ []) : ∃ e q', Leaves q e q' := by
  cases hpop : Lib.popHighest (byPriority q) with
  | none => exact absurd (byPriority_all_nil.mp (popHighest_eq_none.mp hpop)) hq
  | some r =>
    obtain ⟨a, c⟩ := r
    obtain ⟨p, rest, hp, hhigher, -⟩ := popHighest_eq_some.mp hpop
    have hmem : (a, p) ∈ q := mem_byPriority.mp (by rw [hp]; exact List.mem_cons_self)
    have hmax : ∀ x ∈ q, x.2 ≤ p := by
      intro x hx
      by_contra hlt
      exact byPriority_eq_nil.mp (hhigher x.2 (not_le.mp hlt)) x hx rfl
    -- the first entry of the priority
    have hfind : ∃ e, q.find? (fun e => decide (e.2 = p)) = some e := by
      rw [← Option.isSome_iff_exists, List.find?_isSome]
      exact ⟨(a, p), hmem, by simp⟩
    obtain ⟨e, he⟩ := hfind
    obtain ⟨hep, l, r, rfl, hl⟩ := List.find?_eq_some_iff_append.mp he
    obtain rfl : e.2 = p := of_decide_eq_true hep
    refine ⟨e, l ++ r, l, r, rfl, rfl, hmax, fun x hx => ?_⟩
    have hne : x.2 ≠ e.2 := by simpa using hl x hx
    exact lt_of_le_of_ne (hmax x (List.mem_append_left _ hx)) hne

end RealtimeKernel.Lib
