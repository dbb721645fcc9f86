import Mathlib.Data.List.Dedup

/-!
# Lists in the order of the last occurrence

A log of events names an element each time something happens to it.  `recency l p` lists the
elements with `p` that the log names, by the last time it names them, earliest first.  A queue
whose elements are logged when they enter it is such a list: an entry appends, an element that
leaves is erased, and the head is the element that entered first.
-/

namespace RealtimeKernel.Lib

variable {α : Type*} [DecidableEq α] {l : List α} {p q : α → Bool} {a : α}

/-- The elements with `p` in the order of their last occurrence in the log. -/
def recency (l : List α) (p : α → Bool) : List α := l.dedup.filter p

@[simp] theorem recency_nil (p : α → Bool) : recency [] p = [] := rfl

theorem mem_recency {b : α} : b ∈ recency l p ↔ b ∈ l ∧ p b = true := by
  simp [recency]

/-- A further occurrence moves an element to the end. -/
theorem dedup_concat (l : List α) (a : α) : (l ++ [a]).dedup = l.dedup.erase a ++ [a] := by
  induction l with
  | nil => simp
  | cons b l ih =>
    by_cases hb : b ∈ l
    · rw [List.cons_append, List.dedup_cons_of_mem (List.mem_append_left _ hb),
        List.dedup_cons_of_mem hb, ih]
    · by_cases hba : b = a
      · subst hba
        have hnot : b ∉ l.dedup := fun hin => hb (List.mem_dedup.mp hin)
        rw [List.cons_append, List.dedup_cons_of_mem (by simp), List.dedup_cons_of_notMem hb, ih,
          List.erase_cons_head, List.erase_of_not_mem hnot]
      · have hnot : b ∉ l ++ [a] := by simp [hb, hba]
        rw [List.cons_append, List.dedup_cons_of_notMem hnot, List.dedup_cons_of_notMem hb, ih,
          List.erase_cons_tail (by simpa using hba), List.cons_append]

/-- The elements that occur in an earlier part only come first. -/
theorem dedup_append_eq (l₁ l₂ : List α) :
    ∃ l, (l₁ ++ l₂).dedup = l ++ l₂.dedup ∧ ∀ b ∈ l, b ∉ l₂ := by
  induction l₁ with
  | nil => exact ⟨[], rfl, by simp⟩
  | cons b l₁ ih =>
    obtain ⟨l, heq, hnot⟩ := ih
    by_cases hb : b ∈ l₁ ++ l₂
    · exact ⟨l, by rw [List.cons_append, List.dedup_cons_of_mem hb, heq], hnot⟩
    · refine ⟨b :: l, by rw [List.cons_append, List.dedup_cons_of_notMem hb, heq]; rfl, ?_⟩
      intro d hd
      rcases List.mem_cons.mp hd with rfl | hd
      · exact fun hin => hb (List.mem_append_right _ hin)
      · exact hnot d hd

theorem recency_congr (h : ∀ b, p b = q b) : recency l p = recency l q := by
  rw [funext h]

/-- An element that is logged and did not have the property before enters at the end. -/
theorem recency_concat (ha : p a = false) (h : ∀ b ≠ a, q b = p b) :
    recency (l ++ [a]) q = recency l p ++ if q a = true then [a] else [] := by
  unfold recency
  rw [dedup_concat, List.filter_append, (List.nodup_dedup l).erase_eq_filter a,
    List.filter_filter]
  congr 1
  · refine List.filter_congr fun b _ => ?_
    by_cases hb : b = a
    · simp [hb, ha]
    · simp [hb, h b hb]
  · cases hq : q a with
    | false => simp [hq]
    | true => simp [hq]

/-- An element that loses the property leaves. -/
theorem recency_erase (ha : q a = false) (h : ∀ b ≠ a, q b = p b) :
    recency l q = (recency l p).erase a := by
  unfold recency
  rw [((List.nodup_dedup l).filter p).erase_eq_filter a, List.filter_filter]
  refine List.filter_congr fun b _ => ?_
  by_cases hb : b = a
  · simp [hb, ha]
  · simp [hb, h b hb]

/-- Everything logged has a last occurrence. -/
theorem exists_last_occurrence (ha : a ∈ l) : ∃ l₁ l₂, l = l₁ ++ a :: l₂ ∧ a ∉ l₂ := by
  induction l with
  | nil => cases ha
  | cons b l ih =>
    by_cases hl : a ∈ l
    · obtain ⟨l₁, l₂, rfl, hnot⟩ := ih hl
      exact ⟨b :: l₁, l₂, rfl, hnot⟩
    · obtain rfl : a = b := (List.mem_cons.mp ha).resolve_right hl
      exact ⟨[], l, rfl, hl⟩

omit [DecidableEq α] in
/-- Of two entries the one whose last occurrence comes later is not followed by the other. -/
theorem not_mem_after {b : α} {l₁ l₂ l₁' l₂' : List α} (h : l = l₁ ++ a :: l₂)
    (h' : l = l₁' ++ b :: l₂') (ha : a ∉ l₂) (hb : b ∉ l₂') (hin : b ∈ l₂) : a ∉ l₂' := by
  intro ha'
  rcases List.append_eq_append_iff.mp (h.symm.trans h') with ⟨as, -, heq⟩ | ⟨as, -, heq⟩
  · cases as with
    | nil =>
      obtain ⟨rfl, rfl⟩ := List.cons.inj heq
      exact ha ha'
    | cons x as =>
      obtain ⟨-, rfl⟩ := List.cons.inj heq
      exact ha (List.mem_append_right _ (List.mem_cons_of_mem _ ha'))
  · cases as with
    | nil =>
      obtain ⟨rfl, rfl⟩ := List.cons.inj heq
      exact ha ha'
    | cons x as =>
      obtain ⟨-, rfl⟩ := List.cons.inj heq
      exact hb (List.mem_append_right _ (List.mem_cons_of_mem _ hin))

/-- **The head of a recency list entered first**: since it was last logged, all others were. -/
theorem recency_head {rest : List α} (h : recency l p = a :: rest) :
    ∃ l₁ l₂, l = l₁ ++ a :: l₂ ∧ a ∉ l₂ ∧ ∀ b ∈ rest, b ∈ l₂ := by
  obtain ⟨hmem, hp⟩ := mem_recency.mp (h ▸ List.mem_cons_self : a ∈ recency l p)
  obtain ⟨l₁, l₂, rfl, hnot⟩ := exists_last_occurrence hmem
  refine ⟨l₁, l₂, rfl, hnot, fun b hb => ?_⟩
  obtain ⟨l, heq, hl⟩ := dedup_append_eq l₁ (a :: l₂)
  have hsplit : l.filter p ++ a :: recency l₂ p = a :: rest := by
    rw [← h]
    unfold recency
    rw [heq, List.filter_append, List.dedup_cons_of_notMem hnot, List.filter_cons_of_pos hp]
  cases hf : l.filter p with
  | nil =>
    rw [hf, List.nil_append] at hsplit
    exact (mem_recency.mp ((List.cons.inj hsplit).2 ▸ hb)).1
  | cons d l' =>
    rw [hf, List.cons_append] at hsplit
    have hd : a ∈ l := by
      rw [← (List.cons.inj hsplit).1]
      exact List.mem_of_mem_filter (hf ▸ List.mem_cons_self)
    exact absurd List.mem_cons_self (hl a hd)

end RealtimeKernel.Lib
