import Mathlib.Logic.Function.Basic
import Mathlib.Data.List.Nodup
import Mathlib.Tactic.Common

/-!
# Linked lists threaded through a table of nodes

Nodes are indices into a table, links are `Option` indices (`none` is the null pointer), and
`next : ι → Option ι` is the column of links.  `Seg next a l e` says that following `next`
from `a` visits exactly the nodes `l` and arrives at `e`.  A doubly linked list is a forward
segment over `next` and a backward segment over `prev`, so that each direction of an insertion
or removal is one lemma about segments, used twice.
-/

namespace RealtimeKernel.Lib

variable {ι : Type*}

/-- Following `next` from `a` visits exactly the list and then arrives at `e`. -/
def Seg (next : ι → Option ι) : Option ι → List ι → Option ι → Prop
  | a, [], e => a = e
  | a, x :: l, e => a = some x ∧ Seg next (next x) l e

/-- The nodes met by following `next` at most `n` times. -/
def follow (next : ι → Option ι) : ℕ → Option ι → List ι
  | 0, _ => []
  | _ + 1, none => []
  | n + 1, some x => x :: follow next n (next x)

section Segments

variable {next : ι → Option ι} {a e : Option ι} {l l₁ l₂ : List ι} {x : ι}

@[simp] theorem seg_nil : Seg next a [] e ↔ a = e := Iff.rfl

@[simp] theorem seg_cons : Seg next a (x :: l) e ↔ a = some x ∧ Seg next (next x) l e := Iff.rfl

theorem seg_append :
    Seg next a (l₁ ++ l₂) e ↔ ∃ m, Seg next a l₁ m ∧ Seg next m l₂ e := by
  induction l₁ generalizing a with
  | nil => simp
  | cons y l₁ ih =>
    simp only [List.cons_append, seg_cons, ih]
    constructor
    · rintro ⟨ha, m, h₁, h₂⟩
      exact ⟨m, ⟨ha, h₁⟩, h₂⟩
    · rintro ⟨m, ⟨ha, h₁⟩, h₂⟩
      exact ⟨ha, m, h₁, h₂⟩

theorem seg_concat : Seg next a (l ++ [x]) e ↔ Seg next a l (some x) ∧ next x = e := by
  rw [seg_append]
  constructor
  · rintro ⟨m, h₁, rfl, h₂⟩
    exact ⟨h₁, h₂⟩
  · rintro ⟨h₁, h₂⟩
    exact ⟨some x, h₁, rfl, h₂⟩

/-- A segment only depends on the links of its own nodes. -/
theorem Seg.congr {next' : ι → Option ι} (h : Seg next a l e)
    (heq : ∀ y ∈ l, next' y = next y) : Seg next' a l e := by
  induction l generalizing a with
  | nil => exact h
  | cons y l ih =>
    refine ⟨h.1, ?_⟩
    rw [heq y (by simp)]
    exact ih h.2 fun z hz => heq z (by simp [hz])

/-- The nodes of a segment that ends in null are determined by its start. -/
theorem Seg.eq_of_none {l' : List ι} (h : Seg next a l none) (h' : Seg next a l' none) :
    l = l' := by
  induction l generalizing a l' with
  | nil =>
    cases l' with
    | nil => rfl
    | cons y l' =>
      obtain rfl := h
      simp at h'
  | cons y l ih =>
    cases l' with
    | nil =>
      obtain rfl := h'
      simp at h
    | cons z l' =>
      obtain ⟨rfl, h₂⟩ := h
      obtain ⟨hz, h₂'⟩ := h'
      obtain rfl := Option.some.inj hz
      rw [ih h₂ h₂']

theorem Seg.start_eq (h : Seg next a l none) : a = l.head? := by
  cases l with
  | nil => exact h
  | cons y l => exact h.1

/-- With enough steps, `follow` lists a segment that ends in null. -/
theorem Seg.follow_eq (h : Seg next a l none) {n : ℕ} (hn : l.length ≤ n) :
    follow next n a = l := by
  induction l generalizing a n with
  | nil =>
    obtain rfl := h
    cases n <;> rfl
  | cons y l ih =>
    obtain ⟨rfl, h₂⟩ := h
    cases n with
    | zero => simp at hn
    | succ n =>
      rw [follow, ih h₂ (by simpa using hn)]

end Segments

/-- A table in which every node links to the following one is one segment. -/
theorem seg_finRange {n : ℕ} (next : Fin n → Option (Fin n))
    (hnext : ∀ i : Fin n, next i = if h : i.val + 1 < n then some ⟨i.val + 1, h⟩ else none)
    (start : Option (Fin n)) (hstart : start = if h : 0 < n then some ⟨0, h⟩ else none) :
    Seg next start (List.finRange n) none := by
  have key : ∀ m k (hk : k + m = n), Seg next (if h : k < n then some ⟨k, h⟩ else none)
      ((List.finRange n).drop k) none := by
    intro m
    induction m with
    | zero =>
      intro k hk
      simp [show ¬ k < n by omega, List.drop_eq_nil_of_le (show (List.finRange n).length ≤ k by
        simp; omega)]
    | succ m ih =>
      intro k hk
      have hlt : k < n := by omega
      rw [List.drop_eq_getElem_cons (by simpa using hlt), dif_pos hlt]
      refine ⟨by simp, ?_⟩
      have := ih (k + 1) (by omega)
      simp only [List.getElem_finRange, hnext]
      exact this
  have := key n 0 (by omega)
  rw [hstart]
  simpa using this

section Updates

variable [DecidableEq ι] {next : ι → Option ι} {a e : Option ι} {l l₁ l₂ : List ι} {x : ι}

theorem Seg.update (h : Seg next a l e) (hx : x ∉ l) (v : Option ι) :
    Seg (Function.update next x v) a l e := by
  refine h.congr fun y hy => ?_
  have hne : y ≠ x := fun heq => hx (heq ▸ hy)
  simp [hne]

/-- Writing the link of the last node moves the end of the segment. -/
theorem Seg.set_end (h : Seg next a (l ++ [x]) e) (hx : x ∉ l) (e' : Option ι) :
    Seg (Function.update next x e') a (l ++ [x]) e' := by
  rw [seg_concat] at h ⊢
  exact ⟨h.1.update hx e', by simp⟩

/-- Writes `v` into the link of `p`, when there is such a node. -/
def relink (next : ι → Option ι) (p v : Option ι) : ι → Option ι :=
  match p with
  | none => next
  | some y => Function.update next y v

/-- Taking the node `x` out of a segment: its predecessor, or the start of the segment when
it has none, is given the link of `x`. -/
theorem Seg.unlink (h : Seg next a (l₁ ++ x :: l₂) none) (hnd : (l₁ ++ x :: l₂).Nodup) :
    Seg (relink next l₁.getLast? (next x)) (if l₁.getLast? = none then next x else a)
      (l₁ ++ l₂) none := by
  obtain ⟨m, h₁, hm, h₂⟩ := seg_append.mp h
  obtain rfl := hm
  rcases List.eq_nil_or_concat l₁ with rfl | ⟨l, p, rfl⟩
  · simpa [relink] using h₂
  · have hp : p ∉ l ∧ p ∉ l₂ := by
      simp only [List.append_assoc, List.nodup_append, List.concat_eq_append] at hnd
      refine ⟨fun hin => hnd.2.2 p hin p (by simp) rfl, fun hin => ?_⟩
      exact hnd.2.1.2.2 p (by simp) p (by simp [hin]) rfl
    have hlast : (l.concat p).getLast? = some p := by simp
    rw [hlast]
    simp only [relink, reduceCtorEq, if_false]
    rw [List.concat_eq_append] at h₁ ⊢
    exact seg_append.mpr ⟨next x, h₁.set_end hp.1 (next x), h₂.update hp.2 (next x)⟩

/-- Putting the node `x` into a segment: its predecessor, or the start of the segment when it
has none, is linked to `x`, and `x` to what followed. -/
theorem Seg.insert (h : Seg next a (l₁ ++ l₂) none) (hnd : (l₁ ++ l₂).Nodup)
    (hx : x ∉ l₁ ++ l₂) :
    Seg (Function.update (relink next l₁.getLast? (some x)) x l₂.head?)
      (if l₁.getLast? = none then some x else a) (l₁ ++ x :: l₂) none := by
  simp only [List.mem_append, not_or] at hx
  obtain ⟨hx₁, hx₂⟩ := hx
  obtain ⟨m, h₁, h₂⟩ := seg_append.mp h
  obtain rfl := h₂.start_eq
  rcases List.eq_nil_or_concat l₁ with rfl | ⟨l, p, rfl⟩
  · refine ⟨rfl, ?_⟩
    rw [Function.update_self]
    exact h₂.update hx₂ _
  · rw [List.concat_eq_append] at h₁ hx₁ hnd ⊢
    have hp₁ : p ∉ l := fun hin => (List.nodup_append.mp (List.nodup_append.mp hnd).1).2.2 p hin p
      (by simp) rfl
    have hp₂ : p ∉ l₂ := fun hin => (List.nodup_append.mp hnd).2.2 p (by simp) p hin rfl
    have hlast : (l ++ [p]).getLast? = some p := by simp
    rw [hlast]
    simp only [relink, reduceCtorEq, if_false]
    refine seg_append.mpr ⟨some x, (h₁.set_end hp₁ (some x)).update hx₁ _, rfl, ?_⟩
    rw [Function.update_self]
    exact (h₂.update hp₂ _).update hx₂ _

end Updates

/-! ### Doubly linked lists -/

/-- The nodes `l` form a doubly linked list from `head` to `tail`. -/
structure DList (next prev : ι → Option ι) (head tail : Option ι) (l : List ι) : Prop where
  forward : Seg next head l none
  backward : Seg prev tail l.reverse none

namespace DList

variable {next prev : ι → Option ι} {head tail : Option ι} {l l₁ l₂ : List ι} {x y : ι}

theorem nil : DList next prev none none [] := ⟨rfl, rfl⟩

theorem head_eq (h : DList next prev head tail l) : head = l.head? := h.forward.start_eq

theorem tail_eq (h : DList next prev head tail l) : tail = l.getLast? := by
  rw [h.backward.start_eq, List.head?_reverse]

theorem congr {next' prev' : ι → Option ι} (h : DList next prev head tail l)
    (hn : ∀ y ∈ l, next' y = next y) (hp : ∀ y ∈ l, prev' y = prev y) :
    DList next' prev' head tail l :=
  ⟨h.forward.congr hn, h.backward.congr fun y hy => hp y (List.mem_reverse.mp hy)⟩

theorem next_eq (h : DList next prev head tail (l₁ ++ x :: l₂)) : next x = l₂.head? := by
  obtain ⟨m, -, -, h₂⟩ := seg_append.mp h.forward
  exact h₂.start_eq

theorem prev_eq (h : DList next prev head tail (l₁ ++ x :: l₂)) : prev x = l₁.getLast? := by
  have hb := h.backward
  rw [List.reverse_append, List.reverse_cons, List.append_assoc] at hb
  obtain ⟨m, -, -, h₂⟩ := seg_append.mp hb
  rw [h₂.start_eq]
  simp

theorem singleton (hn : next x = none) (hp : prev x = none) :
    DList next prev (some x) (some x) [x] := by
  constructor
  · simp [hn]
  · simp [hp]

variable [DecidableEq ι]

/-- A fresh node that points back at the tail becomes the new tail once the old tail's link
is set to it. -/
theorem push_back (h : DList next prev head (some y) l) (hx : x ∉ l) (hl : l.Nodup)
    (hn : next x = none) (hp : prev x = some y) :
    DList (Function.update next y (some x)) prev head (some x) (l ++ [x]) := by
  obtain ⟨l', rfl⟩ : ∃ l', l = l' ++ [y] := by
    rcases List.eq_nil_or_concat l with rfl | ⟨l', z, rfl⟩
    · exact absurd h.tail_eq (by simp)
    · have hz := h.tail_eq
      simp only [List.concat_eq_append, List.getLast?_append, List.getLast?_singleton,
        Option.some_or, Option.some.injEq] at hz
      exact ⟨l', by rw [hz, List.concat_eq_append]⟩
  have hy : y ∉ l' := by
    rw [List.nodup_append] at hl
    exact fun hin => hl.2.2 y hin y (by simp) rfl
  have hxy : x ≠ y := fun heq => hx (by simp [heq])
  constructor
  · rw [seg_concat]
    exact ⟨h.forward.set_end hy (some x), by simp [hxy, hn]⟩
  · rw [List.reverse_append, List.reverse_singleton, List.singleton_append, seg_cons, hp]
    exact ⟨rfl, h.backward⟩

/-- Taking a node out relinks its two neighbours, or the ends of the list. -/
theorem remove (h : DList next prev head tail (l₁ ++ x :: l₂)) (hnd : (l₁ ++ x :: l₂).Nodup) :
    DList (relink next (prev x) (next x)) (relink prev (next x) (prev x))
      (if prev x = none then next x else head) (if next x = none then prev x else tail)
      (l₁ ++ l₂) := by
  have hb := h.backward
  have hrev : (l₁ ++ x :: l₂).reverse = l₂.reverse ++ x :: l₁.reverse := by simp
  have hnr : (l₂.reverse ++ x :: l₁.reverse).Nodup := by
    rw [← hrev]
    exact List.nodup_reverse.mpr hnd
  rw [hrev] at hb
  have hf := h.forward.unlink hnd
  have hb' := hb.unlink hnr
  rw [List.getLast?_reverse, ← h.next_eq] at hb'
  rw [← h.prev_eq] at hf
  refine ⟨hf, ?_⟩
  rw [List.reverse_append]
  exact hb'

end DList

/-- Of entries at distinct nodes, one is left out by leaving out its node. -/
theorem filter_node_ne {β : Type*} [DecidableEq ι] {l₁ l₂ : List (ι × β)} {e : ι × β}
    (hnd : ((l₁ ++ e :: l₂).map Prod.fst).Nodup) :
    (l₁ ++ e :: l₂).filter (fun f => f.1 ≠ e.1) = l₁ ++ l₂ := by
  rw [List.map_append, List.map_cons] at hnd
  have hsplit := List.nodup_append.mp hnd
  rw [List.filter_append, List.filter_cons_of_neg (by simp)]
  congr 1
  · rw [List.filter_eq_self]
    intro f hf
    have hne := hsplit.2.2 f.1 (List.mem_map_of_mem hf) e.1 (by simp)
    simpa using hne
  · rw [List.filter_eq_self]
    intro f hf
    have hnot := (List.nodup_cons.mp hsplit.2.1).1
    have hne : f.1 ≠ e.1 := fun heq => hnot (heq ▸ List.mem_map_of_mem hf)
    simpa using hne

end RealtimeKernel.Lib
