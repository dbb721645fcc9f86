import Mathlib.Data.List.Nodup
import Mathlib.Logic.Function.Basic

/-!
# Owners and flags

An allocator has one flag for each block, and every live object keeps the block it was given.
`Owned live own used` says that the two agree: a block is flagged just when a live object owns
it, and no block has two owners.  Giving an unflagged block to a new object and taking back the
block of an object that goes away keep this.
-/

namespace RealtimeKernel.Lib

variable {α β : Type*} {live : List α} {own own' : α → Option β}
  {used : β → Bool} {a : α} {b : β}

/-- The flagged blocks are those of the live objects, and each has one owner. -/
structure Owned (live : List α) (own : α → Option β) (used : β → Bool) : Prop where
  used_iff : ∀ b, used b = true ↔ ∃ a ∈ live, own a = some b
  inj : ∀ a ∈ live, ∀ a' ∈ live, ∀ b, own a = some b → own a' = some b → a = a'

namespace Owned

theorem nil (own : α → Option β) : Owned [] own fun _ => false where
  used_iff := by simp
  inj := by simp

/-- Only what the live objects own matters. -/
theorem congr (h : Owned live own used) (heq : ∀ a ∈ live, own' a = own a) :
    Owned live own' used where
  used_iff := by
    intro b
    rw [h.used_iff]
    exact exists_congr fun a => and_congr_right fun ha => by rw [heq a ha]
  inj := by
    intro a ha a' ha' b hb hb'
    rw [heq a ha] at hb
    rw [heq a' ha'] at hb'
    exact h.inj a ha a' ha' b hb hb'

variable [DecidableEq β]

/-- An unflagged block is given to a new object. -/
theorem allocate (h : Owned live own used) (hb : used b = false) (hown : own' a = some b)
    (hkeep : ∀ x ∈ live, own' x = own x) :
    Owned (live ++ [a]) own' (Function.update used b true) := by
  have hfree : ∀ x ∈ live, own' x ≠ some b := by
    intro x hx hxb
    rw [hkeep x hx] at hxb
    rw [(h.used_iff b).mpr ⟨x, hx, hxb⟩] at hb
    cases hb
  have hlive := h.congr hkeep
  constructor
  · intro c
    by_cases hc : c = b
    · subst hc
      simp [hown]
    · have hac : own' a ≠ some c := fun he => hc (Option.some.inj (he.symm.trans hown))
      rw [Function.update_of_ne hc, hlive.used_iff]
      simp [hac, or_and_right, exists_or]
  · intro x hx y hy c hxc hyc
    rw [List.mem_append, List.mem_singleton] at hx hy
    rcases hx with hx | rfl <;> rcases hy with hy | rfl
    · exact hlive.inj x hx y hy c hxc hyc
    · rw [hown] at hyc
      exact absurd (hxc.trans hyc.symm) (hfree x hx)
    · rw [hown] at hxc
      exact absurd (hyc.trans hxc.symm) (hfree y hy)
    · rfl

/-- The block of an object that goes away is taken back. -/
theorem release [DecidableEq α] (h : Owned live own used) (hnd : live.Nodup) (ha : a ∈ live)
    (hb : own a = some b) (hkeep : ∀ x ∈ live, x ≠ a → own' x = own x) :
    Owned (live.erase a) own' (Function.update used b false) := by
  constructor
  · intro c
    by_cases hc : c = b
    · subst hc
      simp only [Function.update_self, Bool.false_eq_true, false_iff]
      rintro ⟨x, hx, hxc⟩
      obtain ⟨hne, hin⟩ := hnd.mem_erase_iff.mp hx
      rw [hkeep x hin hne] at hxc
      exact hne (h.inj x hin a ha c hxc hb)
    · rw [Function.update_of_ne hc, h.used_iff]
      constructor
      · rintro ⟨x, hx, hxc⟩
        have hne : x ≠ a := by
          rintro rfl
          exact hc (Option.some.inj (hxc.symm.trans hb))
        exact ⟨x, hnd.mem_erase_iff.mpr ⟨hne, hx⟩, (hkeep x hx hne).trans hxc⟩
      · rintro ⟨x, hx, hxc⟩
        obtain ⟨hne, hin⟩ := hnd.mem_erase_iff.mp hx
        exact ⟨x, hin, (hkeep x hin hne).symm.trans hxc⟩
  · intro x hx y hy c hxc hyc
    obtain ⟨hxne, hxin⟩ := hnd.mem_erase_iff.mp hx
    obtain ⟨hyne, hyin⟩ := hnd.mem_erase_iff.mp hy
    rw [hkeep x hxin hxne] at hxc
    rw [hkeep y hyin hyne] at hyc
    exact h.inj x hxin y hyin c hxc hyc

end Owned

end RealtimeKernel.Lib
