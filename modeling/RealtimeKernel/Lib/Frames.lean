import Mathlib.Data.List.Basic
import Mathlib.Tactic.Common

/-!
# Frames of packed words

A word has fields: `w.extractLsb' k m` is the field of `m` bits from bit `k` on.  A word is
filled by or-ing shifted values into it.

A stream of words, some of them marked as last, consists of frames: `frames last [] ws` cuts
the stream behind every marked word, and says what has been begun at its end.
-/

namespace RealtimeKernel.Lib

section Fields

variable {n m : ℕ}

/-- A value that is shifted to a field of its width is found there. -/
theorem extractLsb'_shiftLeft_self (b : BitVec m) {k : ℕ} (hk : k + m ≤ n) :
    (b.setWidth n <<< k).extractLsb' k m = b := by
  apply BitVec.eq_of_getLsbD_eq
  intro i hi
  rw [BitVec.getLsbD_extractLsb', BitVec.getLsbD_shiftLeft, BitVec.getLsbD_setWidth]
  have h₁ : k + i < n := by omega
  have h₂ : k + i - k = i := by omega
  have h₃ : i < n := by omega
  simp [hi, h₁, h₂, h₃]

/-- A shifted value leaves the fields beside its own at zero. -/
theorem extractLsb'_shiftLeft_of_disjoint (b : BitVec m) {j k l : ℕ}
    (hjk : j + l ≤ k ∨ k + m ≤ j) : (b.setWidth n <<< k).extractLsb' j l = 0#l := by
  apply BitVec.eq_of_getLsbD_eq
  intro i hi
  rw [BitVec.getLsbD_extractLsb', BitVec.getLsbD_shiftLeft, BitVec.getLsbD_setWidth]
  rcases hjk with hlow | hhigh
  · have hlt : j + i < k := by omega
    simp [hlt]
  · have hge : m ≤ j + i - k := by omega
    simp [BitVec.getLsbD_of_ge _ _ hge]

end Fields

section Frames

variable {ω : Type*} {last : ω → Bool} {f ws : List ω}

/-- The frames of a stream of words, and the words of the frame that is still open; `cur` holds
the words of the frame that was open before. -/
def frames (last : ω → Bool) : List ω → List ω → List (List ω) × List ω
  | cur, [] => ([], cur)
  | cur, w :: ws =>
    if last w then
      let rest := frames last [] ws
      ((cur ++ [w]) :: rest.1, rest.2)
    else frames last (cur ++ [w]) ws

/-- The last word of a frame is marked, and no other. -/
inductive IsFrame (last : ω → Bool) : List ω → Prop
  | single {w : ω} : last w = true → IsFrame last [w]
  | cons {w : ω} {f : List ω} : last w = false → IsFrame last f → IsFrame last (w :: f)

theorem frames_append_frame (hf : IsFrame last f) (cur ws : List ω) :
    frames last cur (f ++ ws) = ((cur ++ f) :: (frames last [] ws).1, (frames last [] ws).2) := by
  induction hf generalizing cur with
  | single hw =>
    show frames last cur (_ :: ws) = _
    rw [frames, if_pos hw]
  | @cons w f hw _ ih =>
    rw [List.cons_append, frames, if_neg (by simp [hw]), ih, List.append_assoc]
    rfl

/-- **Framing.**  Frames that are sent one after the other are received as they were sent. -/
theorem frames_flatten {fs : List (List ω)} (hfs : ∀ f ∈ fs, IsFrame last f) :
    frames last [] fs.flatten = (fs, []) := by
  induction fs with
  | nil => rfl
  | cons f fs ih =>
    have htail := ih fun g hg => hfs g (by simp [hg])
    rw [List.flatten_cons, frames_append_frame (hfs f (by simp)), htail]
    rfl

end Frames

end RealtimeKernel.Lib
