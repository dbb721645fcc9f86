import Mathlib.Data.Set.Insert
import RealtimeKernel.Basic
import RealtimeKernel.Lib.Sessions

/-!
# Enabling and disabling one interrupt

The distributor keeps one enable bit per interrupt, 32 to a word, behind two banks of registers:
writing a one to a bit of `isenable` enables that interrupt, writing a one to a bit of `icenable`
disables it, zeros have no effect, and reading either bank returns the enabled interrupts.  Both
functions of `interrupt.c` read a register and write the value back with one bit more.  On
`isenable` that names the interrupts that are enabled already; on `icenable` it names every
enabled interrupt of the word.
-/

namespace RealtimeKernel

open Lib

/-! ### The distributor -/

/-- The number of words of `isenable` and of `icenable`. -/
def gicdEnableWords : ℕ := 32

/-- The enable bits: bit `i` of word `n` is that of interrupt `32 * n + i`. -/
structure Gicd where
  enabled : ℕ → U32

/-- A register outside of the two banks is accessed. -/
inductive GicdFault
  | outOfBounds
  deriving DecidableEq, Repr

namespace Gicd

/-- Reading `isenable[index]` or `icenable[index]`. -/
def read (gicd : Gicd) (index : ℕ) : U32 := gicd.enabled index

/-- Writing `isenable[index]`. -/
def writeIsenable (gicd : Gicd) (index : ℕ) (value : U32) : Gicd :=
  { gicd with enabled := Function.update gicd.enabled index (gicd.enabled index ||| value) }

/-- Writing `icenable[index]`. -/
def writeIcenable (gicd : Gicd) (index : ℕ) (value : U32) : Gicd :=
  { gicd with enabled := Function.update gicd.enabled index (gicd.enabled index &&& ~~~value) }

end Gicd

/-! ### `interrupt.c` -/

def gicdEnableInterrupt (gicd : Gicd) (intid : U16) : Except GicdFault Gicd :=
  let index := (intid >>> 5).toNat
  let bitPos := (intid &&& 31).toNat
  if index < gicdEnableWords then
    .ok (gicd.writeIsenable index (gicd.read index ||| (1 : U32) <<< bitPos))
  else .error .outOfBounds

def gicdDisableInterrupt (gicd : Gicd) (intid : U16) : Except GicdFault Gicd :=
  let index := (intid >>> 5).toNat
  if index < gicdEnableWords then
    .ok (gicd.writeIcenable index (gicd.read index ||| (1 : U32) <<< (intid &&& 31).toNat))
  else .error .outOfBounds

namespace Gicd

variable {d d' : Gicd} {intid : U16} {j n : ℕ}

theorem index_eq (intid : U16) : (intid >>> 5).toNat = intid.toNat / 32 := by
  rw [BitVec.toNat_ushiftRight, Nat.shiftRight_eq_div_pow]

theorem bitPos_eq (intid : U16) : (intid &&& 31).toNat = intid.toNat % 32 := by
  rw [BitVec.toNat_and]
  exact Nat.and_two_pow_sub_one_eq_mod intid.toNat 5

/-- The interrupts that are enabled. -/
def enabledSet (d : Gicd) : Set ℕ :=
  {j | j / 32 < gicdEnableWords ∧ (d.enabled (j / 32)).getLsbD (j % 32) = true}

/-- The mask of one interrupt has its bit and no other. -/
theorem getLsbD_mask {i k : ℕ} (hk : k < 32) : ((1 : U32) <<< i).getLsbD k = decide (k = i) := by
  rw [BitVec.getLsbD_shiftLeft, show (1 : U32) = 1#32 from rfl, BitVec.getLsbD_one]
  by_cases hki : k = i
  · simp [hki, hki ▸ hk]
  · simp [hki]
    omega

/-- Interrupts are equal when word and bit are. -/
theorem eq_iff : j = n ↔ j / 32 = n / 32 ∧ j % 32 = n % 32 := by
  constructor
  · intro h
    rw [h]
    exact ⟨rfl, rfl⟩
  · intro h
    omega

/-- `gicd_enable_interrupt` adds the interrupt it names. -/
theorem enable_enabledSet (h : gicdEnableInterrupt d intid = .ok d') :
    d'.enabledSet = insert intid.toNat d.enabledSet := by
  unfold gicdEnableInterrupt at h
  rw [index_eq, bitPos_eq] at h
  simp only at h
  split at h
  · rename_i hlt
    cases h
    ext j
    rw [Set.mem_insert_iff, eq_iff]
    simp only [enabledSet, Set.mem_ofPred_eq, writeIsenable, read]
    by_cases hj : j / 32 = intid.toNat / 32
    · rw [hj, Function.update_self]
      simp only [BitVec.getLsbD_or, getLsbD_mask (Nat.mod_lt j (by decide : 0 < 32)),
        Bool.or_eq_true, decide_eq_true_eq, hlt, true_and]
      tauto
    · rw [Function.update_of_ne hj]
      simp [hj]
  · cases h

/-- `gicd_disable_interrupt` removes every interrupt of the word it names. -/
theorem disable_enabledSet (h : gicdDisableInterrupt d intid = .ok d') :
    d'.enabledSet = d.enabledSet \ {j | j / 32 = intid.toNat / 32} := by
  unfold gicdDisableInterrupt at h
  rw [index_eq, bitPos_eq] at h
  simp only at h
  split at h
  · rename_i hlt
    cases h
    ext j
    simp only [enabledSet, Set.mem_ofPred_eq, Set.mem_sdiff, writeIcenable, read]
    by_cases hj : j / 32 = intid.toNat / 32
    · rw [hj, Function.update_self]
      simp only [BitVec.getLsbD_and, BitVec.getLsbD_not, BitVec.getLsbD_or]
      cases hb : (d.enabled (intid.toNat / 32)).getLsbD (j % 32) <;> simp
    · rw [Function.update_of_ne hj]
      simp [hj]
  · cases h

end Gicd

/-! ### Sequences of calls -/

inductive GicdCall
  | enable (intid : U16)
  | disable (intid : U16)
  deriving DecidableEq, Repr

def GicdCall.intid : GicdCall → U16
  | .enable intid => intid
  | .disable intid => intid

def gicdCall : Component Gicd GicdCall Unit GicdFault
  | d, .enable intid => (gicdEnableInterrupt d intid).map fun d' => ((), d')
  | d, .disable intid => (gicdDisableInterrupt d intid).map fun d' => ((), d')

/-- The set that one call should leave. -/
def GicdCall.apply (s : Set ℕ) : GicdCall → Set ℕ
  | .enable intid => insert intid.toNat s
  | .disable intid => s \ {intid.toNat}

/-- The interrupts that should be enabled after a transcript. -/
def namedSet (s : Set ℕ) (h : List (GicdCall × Unit)) : Set ℕ :=
  h.foldl (fun s e => e.1.apply s) s

theorem namedSet_snoc (s : Set ℕ) (h : List (GicdCall × Unit)) (e : GicdCall × Unit) :
    namedSet s (h ++ [e]) = e.1.apply (namedSet s h) := by
  simp [namedSet]

/-- A call that disables an interrupt finds no other interrupt of its word enabled. -/
def Alone (s : Set ℕ) (h : List (GicdCall × Unit)) : GicdCall → Prop
  | .enable _ => True
  | .disable intid => ∀ j ∈ namedSet s h, j / 32 = intid.toNat / 32 → j = intid.toNat

namespace Gicd

variable {d d' : Gicd} {c : GicdCall} {r : Unit} {s : Set ℕ} {h : List (GicdCall × Unit)}

/-- A write that is guarded by its index returns just when the index is in bounds. -/
theorem guarded_returns_iff {p : Prop} [Decidable p] (d : Gicd) (e : GicdFault) :
    (∃ d', (if p then .ok d else .error e : Except GicdFault Gicd).map (fun d' => ((), d')) =
      .ok ((), d')) ↔ p := by
  by_cases hp : p
  · rw [if_pos hp]
    exact iff_of_true ⟨d, rfl⟩ hp
  · rw [if_neg hp]
    refine iff_of_false ?_ hp
    rintro ⟨d', hd'⟩
    cases hd'

/-- The calls that return are those on the interrupts of the distributor. -/
theorem call_returns_iff (d : Gicd) (c : GicdCall) :
    (∃ d', gicdCall d c = .ok ((), d')) ↔ c.intid.toNat < 1024 := by
  have hword : (c.intid >>> 5).toNat < gicdEnableWords ↔ c.intid.toNat < 1024 := by
    rw [index_eq, gicdEnableWords]
    omega
  rw [← hword]
  cases c with
  | enable intid => exact guarded_returns_iff _ _
  | disable intid => exact guarded_returns_iff _ _

/-- One call does what it should just when no other interrupt is in its way. -/
theorem call_exact_iff (hd : d.enabledSet = namedSet s h) (hc : gicdCall d c = .ok (r, d')) :
    d'.enabledSet = namedSet s (h ++ [(c, r)]) ↔ Alone s h c := by
  rw [namedSet_snoc, ← hd]
  cases c with
  | enable intid =>
    obtain ⟨d'', hd'', he⟩ := map_eq_ok.mp hc
    cases he
    simp only [enable_enabledSet hd'', GicdCall.apply, Alone]
  | disable intid =>
    obtain ⟨d'', hd'', he⟩ := map_eq_ok.mp hc
    cases he
    simp only [disable_enabledSet hd'', GicdCall.apply, Alone, ← hd]
    constructor
    · intro hset j hj hword
      by_contra hne
      have hin : j ∈ d.enabledSet \ {intid.toNat} := ⟨hj, hne⟩
      rw [← hset] at hin
      exact hin.2 hword
    · intro halone
      ext j
      constructor
      · rintro ⟨hj, hword⟩
        refine ⟨hj, ?_⟩
        rintro rfl
        exact hword rfl
      · rintro ⟨hj, hne⟩
        exact ⟨hj, fun hword => hne (halone j hj hword)⟩

end Gicd

/-- **Where enabling is per interrupt.**  In a session with the distributor, the enabled set is
in every state what adding and removing the named interrupts makes of it just when every call
of `gicd_disable_interrupt` finds no other interrupt of its word enabled. -/
theorem gicd_enables_exact_iff {d₀ d : Gicd} {h : List (GicdCall × Unit)}
    (hd : Session gicdCall d₀ h d) :
    (∀ p q d', h = p ++ q → Session gicdCall d₀ p d' →
      d'.enabledSet = namedSet d₀.enabledSet p) ↔ Promised (Alone d₀.enabledSet) h := by
  apply hd.good_iff (fun p d' => d'.enabledSet = namedSet d₀.enabledSet p)
    (promised_of_forall fun _ _ => trivial) rfl
  intro h d c r d' _ _ hgood _ hstep
  exact Gicd.call_exact_iff hgood hstep

/-- An interrupt that is alone in its word can be disabled. -/
theorem gicd_enables_exact_iff_run : ∃ (h : List (GicdCall × Unit)) (d : Gicd),
    Session gicdCall ⟨fun _ => 0⟩ h d ∧
    h.map Prod.fst = [.enable 97, .enable 130, .disable 97] ∧
    d.enabledSet = namedSet (Gicd.enabledSet ⟨fun _ => 0⟩) h := by
  let h : List (GicdCall × Unit) := [(.enable 97, ()), (.enable 130, ()), (.disable 97, ())]
  have hexec : ∃ d, Session.exec gicdCall ⟨fun _ => 0⟩
      [.enable 97, .enable 130, .disable 97] = .ok (h, d) := ⟨_, rfl⟩
  obtain ⟨d, hrun⟩ := hexec
  have hd := Session.of_exec hrun
  have halone : Promised (Alone (Gicd.enabledSet ⟨fun _ => 0⟩)) h := by
    show Promised _ ([] ++ [_] ++ [_] ++ [_])
    simp only [promised_snoc, promised_nil, true_and]
    refine ⟨⟨trivial, trivial⟩, ?_⟩
    intro j hj hword
    have hj' : j = 130 ∨ j = 97 ∨ j ∈ Gicd.enabledSet ⟨fun _ => 0⟩ := by
      simpa [namedSet, GicdCall.apply] using hj
    rcases hj' with rfl | rfl | hj'
    · cases hword
    · rfl
    · simp [Gicd.enabledSet] at hj'
  exact ⟨h, d, hd, rfl, (gicd_enables_exact_iff hd).mpr halone h [] d (by simp) hd⟩

/-- Interrupts 97 and 98 are enabled, then 97 is disabled: 98 is disabled with it. -/
theorem disable_takes_the_word : ∃ (h : List (GicdCall × Unit)) (d : Gicd),
    Session gicdCall ⟨fun _ => 0⟩ h d ∧
    h.map Prod.fst = [.enable 97, .enable 98, .disable 97] ∧
    98 ∈ namedSet (Gicd.enabledSet ⟨fun _ => 0⟩) h ∧ 98 ∉ d.enabledSet := by
  have hexec : ∃ h d, Session.exec gicdCall ⟨fun _ => 0⟩
      [.enable 97, .enable 98, .disable 97] = .ok (h, d) ∧
      h = [(.enable 97, ()), (.enable 98, ()), (.disable 97, ())] ∧ d.enabled 3 = 0 := by
    exact ⟨_, _, rfl, rfl, by decide⟩
  obtain ⟨h, d, hrun, hh, hword⟩ := hexec
  refine ⟨h, d, Session.of_exec hrun, by rw [hh]; rfl, ?_, ?_⟩
  · rw [hh]
    simp [namedSet, GicdCall.apply]
  · intro hin
    have hbit := hin.2
    rw [show 98 / 32 = 3 from rfl, hword] at hbit
    simp at hbit

end RealtimeKernel
