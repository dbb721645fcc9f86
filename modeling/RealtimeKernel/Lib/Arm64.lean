import Mathlib.Data.List.FinRange
import RealtimeKernel.Lib.Words

/-!
# A subset of AArch64

The instructions that move words between registers and memory, in straight-line code.  The
processor has the general registers, the two banks of the stack pointer with the `SPSel` that
selects one, and the two registers an exception entry fills.  Fetching is not modelled: `pc` is
where the last branch went.

A run of `stp` or of `ldp` over consecutive words is one step in a proof: `exec_stpUp` and
`exec_ldpDown` are inductions on the list of register pairs.
-/

namespace RealtimeKernel.Lib

/-- `x0`, …, `x30`. -/
abbrev Reg := Fin 31

/-- The link register. -/
def Reg.lr : Reg := ⟨30, by decide⟩

structure Cpu where
  x : Reg → Word
  spEl0 : Word
  spEl1 : Word
  /-- `SPSel`: `sp` names `SP_EL1` rather than `SP_EL0`. -/
  spsel : Bool
  spsrEl1 : Word
  elrEl1 : Word
  pc : Addr
  mem : Mem

/-- The base register of an address. -/
inductive Base
  | x (n : Reg)
  | sp

/-- Addressing modes: `[b, #imm]`, `[b, #imm]!` and `[b], #imm`. -/
inductive Operand
  | offset (b : Base) (imm : ℤ)
  | pre (b : Base) (imm : ℤ)
  | post (b : Base) (imm : ℤ)

inductive Instr
  /-- `ldr xt, =v`. -/
  | ldrLit (t : Reg) (v : Word)
  | ldr (t : Reg) (o : Operand)
  | str (t : Reg) (o : Operand)
  | ldp (t u : Reg) (o : Operand)
  | stp (t u : Reg) (o : Operand)
  | add (d n : Reg) (imm : ℕ)
  | sub (d n : Reg) (imm : ℕ)
  /-- `mov xd, #imm`. -/
  | movImm (d : Reg) (imm : Word)
  /-- `mov xd, sp`. -/
  | movFromSp (d : Reg)
  /-- `mov sp, xn`. -/
  | movToSp (n : Reg)
  | msrSpsel (b : Bool)
  | mrsSpsr (d : Reg)
  | msrSpsr (n : Reg)
  | mrsElr (d : Reg)
  | msrElr (n : Reg)
  | ret
  | eret

namespace Cpu

variable (c : Cpu)

def set (r : Reg) (v : Word) : Cpu := { c with x := Function.update c.x r v }

def sp : Word := if c.spsel then c.spEl1 else c.spEl0

def setSp (v : Word) : Cpu :=
  if c.spsel then { c with spEl1 := v } else { c with spEl0 := v }

def base : Base → Word
  | .x n => c.x n
  | .sp => c.sp

def setBase : Base → Word → Cpu
  | .x n, v => c.set n v
  | .sp, v => c.setSp v

/-- The address an operand denotes. -/
def address : Operand → Addr
  | .offset b imm | .pre b imm => Addr.shift (c.base b) imm
  | .post b _ => c.base b

/-- What the addressing mode leaves in its base register. -/
def writeback : Operand → Cpu
  | .offset _ _ => c
  | .pre b imm | .post b imm => c.setBase b (Addr.shift (c.base b) imm)

def store (a : Addr) (v : Word) : Cpu := { c with mem := store64 c.mem a v }

/-- The meaning of one instruction.  `eret` returns to the state `SPSR_EL1` describes, of which
only the stack pointer selection is modelled. -/
def step : Instr → Cpu
  | .ldrLit t v => c.set t v
  | .ldr t o => (c.writeback o).set t (load64 c.mem (c.address o))
  | .str t o => (c.store (c.address o) (c.x t)).writeback o
  | .ldp t u o =>
    ((c.writeback o).set t (load64 c.mem (c.address o))).set u
      (load64 c.mem ((c.address o).offset 8))
  | .stp t u o =>
    ((c.store (c.address o) (c.x t)).store ((c.address o).offset 8) (c.x u)).writeback o
  | .add d n imm => c.set d (Addr.shift (c.x n) imm)
  | .sub d n imm => c.set d (Addr.shift (c.x n) (-imm))
  | .movImm d imm => c.set d imm
  | .movFromSp d => c.set d c.sp
  | .movToSp n => c.setSp (c.x n)
  | .msrSpsel b => { c with spsel := b }
  | .mrsSpsr d => c.set d c.spsrEl1
  | .msrSpsr n => { c with spsrEl1 := c.x n }
  | .mrsElr d => c.set d c.elrEl1
  | .msrElr n => { c with elrEl1 := c.x n }
  | .ret => { c with pc := c.x .lr }
  | .eret => { c with pc := c.elrEl1, spsel := c.spsrEl1.getLsbD 0 }

/-- Runs straight-line code. -/
def exec (is : List Instr) : Cpu := is.foldl step c

@[simp] theorem exec_nil : c.exec [] = c := rfl

@[simp] theorem exec_cons (i : Instr) (is : List Instr) :
    c.exec (i :: is) = (c.step i).exec is := rfl

theorem exec_append (is js : List Instr) : c.exec (is ++ js) = (c.exec is).exec js :=
  List.foldl_append

end Cpu

/-! ### Runs of register pairs -/

/-- `stp t, u, [xr], #16` for each pair in turn. -/
def stpUp (r : Reg) (pairs : List (Reg × Reg)) : List Instr :=
  pairs.map fun p => .stp p.1 p.2 (.post (.x r) 16)

/-- `ldp t, u, [xr, #-16]!` for each pair in turn. -/
def ldpDown (r : Reg) (pairs : List (Reg × Reg)) : List Instr :=
  pairs.map fun p => .ldp p.1 p.2 (.pre (.x r) (-16))

/-- The registers of the pairs, in order. -/
def pairRegs (pairs : List (Reg × Reg)) : List Reg := pairs.flatMap fun p => [p.1, p.2]

@[simp] theorem pairRegs_nil : pairRegs [] = [] := rfl

@[simp] theorem pairRegs_cons (p : Reg × Reg) (pairs : List (Reg × Reg)) :
    pairRegs (p :: pairs) = p.1 :: p.2 :: pairRegs pairs := rfl

/-- A run of `stp` stores the registers as consecutive words. -/
theorem exec_stpUp (c : Cpu) {r : Reg} {pairs : List (Reg × Reg)} (hr : r ∉ pairRegs pairs) :
    c.exec (stpUp r pairs) =
      { c with
        x := Function.update c.x r (Addr.shift (c.x r) (16 * pairs.length))
        mem := storeWords c.mem (c.x r) ((pairRegs pairs).map c.x) } := by
  induction pairs generalizing c with
  | nil => simp [stpUp, storeWords]
  | cons p pairs ih =>
    simp only [pairRegs_cons, List.mem_cons, not_or] at hr
    obtain ⟨h₁, h₂, hrest⟩ := hr
    have hx : ∀ q ∈ pairRegs pairs, Function.update c.x r (Addr.shift (c.x r) 16) q = c.x q := by
      intro q hq
      refine Function.update_of_ne ?_ _ _
      rintro rfl
      exact hrest hq
    show (c.step (.stp p.1 p.2 (.post (.x r) 16))).exec (stpUp r pairs) = _
    rw [ih _ hrest]
    have hstep : c.step (.stp p.1 p.2 (.post (.x r) 16)) =
        { c with
          x := Function.update c.x r (Addr.shift (c.x r) 16)
          mem := store64 (store64 c.mem (c.x r) (c.x p.1)) (Addr.offset (c.x r) 8) (c.x p.2) } :=
      rfl
    rw [hstep]
    have hend : Addr.shift (c.x r) (16 + 16 * pairs.length) =
        Addr.shift (c.x r) (16 * (p :: pairs).length) := by
      congr 1
      simp only [List.length_cons]
      omega
    simp only [Function.update_self, Function.update_idem, Addr.shift_shift, hend, pairRegs_cons,
      List.map_cons, storeWords, Addr.offset_offset, List.map_congr_left hx,
      Addr.offset_eq_shift (c.x r) 16]
    rfl

/-- The pairs hold the registers below `k`, two at a time and downwards. -/
def Descends : ℕ → List (Reg × Reg) → Prop
  | _, [] => True
  | k, p :: pairs => p.1.val + 2 = k ∧ p.2.val + 1 = k ∧ Descends (k - 2) pairs

instance : ∀ (k : ℕ) (pairs : List (Reg × Reg)), Decidable (Descends k pairs)
  | _, [] => inferInstanceAs (Decidable True)
  | k, _ :: pairs =>
    have := instDecidableDescends (k - 2) pairs
    inferInstanceAs (Decidable (_ ∧ _ ∧ _))

/-- A run of `ldp` loads each register from the word its number gives. -/
theorem exec_ldpDown (c : Cpu) {r : Reg} {pairs : List (Reg × Reg)} (hr : r ∉ pairRegs pairs)
    {b : Addr} {k : ℕ} (hk : Descends k pairs) (hb : c.x r = b.offset (8 * k)) :
    c.exec (ldpDown r pairs) =
      { c with x := fun q =>
          if q = r then b.shift (8 * k - 16 * pairs.length)
          else if q ∈ pairRegs pairs then load64 c.mem (b.offset (8 * q.val)) else c.x q } := by
  induction pairs generalizing c k with
  | nil =>
    have hx : c.x r = b.shift (8 * k) := by
      rw [hb, Addr.offset_eq_shift]
      push_cast
      rfl
    have : (fun q => if q = r then b.shift (8 * k) else c.x q) = c.x := by
      funext q
      split
      · rename_i hq
        rw [hq, hx]
      · rfl
    simp [ldpDown, this]
  | cons p pairs ih =>
    simp only [pairRegs_cons, List.mem_cons, not_or] at hr
    obtain ⟨h₁, h₂, hrest⟩ := hr
    obtain ⟨hp₁, hp₂, hk'⟩ := hk
    have haddr : Addr.shift (c.x r) (-16) = b.offset (8 * p.1.val) := by
      rw [hb, Addr.offset_eq_shift, Addr.shift_shift, Addr.offset_eq_shift]
      congr 1
      omega
    have haddr₂ : (b.offset (8 * p.1.val)).offset 8 = b.offset (8 * p.2.val) := by
      rw [Addr.offset_offset]
      congr 1
      omega
    let x' : Reg → Word :=
      Function.update (Function.update (Function.update c.x r (b.offset (8 * p.1.val))) p.1
        (load64 c.mem (b.offset (8 * p.1.val)))) p.2 (load64 c.mem (b.offset (8 * p.2.val)))
    let c' : Cpu := { c with x := x' }
    have hstep : c.step (.ldp p.1 p.2 (.pre (.x r) (-16))) = c' := by
      simp only [c', x', ← haddr₂, ← haddr]
      rfl
    have hb' : c'.x r = b.offset (8 * (k - 2)) := by
      show Function.update (Function.update (Function.update c.x r _) p.1 _) p.2 _ r = _
      rw [Function.update_of_ne h₂, Function.update_of_ne h₁, Function.update_self]
      congr 1
      omega
    show (c.step (.ldp p.1 p.2 (.pre (.x r) (-16)))).exec (ldpDown r pairs) = _
    rw [hstep, ih c' hrest hk' hb']
    have hend : b.shift (8 * ((k - 2 : ℕ) : ℤ) - 16 * pairs.length) =
        b.shift (8 * k - 16 * (p :: pairs).length) := by
      congr 1
      simp only [List.length_cons]
      omega
    show ({ c with x := _ } : Cpu) = { c with x := _ }
    congr 1
    funext q
    by_cases hq : q = r
    · rw [if_pos hq, if_pos hq, hend]
    · rw [if_neg hq, if_neg hq]
      by_cases hm : q ∈ pairRegs pairs
      · rw [if_pos hm, if_pos (by simp [hm])]
      · rw [if_neg hm]
        show Function.update (Function.update (Function.update c.x r _) p.1 _) p.2 _ q = _
        by_cases hq₂ : q = p.2
        · subst hq₂
          rw [Function.update_self, if_pos (by simp)]
        · rw [Function.update_of_ne hq₂]
          by_cases hq₁ : q = p.1
          · subst hq₁
            rw [Function.update_self, if_pos (by simp)]
          · rw [Function.update_of_ne hq₁, Function.update_of_ne hq,
              if_neg (by simp [hq₁, hq₂, hm])]

end RealtimeKernel.Lib
