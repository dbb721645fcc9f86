import Mathlib.Data.Nat.Digits.Lemmas
import RealtimeKernel.CStrings
import RealtimeKernel.Lib.Reversal

/-!
# `utilities.c`: numbers to text and back

The four functions that write a number differ in the type of the number only: each writes the
digits from the last one on, then a sign if there is one, and reverses what it has written.
`/` and `%` of C round towards zero, and a negative number in a base other than 10 keeps its
negative remainders.  `i32` and `i64` wrap around: the negation of the least value is itself.
-/

namespace RealtimeKernel

open Lib

/-! ### Writing a number -/

/-- `(remainder > 9) ? (remainder - 10) + 'A' : remainder + '0'`, stored in a `char`. -/
def digitChar (remainder : ℤ) : U8 :=
  BitVec.ofInt 8 (if remainder > 9 then remainder - 10 + 65 else remainder + 48)

/-- `'-'`. -/
def minus : U8 := 45

/-- The loop that writes the digits at index `i`.  It has an end when the quotients approach
zero; a base of 0 has no quotients, and with 1 or -1 the loop runs for ever. -/
def writeDigits (base number : ℤ) (str : ℕ → U8) (i : ℕ) : Option (ℕ × (ℕ → U8)) :=
  if number = 0 then some (i, str)
  else if 2 ≤ base.natAbs then
    writeDigits base (number.tdiv base) (Function.update str i (digitChar (number.tmod base)))
      (i + 1)
  else none
termination_by number.natAbs
decreasing_by
  rw [Int.natAbs_tdiv]
  exact Nat.div_lt_self (Int.natAbs_pos.mpr ‹_›) ‹_›

/-- The text of a number that is not zero. -/
def writeNumber (negative : Bool) (base number : ℤ) (str : ℕ → U8) : Option (ℕ → U8) := do
  let (i, str) ← writeDigits base number str 0
  let (i, str) := if negative then (i + 1, Function.update str i minus) else (i, str)
  let str := reverseBetween str 0 (i - 1)
  some (Function.update str i 0)

/-- `"0"`. -/
def writeZero (str : ℕ → U8) : ℕ → U8 := Function.update (Function.update str 0 48) 1 0

/-- `u32_to_cstring` and `u64_to_cstring`, for a number of `w` bits. -/
def unsignedToCstring {w : ℕ} (number : BitVec w) (str : ℕ → U8) (base : U32) :
    Option (ℕ → U8) :=
  if number = 0 then some (writeZero str) else writeNumber false base.toNat number.toNat str

/-- `i32_to_cstring` and `i64_to_cstring`, for a number of `w` bits. -/
def signedToCstring {w : ℕ} (number : BitVec w) (str : ℕ → U8) (base : U32) :
    Option (ℕ → U8) :=
  if number = 0 then some (writeZero str)
  else
    let negative := decide (number.toInt < 0 ∧ base.toInt = 10)
    let number := if negative then -number else number
    writeNumber negative base.toInt number.toInt str

def i32ToCstring (number : U32) (str : ℕ → U8) (base : U32) : Option (ℕ → U8) :=
  signedToCstring number str base

def u32ToCstring (number : U32) (str : ℕ → U8) (base : U32) : Option (ℕ → U8) :=
  unsignedToCstring number str base

def i64ToCstring (number : U64) (str : ℕ → U8) (base : U32) : Option (ℕ → U8) :=
  signedToCstring number str base

def u64ToCstring (number : U64) (str : ℕ → U8) (base : U32) : Option (ℕ → U8) :=
  unsignedToCstring number str base

/-! ### Reading a number -/

/-- `value * 10 + (str[i] - '0')`, for an `i32` as for a `u32`. -/
def addDigit (value : U32) (c : U8) : U32 := value * 10 + BitVec.ofInt 32 ((c.toNat : ℤ) - 48)

/-- The loop from index `i` up to `strLen`. -/
def readDigits (str : ℕ → U8) (i strLen : ℕ) : U32 := (bytesAt str i (strLen - i)).foldl addDigit 0

def cstringToU32 (str : StringBuffer) : U32 := readDigits str.bytes 0 (strlen str)

/-- `NULL` is `none`. -/
def cstringLenToU32 (str : Option (ℕ → U8)) (strLen : ℕ) : U32 :=
  str.elim 0 fun str => readDigits str 0 strLen

def cstringToI32 (str : StringBuffer) : U32 :=
  let i := if str.bytes 0 = minus then 1 else 0
  let value := readDigits str.bytes i (strlen str)
  if str.bytes 0 = minus then value * -1 else value

/-! ### Numerals -/

/-- `0` to `9`, then `A` to `Z`. -/
def glyphs : List Char :=
  ['0', '1', '2', '3', '4', '5', '6', '7', '8', '9', 'A', 'B', 'C', 'D', 'E', 'F', 'G', 'H', 'I',
    'J', 'K', 'L', 'M', 'N', 'O', 'P', 'Q', 'R', 'S', 'T', 'U', 'V', 'W', 'X', 'Y', 'Z']

/-- The byte that stands for a digit. -/
def glyph (d : ℕ) : U8 := BitVec.ofNat 8 (glyphs.getD d '0').toNat

/-- `ds` are the digits of the base-`b` numeral of `n`, from the highest place to the lowest:
their positional value is `n`, and only the numeral of 0 begins with a zero. -/
structure Numeral (b n : ℕ) (ds : List ℕ) : Prop where
  ne_nil : ds ≠ []
  lt : ∀ d ∈ ds, d < b
  value : Nat.ofDigits b ds.reverse = n
  lead : ds.head? = some 0 → ds = [0]

section Numerals

variable {b m n i : ℕ} {s : ℤ} {str str' : ℕ → U8} {ds : List ℕ}

theorem digitChar_eq_glyph {d : ℕ} (hd : d < 36) : digitChar d = glyph d := by
  have hall : ∀ d < 36, digitChar ((d : ℕ) : ℤ) = glyph d := by decide
  exact hall d hd

theorem glyph_ne_zero {d : ℕ} (hd : d < 36) : glyph d ≠ 0 := by
  have hall : ∀ d < 36, glyph d ≠ 0 := by decide
  exact hall d hd

/-- The numeral of a positive number is what division by the base yields. -/
theorem numeral_digits (hb : 2 ≤ b) (hn : n ≠ 0) : Numeral b n (Nat.digits b n).reverse where
  ne_nil := by
    rw [Ne, List.reverse_eq_nil_iff]
    exact Nat.digits_ne_nil_iff_ne_zero.mpr hn
  lt := by
    intro d hd
    exact Nat.digits_lt_base hb (List.mem_reverse.mp hd)
  value := by rw [List.reverse_reverse, Nat.ofDigits_digits]
  lead := by
    intro hhead
    rw [List.head?_reverse, List.getLast?_eq_getLast_of_ne_nil
      (Nat.digits_ne_nil_iff_ne_zero.mpr hn)] at hhead
    exact absurd (Option.some.inj hhead) (Nat.getLast_digit_ne_zero b hn)

theorem numeral_zero (hb : 2 ≤ b) : Numeral b 0 [0] where
  ne_nil := by simp
  lt := by
    intro d hd
    rw [List.mem_singleton.mp hd]
    omega
  value := by simp
  lead := fun _ => rfl

/-! ### The digits that are written -/

/-- The digits of `s * m`, `s` being a sign, are written from the lowest place on, and nothing
else is. -/
theorem writeDigits_spec (hb : 2 ≤ b) (hs : s = 1 ∨ s = -1) (m : ℕ) (str : ℕ → U8) (i : ℕ) :
    ∃ str', writeDigits b (s * m) str i = some (i + (Nat.digits b m).length, str') ∧
      bytesAt str' i (Nat.digits b m).length =
        (Nat.digits b m).map (fun d => digitChar (s * (d : ℕ))) ∧
      ∀ k, k < i ∨ i + (Nat.digits b m).length ≤ k → str' k = str k := by
  induction m using Nat.strong_induction_on generalizing str i with
  | _ m ih =>
    by_cases hm : m = 0
    · subst hm
      refine ⟨str, ?_, by simp, fun _ _ => rfl⟩
      rw [writeDigits, if_pos (by simp)]
      simp
    · have hpos : 0 < m := Nat.pos_of_ne_zero hm
      have hne : s * (m : ℤ) ≠ 0 := by
        rcases hs with rfl | rfl <;> omega
      have hdiv : (s * (m : ℤ)).tdiv b = s * (m / b : ℕ) := by
        rcases hs with rfl | rfl <;> simp
      have hmod : (s * (m : ℤ)).tmod b = s * (m % b : ℕ) := by
        rcases hs with rfl | rfl
        · rw [one_mul, one_mul, Int.ofNat_tmod]
        · rw [neg_one_mul, neg_one_mul, Int.neg_tmod, Int.ofNat_tmod]
      obtain ⟨str', hrun, hbytes, hframe⟩ := ih (m / b) (Nat.div_lt_self hpos hb)
        (Function.update str i (digitChar (s * (m % b : ℕ)))) (i + 1)
      rw [Nat.digits_def' hb hpos, List.length_cons]
      refine ⟨str', ?_, ?_, ?_⟩
      · rw [writeDigits, if_neg hne, if_pos (by simpa using hb), hdiv, hmod, hrun]
        congr 2
        omega
      · rw [bytesAt_succ, hbytes, List.map_cons, hframe i (by omega), Function.update_self]
      · intro k hk
        rw [hframe k (by omega), Function.update_of_ne (by omega)]

/-- Reversing the first `n` bytes. -/
theorem bytesAt_reverse (str : ℕ → U8) (n : ℕ) :
    bytesAt (reverseBetween str 0 (n - 1)) 0 n = (bytesAt str 0 n).reverse := by
  apply List.ext_getElem
  · simp
  · intro k hk hk'
    rw [length_bytesAt] at hk
    rw [List.getElem_reverse, getElem_bytesAt, getElem_bytesAt, reverseBetween_apply,
      if_pos (by omega), length_bytesAt]
    congr 1
    omega

/-- `str'` is `str` with the text `l` and a final `'\0'` written to it. -/
structure Writes (str str' : ℕ → U8) (l : List U8) : Prop where
  bytes : bytesAt str' 0 l.length = l
  last : str' l.length = 0
  frame : ∀ k, l.length < k → str' k = str k

/-- The sign that is written in front of the digits. -/
def signText (negative : Bool) : List U8 := if negative then [minus] else []

/-- `writeNumber` writes the sign and the digits from the highest place on. -/
theorem writeNumber_spec (hb : 2 ≤ b) (hs : s = 1 ∨ s = -1) (negative : Bool) (m : ℕ)
    (str : ℕ → U8) :
    ∃ str', writeNumber negative b (s * m) str = some str' ∧
      Writes str str' (signText negative ++
        ((Nat.digits b m).map fun d => digitChar (s * (d : ℕ))).reverse) := by
  obtain ⟨str₁, hrun, hbytes, hframe⟩ := writeDigits_spec hb hs m str 0
  rw [Nat.zero_add] at hrun hframe
  generalize hL : (Nat.digits b m).length = L at *
  let str₂ := if negative then Function.update str₁ L minus else str₁
  let n := if negative then L + 1 else L
  have hn : n = L + (signText negative).length := by
    cases negative <;> rfl
  have hbytes₂ : bytesAt str₂ 0 n =
      ((Nat.digits b m).map fun d => digitChar (s * (d : ℕ))) ++ signText negative := by
    cases negative with
    | false =>
      rw [show signText false = [] from rfl, List.append_nil]
      exact hbytes
    | true =>
      show bytesAt (Function.update str₁ L minus) 0 (L + 1) = _ ++ [minus]
      rw [bytesAt_snoc, Nat.zero_add, Function.update_self, ← hbytes]
      congr 1
      apply bytesAt_congr
      intro k _ hk
      exact Function.update_of_ne (by omega) _ _
  have hframe₂ : ∀ k, n ≤ k → str₂ k = str k := by
    intro k hk
    cases negative with
    | false => exact hframe k (.inr hk)
    | true =>
      have hk' : L + 1 ≤ k := hk
      show Function.update str₁ L minus k = _
      rw [Function.update_of_ne (by omega)]
      exact hframe k (.inr (by omega))
  have hlen : (signText negative ++
      ((Nat.digits b m).map fun d => digitChar (s * (d : ℕ))).reverse).length = n := by
    rw [List.length_append, List.length_reverse, List.length_map, hL, hn, Nat.add_comm]
  refine ⟨Function.update (reverseBetween str₂ 0 (n - 1)) n 0, ?_, ?_, ?_, ?_⟩
  · rw [writeNumber, hrun]
    cases negative <;> rfl
  · have hkeep : bytesAt (Function.update (reverseBetween str₂ 0 (n - 1)) n 0) 0 n =
        bytesAt (reverseBetween str₂ 0 (n - 1)) 0 n := by
      apply bytesAt_congr
      intro k _ hk
      exact Function.update_of_ne (by omega) _ _
    rw [hlen, hkeep, bytesAt_reverse, hbytes₂, List.reverse_append]
    congr 1
    cases negative <;> rfl
  · rw [hlen, Function.update_self]
  · intro k hk
    rw [hlen] at hk
    rw [Function.update_of_ne (by omega), reverseBetween_apply]
    split
    · omega
    · exact hframe₂ k (by omega)

end Numerals

end RealtimeKernel
