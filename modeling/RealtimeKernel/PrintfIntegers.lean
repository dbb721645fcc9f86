import RealtimeKernel.Conversions
import RealtimeKernel.PrintfText

/-!
# Integer directives

The field of an integer consists of a sign, zeros and digits, and is padded with spaces to its
width.  A directive without `#` prints this field when sign, zeros and digits fit into the buffer
of `_ntoa_format`, and when no zeros are asked for in a field that is justified to the left, where
the precision is ignored.  `%d` therefore writes every `int` so that it is read back, the least one
as well.
-/

namespace RealtimeKernel

open Lib

/-! ### The field of an integer -/

/-- The digits of a number, the first one first. -/
def numeralText (base : ℕ) (uppercase : Bool) (n : ℕ) : List U8 :=
  if n = 0 then [byte '0'] else (Nat.digits base n).reverse.map (ntoaDigit uppercase)

/-- The integer that an argument stands for: the directive names its type, and `char` is
unsigned. -/
def integerValue (c : U8) (flags : PrintfFlags) (a : U64) : ℤ :=
  if c = byte 'i' ∨ c = byte 'd' then
    if flags.long then a.toInt
    else if flags.char then (a.setWidth 8).toNat
    else if flags.short then (a.setWidth 16).toInt
    else (a.setWidth 32).toInt
  else if flags.long then a.toNat
  else if flags.char then (a.setWidth 8).toNat
  else if flags.short then (a.setWidth 16).toNat
  else (a.setWidth 32).toNat

/-- The number 0 has no digits of its own when there is a precision. -/
def integerDigits (base : ℕ) (flags : PrintfFlags) (z : ℤ) : List U8 :=
  if flags.precision ∧ z = 0 then [] else numeralText base flags.uppercase z.natAbs

def integerSign (flags : PrintfFlags) (z : ℤ) : List U8 :=
  if z < 0 then [byte '-']
  else if flags.plus then [byte '+']
  else if flags.space then [byte ' ']
  else []

/-- A precision is the least number of digits; without one, the flag `0` fills the width. -/
def integerZeros (base : ℕ) (flags : PrintfFlags) (width prec : ℕ) (z : ℤ) : ℕ :=
  if flags.precision then prec - (integerDigits base flags z).length
  else if flags.zeropad ∧ ¬ flags.left then
    width - ((integerSign flags z).length + (integerDigits base flags z).length)
  else 0

def integerBody (base : ℕ) (flags : PrintfFlags) (width prec : ℕ) (z : ℤ) : List U8 :=
  integerSign flags z ++ List.replicate (integerZeros base flags width prec z) (byte '0') ++
    integerDigits base flags z

def integerText (base : ℕ) (flags : PrintfFlags) (width prec : ℕ) (z : ℤ) : List U8 :=
  padded (!flags.left) flags.left width (integerBody base flags width prec z)

/-! ### The buffer of a number -/

section Buffer

variable {buf : NtoaBuffer} {base n : ℕ} {uppercase negative : Bool} {flags : PrintfFlags}

theorem NtoaBuffer.push_chars {c : U8} (h : buf.len < ntoaBufferSize) :
    (buf.push c).chars = buf.chars ++ [c] := by
  have h' : buf.chars.length < ntoaBufferSize := h
  rw [NtoaBuffer.push, dif_pos h']

theorem NtoaBuffer.push_len {c : U8} (h : buf.len < ntoaBufferSize) :
    (buf.push c).len = buf.len + 1 := by
  rw [NtoaBuffer.len, NtoaBuffer.push_chars h, List.length_append]
  rfl

theorem NtoaBuffer.zeros_chars (h : n ≤ ntoaBufferSize) :
    (buf.zeros n).chars = buf.chars ++ List.replicate (n - buf.len) (byte '0') := by
  show buf.chars ++ List.replicate (min n ntoaBufferSize - buf.len) (byte '0') = _
  rw [Nat.min_eq_left h]

theorem NtoaBuffer.ext {buf' : NtoaBuffer} (h : buf.chars = buf'.chars) : buf = buf' := by
  cases buf
  cases buf'
  cases h
  rfl

theorem NtoaBuffer.zeros_zero : buf.zeros 0 = buf := by
  apply NtoaBuffer.ext
  rw [NtoaBuffer.zeros_chars (Nat.zero_le _), Nat.zero_sub]
  exact List.append_nil _

/-- The digits of a number, of which there is one at least, the last one first. -/
def digitsOf (base n : ℕ) : List ℕ := if n = 0 then [0] else Nat.digits base n

theorem digitsOf_eq (hb : 2 ≤ base) :
    digitsOf base n = n % base :: if n / base = 0 then [] else digitsOf base (n / base) := by
  unfold digitsOf
  by_cases hn : n = 0
  · simp [hn]
  · rw [if_neg hn, Nat.digits_def' (by omega) (Nat.pos_of_ne_zero hn)]
    by_cases hq : n / base = 0
    · simp [hq]
    · simp [hq]

/-- The loop writes digits from the last one on, as long as there is room. -/
theorem ntoaDigits_chars (hb : 2 ≤ base) {k value : ℕ} (hlen : buf.len < ntoaBufferSize)
    (hk : ntoaBufferSize ≤ buf.len + k) : (ntoaDigits base uppercase k value buf).chars =
      buf.chars ++ ((digitsOf base value).take (ntoaBufferSize - buf.len)).map
        (ntoaDigit uppercase) := by
  induction k generalizing buf value with
  | zero => omega
  | succ k ih =>
    obtain ⟨m, hm⟩ : ∃ m, ntoaBufferSize - buf.len = m + 1 :=
      ⟨ntoaBufferSize - buf.len - 1, by omega⟩
    have hpush := NtoaBuffer.push_len (c := ntoaDigit uppercase (value % base)) hlen
    rw [ntoaDigits, digitsOf_eq hb, hm, List.take_succ_cons, List.map_cons]
    by_cases hq : value / base = 0
    · rw [if_neg fun h => h.1 hq, if_pos hq, NtoaBuffer.push_chars hlen]
      simp
    · rw [if_neg hq]
      by_cases hroom : (buf.push (ntoaDigit uppercase (value % base))).len < ntoaBufferSize
      · rw [if_pos ⟨hq, hroom⟩, ih hroom (by omega), NtoaBuffer.push_chars hlen, hpush,
          show ntoaBufferSize - (buf.len + 1) = m by omega]
        simp
      · rw [if_neg fun h => hroom h.2, NtoaBuffer.push_chars hlen, show m = 0 by omega]
        simp

theorem numeralText_eq : numeralText base uppercase n =
    ((digitsOf base n).map (ntoaDigit uppercase)).reverse := by
  unfold numeralText digitsOf
  by_cases hn : n = 0
  · rw [if_pos hn, if_pos hn]
    rfl
  · rw [if_neg hn, if_neg hn, List.map_reverse]

/-- The digits that are written are those of the field, if they fit. -/
theorem ntoaValue_chars {value : U64} {z : ℤ} (hb : 2 ≤ base) (hz : z.natAbs = value.toNat)
    (hroom : (integerDigits base flags z).length ≤ ntoaBufferSize) :
    (ntoaValue value base flags).chars = (integerDigits base flags z).reverse := by
  have hzero : value = 0 ↔ z = 0 := by
    rw [← Int.natAbs_eq_zero, hz]
    exact ⟨fun h => by rw [h]; rfl, fun h => BitVec.eq_of_toNat_eq h⟩
  unfold ntoaValue integerDigits at *
  by_cases hempty : flags.precision = true ∧ z = 0
  · rw [if_pos hempty, if_neg fun h => h.elim (fun h => h hempty.1)
      fun h => h (hzero.mpr hempty.2)]
    rfl
  · have hprint : ¬ flags.precision = true ∨ value ≠ 0 := by
      by_cases hp : flags.precision = true
      · exact .inr fun h => hempty ⟨hp, hzero.mp h⟩
      · exact .inl hp
    rw [if_neg hempty] at hroom ⊢
    rw [numeralText_eq, List.length_reverse, List.length_map] at hroom
    rw [if_pos hprint, ntoaDigits_chars hb (by decide) (by decide), numeralText_eq,
      List.reverse_reverse, ← hz]
    exact congrArg (List.map _) (List.take_of_length_le hroom)

theorem ntoaSign_chars {z : ℤ} (hneg : negative = decide (z < 0))
    (hroom : buf.len + (integerSign flags z).length ≤ ntoaBufferSize) :
    (ntoaSign buf negative flags).chars = buf.chars ++ integerSign flags z := by
  subst hneg
  unfold ntoaSign integerSign at *
  by_cases hz : z < 0
  · rw [if_pos hz] at hroom ⊢
    rw [if_pos (decide_eq_true hz)]
    exact NtoaBuffer.push_chars hroom
  rw [if_neg hz] at hroom ⊢
  rw [if_neg fun h => hz (of_decide_eq_true h)]
  by_cases hplus : flags.plus = true
  · rw [if_pos hplus] at hroom ⊢
    rw [if_pos hplus]
    exact NtoaBuffer.push_chars hroom
  rw [if_neg hplus] at hroom ⊢
  rw [if_neg hplus]
  by_cases hspace : flags.space = true
  · rw [if_pos hspace] at hroom ⊢
    rw [if_pos hspace]
    exact NtoaBuffer.push_chars hroom
  · rw [if_neg hspace, if_neg hspace]
    exact (List.append_nil _).symm

theorem integerSign_reverse (flags : PrintfFlags) (z : ℤ) :
    (integerSign flags z).reverse = integerSign flags z := by
  unfold integerSign
  split_ifs <;> rfl

/-- A sign takes a place from the zeros that fill the width. -/
theorem integerSign_length (flags : PrintfFlags) (z : ℤ) : (integerSign flags z).length =
    if z < 0 ∨ flags.plus ∨ flags.space then 1 else 0 := by
  unfold integerSign
  by_cases hz : z < 0
  · rw [if_pos hz, if_pos (.inl hz)]
    rfl
  by_cases hplus : flags.plus = true
  · rw [if_neg hz, if_pos hplus, if_pos (.inr (.inl hplus))]
    rfl
  by_cases hspace : flags.space = true
  · rw [if_neg hz, if_neg hplus, if_pos hspace, if_pos (.inr (.inr hspace))]
    rfl
  · rw [if_neg hz, if_neg hplus, if_neg hspace, if_neg (by tauto)]
    rfl

end Buffer

/-! ### What is printed -/

section Field

variable {base : ℕ} {flags : PrintfFlags} {width prec : U32} {z : ℤ} {buf : NtoaBuffer}
  {negative : Bool}

theorem length_integerBody (base : ℕ) (flags : PrintfFlags) (width prec : ℕ) (z : ℤ) :
    (integerBody base flags width prec z).length = (integerSign flags z).length +
      integerZeros base flags width prec z + (integerDigits base flags z).length := by
  rw [integerBody, List.length_append, List.length_append, List.length_replicate]

/-- The zeros that are written are those of the field, if they fit; a width is left over for
spaces only when it is not filled with zeros. -/
theorem ntoaZeros_chars (hneg : negative = decide (z < 0))
    (hbuf : buf.chars = (integerDigits base flags z).reverse)
    (hprec : flags.precision = false → prec = 0)
    (hzeropad : flags.precision = true → flags.zeropad = false)
    (hroom : (integerBody base flags width.toNat prec.toNat z).length ≤ ntoaBufferSize)
    (hleft : flags.left = true → integerZeros base flags width.toNat prec.toNat z = 0) :
    (ntoaZeros buf negative prec width flags).2.chars = buf.chars ++
      List.replicate (integerZeros base flags width.toNat prec.toNat z) (byte '0') ∧
    (flags.zeropad = false ∨ flags.left = true →
      (ntoaZeros buf negative prec width flags).1 = width) := by
  have hlen : buf.len = (integerDigits base flags z).length := by
    rw [NtoaBuffer.len, hbuf, List.length_reverse]
  rw [length_integerBody] at hroom
  unfold ntoaZeros
  by_cases hl : flags.left = true
  · rw [if_neg (not_not_intro hl), hleft hl]
    exact ⟨(List.append_nil _).symm, fun _ => rfl⟩
  rw [if_pos hl]
  by_cases hp : flags.precision = true
  · -- the precision gives the number of zeros, and the flag `0` is off
    have hz := hzeropad hp
    have hcount : integerZeros base flags width.toNat prec.toNat z = prec.toNat - buf.len := by
      rw [integerZeros, if_pos hp, hlen]
    simp only [hz, Bool.false_eq_true, false_and, and_false, if_false, true_or]
    refine ⟨?_, fun _ => trivial⟩
    by_cases hbig : prec.toNat ≤ ntoaBufferSize
    · rw [NtoaBuffer.zeros_chars hbig, hcount]
    · omega
  · have hp' : flags.precision = false := by simpa using hp
    have hnone : buf.zeros prec.toNat = buf := by
      rw [hprec hp']
      exact NtoaBuffer.zeros_zero
    rw [hnone]
    by_cases hz : flags.zeropad = true
    · -- the zeros fill the width up to the sign
      have hcount : integerZeros base flags width.toNat prec.toNat z =
          width.toNat - ((integerSign flags z).length + buf.len) := by
        rw [integerZeros, if_neg hp, if_pos ⟨hz, hl⟩, hlen]
      have hsign := integerSign_length flags z
      subst hneg
      simp only [hz, true_and, if_true, decide_eq_true_eq, Bool.true_eq_false, false_or]
      refine ⟨?_, fun h => absurd h hl⟩
      by_cases hs : z < 0 ∨ flags.plus = true ∨ flags.space = true
      · rw [if_pos hs] at hsign
        by_cases hw : width = 0
        · have hw' : width.toNat = 0 := by rw [hw]; rfl
          rw [if_neg fun h => h.1 hw, hcount, hw', NtoaBuffer.zeros_zero, Nat.zero_sub]
          exact (List.append_nil _).symm
        · have hpos : width.toNat ≠ 0 := fun h => hw (BitVec.eq_of_toNat_eq h)
          have hsub : (width - 1).toNat = width.toNat - 1 := by
            rw [BitVec.toNat_sub_of_le]
            · rfl
            · show 1 ≤ width.toNat
              omega
          rw [if_pos ⟨hw, hs⟩, NtoaBuffer.zeros_chars (by rw [hsub]; omega), hsub, hcount]
          congr 2
          omega
      · rw [if_neg hs] at hsign
        rw [if_neg fun h => hs h.2, NtoaBuffer.zeros_chars (by omega), hcount, hsign, Nat.zero_add]
    · have hz' : flags.zeropad = false := by simpa using hz
      have hcount : integerZeros base flags width.toNat prec.toNat z = 0 := by
        rw [integerZeros, if_neg hp, if_neg fun h => hz h.1]
      simp only [hz', Bool.false_eq_true, false_and, and_false, if_false, true_or]
      rw [hcount]
      exact ⟨(List.append_nil _).symm, fun _ => trivial⟩

/-- **`_ntoa_long` prints the field of its number**, without the flag `#`, if it fits. -/
theorem longText_exact {value : U64} (hb : 2 ≤ base) (hneg : negative = decide (z < 0))
    (hz : z.natAbs = value.toNat) (hhash : flags.hash = false)
    (hprec : flags.precision = false → prec = 0)
    (hzeropad : flags.precision = true → flags.zeropad = false)
    (hroom : (integerBody base flags width.toNat prec.toNat z).length ≤ ntoaBufferSize)
    (hleft : flags.left = true → integerZeros base flags width.toNat prec.toNat z = 0) :
    longText value negative base prec width flags =
      integerText base flags width.toNat prec.toNat z := by
  have hbody := length_integerBody base flags width.toNat prec.toNat z
  have hvalue : (ntoaValue value base flags).chars = (integerDigits base flags z).reverse :=
    ntoaValue_chars hb hz (by omega)
  obtain ⟨hchars, hwidth⟩ := ntoaZeros_chars hneg hvalue hprec hzeropad hroom hleft
  have hlen := congrArg List.length hchars
  rw [hvalue, List.length_append, List.length_reverse, List.length_replicate] at hlen
  have hfits : (ntoaZeros (ntoaValue value base flags) negative prec width flags).2.len +
      (integerSign flags z).length ≤ ntoaBufferSize := by
    rw [NtoaBuffer.len, hlen]
    omega
  have hsign := ntoaSign_chars hneg hfits
  have hflags : (if value = 0 then { flags with hash := false } else flags) = flags := by
    split
    · cases flags
      cases hhash
      rfl
    · rfl
  unfold longText
  rw [hflags]
  dsimp only
  rw [ntoaHash, if_neg (by rw [hhash]; decide), revText, hsign, hchars, hvalue, integerText]
  have hrev : ((integerDigits base flags z).reverse ++
      List.replicate (integerZeros base flags width.toNat prec.toNat z) (byte '0') ++
      integerSign flags z).reverse = integerBody base flags width.toNat prec.toNat z := by
    rw [List.reverse_append, List.reverse_append, List.reverse_replicate, List.reverse_reverse,
      integerSign_reverse, integerBody, List.append_assoc]
  rw [hrev]
  by_cases hl : flags.left = true
  · rw [hwidth (.inr hl), hl]
    rfl
  have hl' : flags.left = false := by simpa using hl
  by_cases hz : flags.zeropad = true
  · -- the zeros have filled the width
    have hp : ¬ flags.precision = true := fun h => by rw [hzeropad h] at hz; cases hz
    have hfull : width.toNat ≤ (integerBody base flags width.toNat prec.toNat z).length := by
      rw [hbody, integerZeros, if_neg hp, if_pos ⟨hz, hl⟩]
      omega
    rw [hl', hz]
    simp [padded, spaces, Nat.sub_eq_zero_of_le hfull]
  · have hz' : flags.zeropad = false := by simpa using hz
    rw [hwidth (.inl hz'), hl', hz']
    rfl

end Field

/-! ### Arguments -/

theorem toNat_magnitude {w : ℕ} (value : BitVec w) :
    (magnitude value).toNat = value.toInt.natAbs := by
  have hlt := value.isLt
  have hint := BitVec.toInt_eq_toNat_cond value
  unfold magnitude
  by_cases h : value.toInt > 0
  · rw [if_pos h]
    split at hint <;> omega
  · rw [if_neg h, show (0 : BitVec w) - value = -value from BitVec.zero_sub value,
      BitVec.toNat_neg]
    split at hint
    · rw [show value.toNat = 0 by omega, Nat.sub_zero, Nat.mod_self]
      omega
    · rw [Nat.mod_eq_of_lt (by omega)]
      omega

/-- The argument of an integer directive, as `_ntoa_long` gets it. -/
theorem integerArg_spec (c : U8) (flags : PrintfFlags) (a : U64) :
    (integerArg c flags a).2 = decide (integerValue c flags a < 0) ∧
    (integerValue c flags a).natAbs = (integerArg c flags a).1.toNat := by
  unfold integerArg integerValue
  by_cases hc : c = byte 'i' ∨ c = byte 'd'
  · rw [if_pos hc, if_pos hc]
    by_cases hl : flags.long = true
    · rw [if_pos hl, if_pos hl]
      exact ⟨rfl, (toNat_magnitude a).symm⟩
    rw [if_neg hl, if_neg hl]
    have hsigned : (signedArg flags a).toInt = if flags.char then ((a.setWidth 8).toNat : ℤ)
        else if flags.short then (a.setWidth 16).toInt else (a.setWidth 32).toInt := by
      unfold signedArg
      by_cases hchar : flags.char = true
      · have h8 := (a.setWidth 8).isLt
        rw [if_pos hchar, if_pos hchar, BitVec.toInt_eq_toNat_of_lt,
          BitVec.toNat_setWidth_of_le (by decide)]
        rw [BitVec.toNat_setWidth_of_le (by decide)]
        omega
      rw [if_neg hchar, if_neg hchar]
      by_cases hshort : flags.short = true
      · rw [if_pos hshort, if_pos hshort, BitVec.toInt_signExtend_of_le (by decide)]
      · rw [if_neg hshort, if_neg hshort]
    rw [← hsigned]
    refine ⟨rfl, ?_⟩
    rw [BitVec.toNat_setWidth_of_le (by decide), toNat_magnitude]
  · rw [if_neg hc, if_neg hc]
    have hnat : ∀ n : ℕ, false = decide ((n : ℤ) < 0) ∧ ((n : ℤ)).natAbs = n := fun n =>
      ⟨(decide_eq_false (by omega)).symm, Int.natAbs_natCast n⟩
    by_cases hl : flags.long = true
    · rw [if_pos hl, if_pos hl]
      exact hnat _
    rw [if_neg hl, if_neg hl]
    have hunsigned : ((unsignedArg flags a).toNat : ℤ) =
        if flags.char then ((a.setWidth 8).toNat : ℤ)
        else if flags.short then ((a.setWidth 16).toNat : ℤ) else ((a.setWidth 32).toNat : ℤ) := by
      unfold unsignedArg
      by_cases hchar : flags.char = true
      · rw [if_pos hchar, if_pos hchar, BitVec.toNat_setWidth_of_le (by decide)]
      rw [if_neg hchar, if_neg hchar]
      by_cases hshort : flags.short = true
      · rw [if_pos hshort, if_pos hshort, BitVec.toNat_setWidth_of_le (by decide)]
      · rw [if_neg hshort, if_neg hshort]
    rw [← hunsigned, BitVec.toNat_setWidth_of_le (by decide)]
    exact hnat _

/-! ### Directives -/

theorem readPrecision_precision {flags flags' : PrintfFlags} {precision : U32}
    {format format' : List U8} {va va' : List U64}
    (h : readPrecision flags format va = .ok (flags', precision, format', va')) :
    flags'.precision = false → precision = 0 := by
  unfold readPrecision at h
  obtain ⟨c, -, h⟩ := bind_eq_ok.mp h
  split_ifs at h
  · obtain ⟨c, -, h⟩ := bind_eq_ok.mp h
    split_ifs at h
    · obtain ⟨r, -, h⟩ := bind_eq_ok.mp h
      cases h
      intro hp
      cases hp
    · obtain ⟨r, -, h⟩ := bind_eq_ok.mp h
      cases h
      intro hp
      cases hp
    · cases h
      exact fun _ => rfl
  · cases h
    exact fun _ => rfl

theorem readLength_precision {flags flags' : PrintfFlags} {format format' : List U8}
    (h : readLength flags format = .ok (flags', format')) :
    flags'.precision = flags.precision := by
  unfold readLength at h
  obtain ⟨c, -, h⟩ := bind_eq_ok.mp h
  split_ifs at h
  · obtain ⟨c, -, h⟩ := bind_eq_ok.mp h
    split_ifs at h <;> cases h <;> rfl
  · obtain ⟨c, -, h⟩ := bind_eq_ok.mp h
    split_ifs at h <;> cases h <;> rfl
  · cases h
    rfl
  · cases h
    rfl

/-- Without a precision the directive leaves it at 0. -/
theorem readDirective_precision {format format' : List U8} {va va' : List U64} {d : Directive}
    (h : readDirective format va = .ok (d, format', va')) :
    d.flags.precision = false → d.precision = 0 := by
  unfold readDirective at h
  obtain ⟨⟨flags₁, format₁⟩, -, h⟩ := bind_eq_ok.mp h
  obtain ⟨⟨flags₂, width, format₂, va₂⟩, -, h⟩ := bind_eq_ok.mp h
  obtain ⟨⟨flags₃, precision, format₃, va₃⟩, hprec, h⟩ := bind_eq_ok.mp h
  obtain ⟨⟨flags₄, format₄⟩, hlength, h⟩ := bind_eq_ok.mp h
  cases h
  intro hp
  exact readPrecision_precision hprec ((readLength_precision hlength).symm.trans hp)

/-- What the specifier leaves of the flags. -/
theorem integerFormat_spec (c : U8) (flags : PrintfFlags) :
    2 ≤ (integerFormat c flags).1 ∧
    (integerFormat c flags).2.left = flags.left ∧
    (integerFormat c flags).2.precision = flags.precision ∧
    ((integerFormat c flags).2.precision = true → (integerFormat c flags).2.zeropad = false) ∧
    integerValue c (integerFormat c flags).2 = integerValue c flags := by
  unfold integerFormat
  dsimp only
  cases hp : flags.precision <;> split_ifs <;> simp_all <;> rfl

section Directives

variable {strings : U64 → List U8} {format format' : List U8} {va va' : List U64}
  {d : Directive} {c : U8} {a : U64}

theorem specifierText_integer
    (hread : readDirective format va = .ok (d, c :: format', a :: va'))
    (hc : isInteger c = true)
    (hlong : d.flags.longLong = false) (hhash : (integerFormat c d.flags).2.hash = false)
    (hroom : (integerBody (integerFormat c d.flags).1 (integerFormat c d.flags).2 d.width.toNat
      d.precision.toNat (integerValue c d.flags a)).length ≤ 32)
    (hleft : d.flags.left = true → integerZeros (integerFormat c d.flags).1
      (integerFormat c d.flags).2 d.width.toNat d.precision.toNat (integerValue c d.flags a) = 0) :
    specifierText strings c d (a :: va') =
      .ok (integerText (integerFormat c d.flags).1 (integerFormat c d.flags).2
        d.width.toNat d.precision.toNat (integerValue c d.flags a), va') := by
  obtain ⟨hb, hl, hp, hzeropad, hvalue⟩ := integerFormat_spec c d.flags
  obtain ⟨hneg, habs⟩ := integerArg_spec c (integerFormat c d.flags).2 a
  rw [hvalue] at hneg habs
  have htext := longText_exact hb hneg habs hhash
    (fun h => readDirective_precision hread (hp ▸ h)) hzeropad hroom (hl ▸ hleft)
  have hshort : ¬ (integerFormat c d.flags).2.longLong = true := by
    rw [integerFormat_longLong, hlong]
    decide
  rw [specifierText, if_pos hc]
  dsimp only
  rw [if_neg hshort]
  show Except.ok (longText _ _ _ _ _ _, va') = _
  rw [htext]

/-- **An integer directive prints the field of its argument**, on every output, if the flag `#` is
off or has no meaning, if sign, zeros and digits are at most 32, and if no zeros are asked for in a
field that is justified to the left. -/
theorem integer_directive_exact {σ : Type} (out : Out σ) (maxlen : ℕ) (st : σ × ℕ)
    (hread : readDirective format va = .ok (d, c :: format', a :: va'))
    (hc : isInteger c = true)
    (hlong : d.flags.longLong = false) (hhash : (integerFormat c d.flags).2.hash = false)
    (hroom : (integerBody (integerFormat c d.flags).1 (integerFormat c d.flags).2 d.width.toNat
      d.precision.toNat (integerValue c d.flags a)).length ≤ 32)
    (hleft : d.flags.left = true → integerZeros (integerFormat c d.flags).1
      (integerFormat c d.flags).2 d.width.toNat d.precision.toNat (integerValue c d.flags a) = 0) :
    outSpecifier out maxlen strings c d (a :: va') st =
      .ok (emit out maxlen (integerText (integerFormat c d.flags).1 (integerFormat c d.flags).2
        d.width.toNat d.precision.toNat (integerValue c d.flags a)) st, va') := by
  rw [outSpecifier_eq, specifierText_integer hread hc hlong hhash hroom hleft]
  rfl

/-- `%+08.5hd` of -42 is `  -00042`: the precision turns the flag `0` off. -/
theorem integer_directive_exact_short :
    outSpecifier (outChar fun c s => s ++ [c]) 0 (fun _ => []) (byte 'd')
      ⟨{ zeropad := true, plus := true, precision := true, short := true }, 8, 5⟩
      [0xFFD6] ([], 0) = .ok (("  -00042".toList.map byte, 8), []) :=
  integer_directive_exact (outChar fun c s => s ++ [c]) 0 ([], 0)
    (show readDirective ("+08.5hd".toList.map byte) [0xFFD6] = .ok (_, byte 'd' :: [], _) by rfl)
    (by decide) rfl rfl (by decide) (fun h => by cases h)

end Directives

/-! ### Writing and reading back -/

theorem integerText_eq_body (z : ℤ) : integerText 10 {} 0 0 z = integerBody 10 {} 0 0 z := by
  simp [integerText, padded, spaces]

/-- A number of 32 bits has at most ten digits. -/
theorem length_integerBody_le {z : ℤ} (hz : z.natAbs < 2 ^ 32) :
    (integerBody 10 {} 0 0 z).length ≤ 11 := by
  have hsign := integerSign_length {} z
  have hdigits : (integerDigits 10 {} z).length ≤ 10 := by
    rw [integerDigits, if_neg (by simp), numeralText_eq, List.length_reverse, List.length_map,
      digitsOf]
    split
    · decide
    · rw [Nat.digits_length_le_iff (by decide)]
      exact hz.trans (by norm_num)
  have hzeros : integerZeros 10 {} 0 0 z = 0 := rfl
  rw [length_integerBody, hzeros, hsign]
  split <;> omega

theorem natAbs_toInt_lt (b : U32) : b.toInt.natAbs < 2 ^ 32 := by
  have hlt := b.isLt
  have hint := BitVec.toInt_eq_toNat_cond b
  split at hint <;> omega

theorem ntoaDigit_eq_glyph {k : ℕ} (hk : k < 10) : ntoaDigit false k = glyph k := by
  have hall : ∀ k < 10, ntoaDigit false k = glyph k := by decide
  exact hall k hk

theorem numeralText_decimal (n : ℕ) :
    ∃ ds, Numeral 10 n ds ∧ numeralText 10 false n = ds.map glyph := by
  unfold numeralText
  by_cases hn : n = 0
  · subst hn
    exact ⟨[0], numeral_zero (by decide), rfl⟩
  · rw [if_neg hn]
    refine ⟨_, numeral_digits (by decide) hn, List.map_congr_left ?_⟩
    intro k hk
    exact ntoaDigit_eq_glyph (Nat.digits_lt_base (by decide) (List.mem_reverse.mp hk))

/-- The field of `%d` is a sign and the decimal numeral. -/
theorem integerText_decimal (z : ℤ) : ∃ ds, Numeral 10 z.natAbs ds ∧
    integerText 10 {} 0 0 z = signText (decide (z < 0)) ++ ds.map glyph := by
  obtain ⟨ds, hds, htext⟩ := numeralText_decimal z.natAbs
  have hsign : integerSign {} z = signText (decide (z < 0)) := by
    unfold integerSign signText
    by_cases hz : z < 0
    · rw [if_pos hz, if_pos (decide_eq_true hz)]
      rfl
    · rw [if_neg hz, if_neg fun h => hz (of_decide_eq_true h)]
      rfl
  have hdigits : integerDigits 10 {} z = ds.map glyph := by
    rw [integerDigits, if_neg (by simp), ← htext]
  refine ⟨ds, hds, ?_⟩
  rw [← hsign, ← hdigits]
  simp [integerText, padded, spaces, integerBody, integerZeros]

theorem printedText_decimal (strings : U64 → List U8) (a : U64) :
    printedText strings [byte '%', byte 'd', 0] [a] =
      .ok (integerText 10 {} 0 0 (a.setWidth 32).toInt) := by
  have hread : readDirective [byte 'd', 0] [a] =
      .ok (⟨{}, 0, 0⟩, byte 'd' :: [0], a :: []) := rfl
  have hspec : specifierText strings (byte 'd') ⟨{}, 0, 0⟩ [a] =
      .ok (integerText 10 {} 0 0 (a.setWidth 32).toInt, []) :=
    specifierText_integer hread (by decide) rfl rfl
      ((length_integerBody_le (natAbs_toInt_lt (a.setWidth 32))).trans (by decide))
      (fun h => by cases h)
  calc printedText strings [byte '%', byte 'd', 0] [a]
      = (specifierText strings (byte 'd') ⟨{}, 0, 0⟩ [a] >>= fun r =>
          formatText strings 2 [0] r.2 >>= fun text => .ok (r.1 ++ text)) := rfl
    _ = .ok (integerText 10 {} 0 0 (a.setWidth 32).toInt ++ []) := by
      rw [hspec]
      rfl
    _ = _ := by rw [List.append_nil]

/-- A text for which there is room is stored as a string. -/
theorem stored_writes {buffer : ℕ → U8} {count : ℕ} {text : List U8}
    (h : text.length < count) : Writes buffer (stored buffer count text) text where
  bytes := by
    apply List.ext_getElem length_bytesAt
    intro i hi hi'
    rw [getElem_bytesAt, Nat.zero_add, stored, if_neg (by omega), if_pos (by omega),
      List.getElem?_eq_getElem hi']
    rfl
  last := by rw [stored, if_neg (by omega), if_neg (by omega), if_pos (by omega)]
  frame := by
    intro k hk
    rw [stored]
    split_ifs
    · rfl
    · omega
    · omega
    · rfl

/-- **What `%d` writes is read back**: into a buffer with room for it, `snprintf` writes the decimal
numeral of every `int`, and `cstring_to_i32` reads the `int` from it. -/
theorem printed_number_read_back (strings : U64 → List U8) (a : U64) (buffer : ℕ → U8) {count : ℕ}
    (hroom : 12 ≤ count) (hcount : count < 2 ^ 64) :
    ∃ s : StringBuffer, snprintf strings false buffer count [byte '%', byte 'd', 0] [a] =
        .ok (s.bytes, BitVec.ofNat 32 (strlen s)) ∧
      Decimal (a.setWidth 32).toInt buffer s ∧ cstringToI32 s = a.setWidth 32 := by
  obtain ⟨ds, hds, htext⟩ := integerText_decimal (a.setWidth 32).toInt
  have hprint := (printf_text strings [byte '%', byte 'd', 0] [a]).2.2.1 false buffer count hcount
  rw [printedText_decimal, htext] at hprint
  have h₀ : (0 : U8) ∉ signText (decide ((a.setWidth 32).toInt < 0)) ++ ds.map glyph := by
    rw [List.mem_append]
    rintro (h | h)
    · exact zero_notMem_signText h
    · exact zero_notMem_glyphs (fun k hk => (hds.lt k hk).trans (by decide)) h
  have hlen : (signText (decide ((a.setWidth 32).toInt < 0)) ++ ds.map glyph).length < count := by
    rw [← htext, integerText_eq_body]
    have hle := length_integerBody_le (natAbs_toInt_lt (a.setWidth 32))
    omega
  have hwrites : Writes buffer (stored buffer count _) _ := stored_writes hlen
  obtain ⟨s, hbytes, hs, hframe⟩ := hwrites.exists_string h₀
  have hdecimal : Decimal (a.setWidth 32).toInt buffer s := ⟨⟨ds, hds, hs⟩, hframe⟩
  refine ⟨s, ?_, hdecimal, ?_⟩
  · have hstrlen : strlen s = s.text.length := length_bytesAt.symm
    rw [hprint, hbytes, hstrlen, hs]
    rfl
  · rw [hdecimal.cstringToI32, BitVec.ofInt_toInt]

/-- The least `int` as well. -/
theorem printed_number_read_back_least :
    ∃ s : StringBuffer, snprintf (fun _ => []) false (fun _ => 0) 12 [byte '%', byte 'd', 0]
        [0x80000000] = .ok (s.bytes, BitVec.ofNat 32 (strlen s)) ∧
      Decimal (-2147483648) (fun _ => 0) s ∧ cstringToI32 s = BitVec.intMin 32 :=
  printed_number_read_back (fun _ => []) 0x80000000 (fun _ => 0) (by decide) (by decide)

end RealtimeKernel
