import RealtimeKernel.Numerals

/-!
# Conversions between numbers and text are exact

An unsigned number is written as its numeral in the given base and read back.  A signed number
is written in base 10 with a sign in front; the least number of the type has no positive
counterpart, stays negative when its sign is changed, and is written with negative digits.
-/

namespace RealtimeKernel

open Lib

variable {b n : ℕ} {z : ℤ} {negative : Bool} {str str' : ℕ → U8} {s s' : StringBuffer}
  {ds : List ℕ} {l : List U8}

/-! ### The text in memory -/

/-- `s` is `str` after the numeral of `n`, signed or not, was written to it. -/
structure Written (negative : Bool) (b n : ℕ) (str : ℕ → U8) (s : StringBuffer) : Prop where
  text : ∃ ds, Numeral b n ds ∧ s.text = signText negative ++ ds.map glyph
  frame : ∀ k, strlen s < k → s.bytes k = str k

/-- The decimal numeral of an integer. -/
def Decimal (z : ℤ) (str : ℕ → U8) (s : StringBuffer) : Prop :=
  Written (decide (z < 0)) 10 z.natAbs str s

/-- What is written without a `'\0'` inside is the text of a string. -/
theorem Writes.exists_string (h : Writes str str' l) (h₀ : 0 ∉ l) :
    ∃ s : StringBuffer, s.bytes = str' ∧ s.text = l ∧
      ∀ k, strlen s < k → s.bytes k = str k := by
  obtain ⟨s, rfl, hlen, htext⟩ := exists_stringBuffer h.bytes h₀ h.last
  refine ⟨s, rfl, htext, ?_⟩
  intro k hk
  rw [hlen] at hk
  exact h.frame k hk

theorem StringBuffer.ext (h : s.bytes = s'.bytes) : s = s' := by
  cases s
  cases s'
  cases h
  rfl

theorem zero_notMem_signText : (0 : U8) ∉ signText negative := by
  cases negative <;> decide

theorem zero_notMem_glyphs (hds : ∀ d ∈ ds, d < 36) : (0 : U8) ∉ ds.map glyph := by
  intro hmem
  obtain ⟨d, hd, hzero⟩ := List.mem_map.mp hmem
  exact glyph_ne_zero (hds d hd) hzero

/-- The numeral of zero. -/
theorem writeZero_written (hb : 2 ≤ b) (str : ℕ → U8) :
    ∃ s, writeZero str = StringBuffer.bytes s ∧ Written false b 0 str s := by
  have hw : Writes str (writeZero str) ([0].map glyph) := by
    refine ⟨rfl, rfl, ?_⟩
    intro k hk
    have hk' : 1 < k := hk
    rw [writeZero, Function.update_of_ne (by omega), Function.update_of_ne (by omega)]
  obtain ⟨s, hbytes, htext, hframe⟩ := hw.exists_string (by decide)
  exact ⟨s, hbytes.symm, ⟨[0], numeral_zero hb, htext⟩, hframe⟩

/-- A positive number is written as its numeral. -/
theorem writeNumber_written (hb : 2 ≤ b) (hb' : b ≤ 36) (hn : n ≠ 0) (negative : Bool)
    (str : ℕ → U8) :
    ∃ s, writeNumber negative b n str = some (StringBuffer.bytes s) ∧
      Written negative b n str s := by
  obtain ⟨str', hrun, hw⟩ := writeNumber_spec hb (.inl rfl) negative n str
  have hlt : ∀ d ∈ (Nat.digits b n).reverse, d < 36 := by
    intro d hd
    exact Nat.lt_of_lt_of_le (Nat.digits_lt_base hb (List.mem_reverse.mp hd)) hb'
  have hglyphs : ((Nat.digits b n).map fun d => digitChar (1 * (d : ℕ))).reverse =
      (Nat.digits b n).reverse.map glyph := by
    rw [← List.map_reverse]
    apply List.map_congr_left
    intro d hd
    rw [one_mul]
    exact digitChar_eq_glyph (hlt d hd)
  rw [hglyphs] at hw
  have h₀ : (0 : U8) ∉ signText negative ++ (Nat.digits b n).reverse.map glyph := by
    rw [List.mem_append]
    rintro (h | h)
    · exact zero_notMem_signText h
    · exact zero_notMem_glyphs hlt h
  obtain ⟨s, hbytes, htext, hframe⟩ := hw.exists_string h₀
  rw [one_mul] at hrun
  exact ⟨s, by rw [hrun, hbytes], ⟨_, numeral_digits hb hn, htext⟩, hframe⟩

/-! ### Reading a numeral -/

theorem addDigit_glyph {d : ℕ} (hd : d < 10) (v : U32) :
    addDigit v (glyph d) = v * 10 + BitVec.ofNat 32 d := by
  have hall : ∀ d < 10, BitVec.ofInt 32 (((glyph d).toNat : ℤ) - 48) = BitVec.ofNat 32 d := by
    decide
  rw [addDigit, hall d hd]

/-- The loop of the parsers accumulates the positional value, modulo `2 ^ 32`. -/
theorem foldl_addDigit (hds : ∀ d ∈ ds, d < 10) (v : ℕ) :
    (ds.map glyph).foldl addDigit (BitVec.ofNat 32 v) =
      BitVec.ofNat 32 (ds.foldl (fun v d => d + 10 * v) v) := by
  induction ds generalizing v with
  | nil => rfl
  | cons d ds ih =>
    rw [List.map_cons, List.foldl_cons, List.foldl_cons, addDigit_glyph (hds d (by simp)),
      ← ih fun e he => hds e (by simp [he])]
    congr 1
    rw [BitVec.ofNat_add, BitVec.ofNat_mul, BitVec.add_comm, BitVec.mul_comm]
    rfl

theorem Numeral.foldl_addDigit (h : Numeral 10 n ds) :
    (ds.map glyph).foldl addDigit 0 = BitVec.ofNat 32 n := by
  have hfold := RealtimeKernel.foldl_addDigit h.lt 0
  rw [show BitVec.ofNat 32 0 = 0 from rfl] at hfold
  rw [hfold, ← h.value, Nat.ofDigits_eq_foldr, List.foldr_reverse]
  rfl

theorem readDigits_zero (s : StringBuffer) :
    readDigits s.bytes 0 (strlen s) = s.text.foldl addDigit 0 := rfl

/-- The first byte of a text, and the bytes behind it. -/
theorem StringBuffer.text_cons {c : U8} (h : s.text = c :: l) :
    s.bytes 0 = c ∧ bytesAt s.bytes 1 (strlen s - 1) = l := by
  rw [StringBuffer.text] at h
  have hlen := congrArg List.length h
  rw [length_bytesAt, List.length_cons] at hlen
  rw [hlen, bytesAt_succ] at h
  rw [hlen, Nat.add_sub_cancel]
  exact List.cons.inj h

/-- A numeral without a sign is read as its number. -/
theorem Written.readDigits (h : Written false 10 n str s) :
    readDigits s.bytes 0 (strlen s) = BitVec.ofNat 32 n := by
  obtain ⟨ds, hds, htext⟩ := h.text
  rw [readDigits_zero, htext]
  exact hds.foldl_addDigit

theorem glyph_ne_minus {d : ℕ} (hd : d < 10) : glyph d ≠ minus := by
  have hall : ∀ d < 10, glyph d ≠ minus := by decide
  exact hall d hd

/-- `cstring_to_i32` reads a decimal numeral as its number, modulo `2 ^ 32`. -/
theorem Decimal.cstringToI32 (h : Decimal z str s) : cstringToI32 s = BitVec.ofInt 32 z := by
  obtain ⟨ds, hds, htext⟩ := h.text
  by_cases hz : z < 0
  · rw [decide_eq_true hz] at htext
    obtain ⟨hfirst, hrest⟩ := s.text_cons htext
    have hvalue : RealtimeKernel.readDigits s.bytes 1 (strlen s) = BitVec.ofNat 32 z.natAbs := by
      rw [RealtimeKernel.readDigits, hrest]
      exact hds.foldl_addDigit
    rw [RealtimeKernel.cstringToI32]
    simp only [hfirst, if_true, hvalue]
    have habs : z = -(z.natAbs : ℤ) := by omega
    rw [habs, BitVec.ofInt_neg, BitVec.ofInt_natCast, BitVec.mul_neg, Int.natAbs_neg,
      Int.natAbs_natCast]
    exact congrArg _ (BitVec.mul_one _)
  · rw [decide_eq_false hz] at htext
    obtain ⟨d, ds', rfl⟩ := List.exists_cons_of_ne_nil hds.ne_nil
    obtain ⟨hfirst, -⟩ := s.text_cons htext
    have hne : s.bytes 0 ≠ minus := by
      rw [hfirst]
      exact glyph_ne_minus (hds.lt d (by simp))
    rw [RealtimeKernel.cstringToI32]
    simp only [hne, if_false]
    rw [readDigits_zero, htext]
    have habs : (z.natAbs : ℤ) = z := by omega
    rw [← habs, BitVec.ofInt_natCast]
    exact hds.foldl_addDigit

/-! ### The unsigned conversions -/

/-- A number is written as its numeral, in every base that has enough digits. -/
theorem unsigned_written {w : ℕ} {base : U32} (hb : 2 ≤ base.toNat) (hb' : base.toNat ≤ 36)
    (number : BitVec w) (str : ℕ → U8) :
    ∃ s, unsignedToCstring number str base = some (StringBuffer.bytes s) ∧
      Written false base.toNat number.toNat str s := by
  by_cases hzero : number = 0
  · subst hzero
    obtain ⟨s, hbytes, hw⟩ := writeZero_written hb str
    exact ⟨s, by rw [unsignedToCstring, if_pos rfl, hbytes], by simpa using hw⟩
  · have hne : number.toNat ≠ 0 := by
      intro h
      exact hzero (BitVec.eq_of_toNat_eq (by simpa using h))
    rw [unsignedToCstring, if_neg hzero]
    exact writeNumber_written hb hb' hne false str

/-- **Unsigned conversion is exact in every base.**  In base 2 to 36 the text is the numeral of
the number, ended by `'\0'`, with nothing written behind it; both parsers read the decimal
numeral back as the number. -/
theorem unsigned_conversion_exact :
    (∀ (number base : U32) (str : ℕ → U8), 2 ≤ base.toNat → base.toNat ≤ 36 →
      ∃ s, u32ToCstring number str base = some (StringBuffer.bytes s) ∧
        Written false base.toNat number.toNat str s) ∧
    (∀ (number : U64) (base : U32) (str : ℕ → U8), 2 ≤ base.toNat → base.toNat ≤ 36 →
      ∃ s, u64ToCstring number str base = some (StringBuffer.bytes s) ∧
        Written false base.toNat number.toNat str s) ∧
    ∀ (number : U32) (str : ℕ → U8),
      ∃ s, u32ToCstring number str 10 = some (StringBuffer.bytes s) ∧ cstringToU32 s = number ∧
        cstringLenToU32 (some s.bytes) (strlen s) = number := by
  refine ⟨?_, ?_, ?_⟩
  · intro number base str hb hb'
    exact unsigned_written hb hb' number str
  · intro number base str hb hb'
    exact unsigned_written hb hb' number str
  · intro number str
    have hten : 2 ≤ (10 : U32).toNat ∧ (10 : U32).toNat ≤ 36 := by decide
    obtain ⟨s, hrun, hw⟩ := unsigned_written hten.1 hten.2 number str
    have hread : readDigits s.bytes 0 (strlen s) = number := by
      rw [hw.readDigits, BitVec.ofNat_toNat, BitVec.setWidth_eq]
    exact ⟨s, hrun, hread, hread⟩

/-- 255 is `FF` in base 16, and 4294967295 is read back. -/
theorem unsigned_conversion_exact_ff :
    (∃ s, u32ToCstring 255 (fun _ => 0) 16 = some (StringBuffer.bytes s) ∧
      Written false 16 255 (fun _ => 0) s) ∧
    ∃ s, u32ToCstring 4294967295 (fun _ => 0) 10 = some (StringBuffer.bytes s) ∧
      cstringToU32 s = 4294967295 ∧ cstringLenToU32 (some s.bytes) (strlen s) = 4294967295 :=
  ⟨unsigned_conversion_exact.1 255 16 (fun _ => 0) (by decide) (by decide),
    unsigned_conversion_exact.2.2 4294967295 fun _ => 0⟩

/-! ### The signed conversions -/

theorem toInt_eq_zero_iff {w : ℕ} {number : BitVec w} : number.toInt = 0 ↔ number = 0 := by
  constructor
  · intro h
    apply BitVec.eq_of_toInt_eq
    rw [h]
    exact BitVec.toInt_zero.symm
  · intro h
    rw [h]
    exact BitVec.toInt_zero

theorem signedToCstring_eq {w : ℕ} {number : BitVec w} (hne : number ≠ 0) (str : ℕ → U8) :
    signedToCstring number str 10 =
      writeNumber (decide (number.toInt < 0)) (10 : ℕ)
        (if number.toInt < 0 then -number else number).toInt str := by
  rw [signedToCstring, if_neg hne, show (10 : U32).toInt = 10 from rfl]
  simp only [and_true, decide_eq_true_eq]
  rfl

/-- A number that has a positive counterpart is written as its decimal numeral. -/
theorem signed_decimal {w : ℕ} {number : BitVec w} (hmin : number ≠ BitVec.intMin w)
    (str : ℕ → U8) :
    ∃ s, signedToCstring number str 10 = some (StringBuffer.bytes s) ∧
      Decimal number.toInt str s := by
  by_cases hzero : number = 0
  · subst hzero
    obtain ⟨s, hbytes, hw⟩ := writeZero_written (b := 10) (by decide) str
    refine ⟨s, by rw [signedToCstring, if_pos rfl, hbytes], ?_⟩
    rw [toInt_eq_zero_iff.mpr rfl]
    exact hw
  · have hne : number.toInt ≠ 0 := fun h => hzero (toInt_eq_zero_iff.mp h)
    have habs : (if number.toInt < 0 then -number else number).toInt =
        (number.toInt.natAbs : ℤ) := by
      split
      · rw [BitVec.toInt_neg_of_ne_intMin hmin]
        omega
      · omega
    rw [signedToCstring_eq hzero, habs]
    exact writeNumber_written (by decide) (by decide) (Int.natAbs_ne_zero.mpr hne) _ str

/-- No digit stands for a negative remainder. -/
theorem digitChar_neg_ne_glyph {d e : ℕ} (hd : d < 10) (hd₀ : d ≠ 0) (he : e < 10) :
    digitChar (-1 * (d : ℕ)) ≠ glyph e := by
  have hall : ∀ d < 10, ∀ e < 10, d ≠ 0 → digitChar (-1 * ((d : ℕ) : ℤ)) ≠ glyph e := by decide
  exact hall d hd e he hd₀

theorem zero_notMem_negative (m : ℕ) : (0 : U8) ∉ minus ::
    ((Nat.digits 10 m).map fun d => digitChar (-1 * (d : ℕ))).reverse := by
  have hall : ∀ d < 10, digitChar (-1 * ((d : ℕ) : ℤ)) ≠ 0 := by decide
  intro hmem
  rcases List.mem_cons.mp hmem with h | h
  · cases h
  · obtain ⟨d, hd, hzero⟩ := List.mem_map.mp (List.mem_reverse.mp h)
    exact hall d (Nat.digits_lt_base (by decide) hd) hzero

theorem toInt_intMin_neg {w : ℕ} (hw : 0 < w) : (BitVec.intMin w).toInt < 0 := by
  rw [BitVec.toInt_intMin_of_pos hw, Left.neg_neg_iff]
  positivity

/-- The least number is written, but with negative digits. -/
theorem signed_intMin {w : ℕ} (hw : 0 < w) (str : ℕ → U8) :
    ∃ str', signedToCstring (BitVec.intMin w) str 10 = some str' ∧
      Writes str str' (minus ::
        ((Nat.digits 10 (2 ^ (w - 1))).map fun d => digitChar (-1 * (d : ℕ))).reverse) := by
  have hmin := BitVec.toInt_intMin_of_pos hw
  have hneg := toInt_intMin_neg hw
  have hzero : BitVec.intMin w ≠ 0 := by
    intro h
    rw [toInt_eq_zero_iff.mpr h] at hneg
    exact absurd hneg (by decide)
  obtain ⟨str', hrun, hwr⟩ := writeNumber_spec (b := 10) (by decide) (.inr rfl) true
    (2 ^ (w - 1)) str
  refine ⟨str', ?_, hwr⟩
  rw [signedToCstring_eq hzero, decide_eq_true hneg, if_pos hneg, BitVec.neg_intMin, hmin, ← hrun]
  congr 1
  push_cast
  ring

/-- That is no decimal numeral. -/
theorem signed_intMin_not_decimal {w : ℕ} (hw : 0 < w) (str : ℕ → U8) :
    ¬∃ s, signedToCstring (BitVec.intMin w) str 10 = some (StringBuffer.bytes s) ∧
      Decimal (BitVec.intMin w).toInt str s := by
  rintro ⟨s, hrun, hs⟩
  obtain ⟨str', hrun', hwr⟩ := signed_intMin hw str
  rw [hrun] at hrun'
  obtain rfl := Option.some.inj hrun'
  obtain ⟨s', hbytes, htext', -⟩ := hwr.exists_string (zero_notMem_negative _)
  obtain rfl := StringBuffer.ext hbytes
  obtain ⟨ds, hds, htext⟩ := hs.text
  rw [decide_eq_true (toInt_intMin_neg hw)] at htext
  have hdigits : ((Nat.digits 10 (2 ^ (w - 1))).map fun d => digitChar (-1 * (d : ℕ))).reverse =
      ds.map glyph := (List.cons.inj (htext'.symm.trans htext)).2
  have hpow : 2 ^ (w - 1) ≠ 0 := by positivity
  have hlast := Nat.getLast_digit_ne_zero 10 hpow
  have hmem := List.getLast_mem (Nat.digits_ne_nil_iff_ne_zero (b := 10).mpr hpow)
  generalize (Nat.digits 10 (2 ^ (w - 1))).getLast _ = d at hlast hmem
  have hglyph : digitChar (-1 * (d : ℕ)) ∈ ds.map glyph := by
    rw [← hdigits, List.mem_reverse]
    exact List.mem_map_of_mem hmem
  obtain ⟨e, he, heq⟩ := List.mem_map.mp hglyph
  exact digitChar_neg_ne_glyph (Nat.digits_lt_base (by decide) hmem) hlast (hds.lt e he) heq.symm

/-- **Signed conversion is exact but for the least number.**  `i32_to_cstring` writes the
decimal numeral of `number`, and `cstring_to_i32` reads it back, just when `number` is not the
least `i32`; `i64_to_cstring` writes that of `long` just when `long` is not the least `i64`, and
`cstring_to_i32` reads its text back as `long` just when an `i32` can hold it. -/
theorem signed_conversion_exact_iff (number : U32) (long : U64) :
    ((∀ str, ∃ s, i32ToCstring number str 10 = some (StringBuffer.bytes s) ∧
      Decimal number.toInt str s ∧ cstringToI32 s = number) ↔ number ≠ BitVec.intMin 32) ∧
    ((∀ str, ∃ s, i64ToCstring long str 10 = some (StringBuffer.bytes s) ∧
      Decimal long.toInt str s) ↔ long ≠ BitVec.intMin 64) ∧
    ((∀ str, ∃ s, i64ToCstring long str 10 = some (StringBuffer.bytes s) ∧
      Decimal long.toInt str s ∧ (cstringToI32 s).toInt = long.toInt) ↔
        -2 ^ 31 ≤ long.toInt ∧ long.toInt < 2 ^ 31) := by
  refine ⟨?_, ?_, ?_⟩
  · constructor
    · intro h hmin
      subst hmin
      obtain ⟨s, hrun, hs, -⟩ := h fun _ => 0
      exact signed_intMin_not_decimal (by decide) _ ⟨s, hrun, hs⟩
    · intro hmin str
      obtain ⟨s, hrun, hs⟩ := signed_decimal hmin str
      exact ⟨s, hrun, hs, hs.cstringToI32.trans BitVec.ofInt_toInt⟩
  · constructor
    · intro h hmin
      subst hmin
      exact signed_intMin_not_decimal (by decide) _ (h fun _ => 0)
    · intro hmin str
      exact signed_decimal hmin str
  · constructor
    · intro h
      obtain ⟨s, -, -, hread⟩ := h fun _ => 0
      rw [← hread]
      exact ⟨BitVec.le_toInt _, BitVec.toInt_lt⟩
    · rintro ⟨hl, hu⟩ str
      have hmin : long ≠ BitVec.intMin 64 := by
        rintro rfl
        rw [BitVec.toInt_intMin_of_pos (by decide)] at hl
        exact absurd hl (by decide)
      obtain ⟨s, hrun, hs⟩ := signed_decimal hmin str
      refine ⟨s, hrun, hs, ?_⟩
      rw [hs.cstringToI32, BitVec.toInt_ofInt, Int.bmod_def]
      split <;> omega

/-- The text of -2147483648 is `-./,),(-*,(`. -/
theorem least_i32_text :
    ∃ s, i32ToCstring (BitVec.intMin 32) (fun _ => 0) 10 = some (StringBuffer.bytes s) ∧
      s.text = [45, 46, 47, 44, 41, 44, 40, 45, 42, 44, 40] ∧
      ¬Decimal (BitVec.intMin 32).toInt (fun _ => 0) s := by
  obtain ⟨str', hrun, hwr⟩ := signed_intMin (w := 32) (by decide) fun _ => 0
  obtain ⟨s, rfl, htext, -⟩ := hwr.exists_string (zero_notMem_negative _)
  refine ⟨s, hrun, ?_, ?_⟩
  · rw [htext, show Nat.digits 10 (2 ^ (32 - 1)) = [8, 4, 6, 3, 8, 4, 7, 4, 1, 2] by norm_num]
    decide
  · intro hs
    exact signed_intMin_not_decimal (by decide) _ ⟨s, hrun, hs⟩

end RealtimeKernel
