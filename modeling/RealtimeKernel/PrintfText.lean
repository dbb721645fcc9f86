import RealtimeKernel.Lib.Runs
import RealtimeKernel.Printf

/-!
# One text for all output functions

What `_vsnprintf` puts out is the same for every output function: the text of the format and its
arguments.  `printf` and `fctprintf` pass it on, `snprintf` stores as much of it as the buffer has
room for and ends it, and all of them return its length.
-/

namespace RealtimeKernel

open Lib

/-! ### The text -/

def spaces (n : ℕ) : List U8 := List.replicate n (byte ' ')

/-- A text in a field of the given width. -/
def padded (left right : Bool) (width : ℕ) (text : List U8) : List U8 :=
  (if left then spaces (width - text.length) else []) ++ text ++
    if right then spaces (width - text.length) else []

/-- What `_out_rev` puts out. -/
def revText (buf : NtoaBuffer) (width : U32) (flags : PrintfFlags) : List U8 :=
  padded (!flags.left && !flags.zeropad) flags.left width.toNat buf.chars.reverse

/-- What `_ntoa_long` puts out. -/
def longText (value : U64) (negative : Bool) (base : ℕ) (prec width : U32)
    (flags : PrintfFlags) : List U8 :=
  let flags := if value = 0 then { flags with hash := false } else flags
  let (width, buf) := ntoaZeros (ntoaValue value base flags) negative prec width flags
  revText (ntoaSign (ntoaHash buf base prec width flags) negative flags) width flags

/-- A string up to its end or its limit. -/
def stringText : List U8 → Option ℕ → Except PrintfFault (List U8)
  | [], _ => .error .string
  | c :: p, limit =>
    if c = 0 then .ok []
    else match limit with
      | none => (stringText p none).map (c :: ·)
      | some 0 => .ok []
      | some (n + 1) => (stringText p (some n)).map (c :: ·)

/-- What a directive with the specifier `c` puts out. -/
def specifierText (strings : U64 → List U8) (c : U8) (d : Directive) (va : List U64) :
    Except PrintfFault (List U8 × List U64) :=
  if isInteger c then
    let (base, flags) := integerFormat c d.flags
    if flags.longLong then .ok ([], va)
    else do
      let (a, va) ← vaArg va
      let (value, negative) := integerArg c flags a
      .ok (longText value negative base d.precision d.width flags, va)
  else if c = byte 'c' then do
    let (a, va) ← vaArg va
    .ok (padded (!d.flags.left) d.flags.left d.width.toNat [a.setWidth 8], va)
  else if c = byte 's' then do
    let (a, va) ← vaArg va
    let p := strings a
    let l ← strnlenS p (if d.precision ≠ 0 then d.precision.toNat else 2 ^ 64 - 1)
    let l := l % 2 ^ 32
    let l := if d.flags.precision then min l d.precision.toNat else l
    let text ← stringText p (if d.flags.precision then some d.precision.toNat else none)
    let blank := spaces (d.width.toNat - l)
    .ok ((if d.flags.left then [] else blank) ++ text ++ if d.flags.left then blank else [], va)
  else if c = byte 'p' then do
    let (a, va) ← vaArg va
    .ok (longText a false 16 d.precision 16 { d.flags with zeropad := true, uppercase := true }, va)
  else .ok ([c], va)

/-- The text of a format. -/
def formatText (strings : U64 → List U8) :
    ℕ → List U8 → List U64 → Except PrintfFault (List U8)
  | 0, _, _ => .error .format
  | n + 1, format, va => do
    let c ← atFormat format
    if c = 0 then .ok []
    else if c ≠ byte '%' then
      let text ← formatText strings n format.tail va
      .ok (c :: text)
    else
      let (d, format, va) ← readDirective format.tail va
      let c ← atFormat format
      let (field, va) ← specifierText strings c d va
      let text ← formatText strings n format.tail va
      .ok (field ++ text)

/-- What a call puts out, in front of the final `'\\0'`. -/
def printedText (strings : U64 → List U8) (format : List U8) (va : List U64) :
    Except PrintfFault (List U8) :=
  formatText strings format.length format va

/-! ### It is what is put out -/

section Emit

variable {σ : Type} (out : Out σ) (maxlen : ℕ)

/-- Puts out a text. -/
def emit (text : List U8) (st : σ × ℕ) : σ × ℕ :=
  text.foldl (fun st c => putOut out maxlen c st) st

variable {st : σ × ℕ} {text text' : List U8} {c : U8} {n : ℕ}

@[simp] theorem emit_nil : emit out maxlen [] st = st := rfl

theorem emit_cons : emit out maxlen (c :: text) st =
    emit out maxlen text (putOut out maxlen c st) := rfl

theorem emit_append : emit out maxlen (text ++ text') st =
    emit out maxlen text' (emit out maxlen text st) := List.foldl_append

theorem emit_idx : (emit out maxlen text st).2 = st.2 + text.length := by
  induction text generalizing st with
  | nil => rfl
  | cons c text ih =>
    rw [emit_cons, ih, List.length_cons]
    show st.2 + 1 + text.length = _
    omega

@[simp] theorem length_spaces : (spaces n).length = n := List.length_replicate

theorem outSpaces_eq : outSpaces out maxlen n st = emit out maxlen (spaces n) st := by
  induction n generalizing st with
  | zero => rfl
  | succ n ih =>
    rw [outSpaces, ih]
    rfl

theorem outReverse_eq (buf : List U8) :
    outReverse out maxlen buf st = emit out maxlen buf.reverse st := by
  induction buf with
  | nil => rfl
  | cons c buf ih =>
    rw [outReverse, ih, List.reverse_cons, emit_append]
    rfl

theorem outRev_eq (buf : NtoaBuffer) (width : U32) (flags : PrintfFlags) :
    outRev out maxlen buf width flags st = emit out maxlen (revText buf width flags) st := by
  have hlen : buf.chars.reverse.length = buf.len := List.length_reverse
  unfold outRev revText padded
  rw [hlen]
  cases hl : flags.left with
  | true =>
    simp only [not_true_eq_false, false_and, if_false, if_true, Bool.not_true, Bool.false_and,
      Bool.false_eq_true, List.nil_append]
    rw [outReverse_eq, outSpaces_eq, emit_idx, hlen, Nat.add_sub_cancel_left, emit_append]
  | false =>
    cases hz : flags.zeropad with
    | true => simp [outReverse_eq]
    | false => simp [outReverse_eq, outSpaces_eq, emit_append]

theorem ntoaLong_eq (value : U64) (negative : Bool) (base : ℕ) (prec width : U32)
    (flags : PrintfFlags) : ntoaLong out maxlen value negative base prec width flags st =
      emit out maxlen (longText value negative base prec width flags) st :=
  outRev_eq out maxlen _ _ _

theorem outString_eq (p : List U8) (limit : Option ℕ) : outString out maxlen p limit st =
    (stringText p limit).map fun text => emit out maxlen text st := by
  induction p generalizing limit st with
  | nil => rfl
  | cons c p ih =>
    unfold outString stringText
    by_cases hc : c = 0
    · rw [if_pos hc, if_pos hc]
      rfl
    · rw [if_neg hc, if_neg hc]
      rcases limit with _ | _ | n
      · simp only [ih]
        cases stringText p none <;> rfl
      · rfl
      · simp only [ih]
        cases stringText p (some n) <;> rfl

theorem integerFormat_longLong (flags : PrintfFlags) :
    (integerFormat c flags).2.longLong = flags.longLong := by
  unfold integerFormat
  dsimp only
  cases hp : flags.precision <;> split_ifs <;> simp_all

/-- A directive puts out its text. -/
theorem outSpecifier_eq (strings : U64 → List U8) (d : Directive) (va : List U64) :
    outSpecifier out maxlen strings c d va st =
      (specifierText strings c d va).map fun r => (emit out maxlen r.1 st, r.2) := by
  unfold outSpecifier specifierText
  by_cases hint : isInteger c = true
  · rw [if_pos hint, if_pos hint, outInteger]
    dsimp only
    by_cases hlong : (integerFormat c d.flags).2.longLong = true
    · rw [if_pos hlong, if_pos hlong]
      rfl
    · rw [if_neg hlong, if_neg hlong]
      cases vaArg va with
      | error e => rfl
      | ok r => simp only [ok_bind, Except.map, ntoaLong_eq]
  rw [if_neg hint, if_neg hint]
  by_cases hchar : c = byte 'c'
  · rw [if_pos hchar, if_pos hchar, outCharacter]
    cases vaArg va with
    | error e => rfl
    | ok r =>
      cases hl : d.flags.left <;>
        simp [outSpaces_eq, padded, emit_append, Except.map] <;> rfl
  rw [if_neg hchar, if_neg hchar]
  by_cases hstring : c = byte 's'
  · rw [if_pos hstring, if_pos hstring, outStringArg]
    cases vaArg va with
    | error e => rfl
    | ok r =>
      simp only [ok_bind]
      cases strnlenS (strings r.1)
          (if d.precision ≠ 0 then d.precision.toNat else 2 ^ 64 - 1) with
      | error e => rfl
      | ok l =>
        simp only [ok_bind, outString_eq]
        cases stringText (strings r.1)
            (if d.flags.precision then some d.precision.toNat else none) with
        | error e => rfl
        | ok text =>
          cases hl : d.flags.left <;> simp [outSpaces_eq, emit_append, Except.map]
  rw [if_neg hstring, if_neg hstring]
  by_cases hpointer : c = byte 'p'
  · rw [if_pos hpointer, if_pos hpointer, outPointer]
    cases vaArg va with
    | error e => rfl
    | ok r => simp only [ok_bind, Except.map, ntoaLong_eq]
  · rw [if_neg hpointer, if_neg hpointer]
    rfl

/-- **The loop puts out the text of the format.** -/
theorem vsnprintfLoop_eq (strings : U64 → List U8) (n : ℕ) (format : List U8) (va : List U64) :
    vsnprintfLoop out maxlen strings n format va st =
      (formatText strings n format va).map fun text => emit out maxlen text st := by
  induction n generalizing format va st with
  | zero => rfl
  | succ n ih =>
    unfold vsnprintfLoop formatText
    cases atFormat format with
    | error e => rfl
    | ok c =>
      simp only [ok_bind]
      by_cases h₀ : c = 0
      · rw [if_pos h₀, if_pos h₀]
        rfl
      · rw [if_neg h₀, if_neg h₀]
        by_cases hc : c ≠ byte '%'
        · rw [if_pos hc, if_pos hc, ih]
          cases formatText strings n format.tail va <;> rfl
        · rw [if_neg hc, if_neg hc]
          cases readDirective format.tail va with
          | error e => rfl
          | ok r =>
            obtain ⟨d, format, va⟩ := r
            simp only [ok_bind]
            cases atFormat format with
            | error e => rfl
            | ok c =>
              simp only [ok_bind, outSpecifier_eq]
              cases specifierText strings c d va with
              | error e => rfl
              | ok r =>
                simp only [Except.map, ok_bind, ih]
                cases formatText strings n format.tail r.2 with
                | error e => rfl
                | ok text => simp only [ok_bind, emit_append]

end Emit

/-! ### The output functions -/

/-- A function that ignores `'\\0'` is called for every other character. -/
theorem emit_outChar {σ : Type} (putchar : U8 → σ → σ) (maxlen : ℕ) (text : List U8)
    (st : σ × ℕ) : (emit (outChar putchar) maxlen text st).1 =
      (text.filter (· ≠ 0)).foldl (fun s c => putchar c s) st.1 := by
  induction text generalizing st with
  | nil => rfl
  | cons c text ih =>
    rw [emit_cons, ih, List.filter_cons, putOut, outChar]
    by_cases hc : c ≠ 0
    · rw [if_pos hc, if_pos (decide_eq_true hc)]
      rfl
    · rw [if_neg hc, if_neg fun h => hc (of_decide_eq_true h)]

theorem emit_outNull {σ : Type} (maxlen : ℕ) (text : List U8) (st : σ × ℕ) :
    (emit outNull maxlen text st).1 = st.1 := by
  induction text generalizing st with
  | nil => rfl
  | cons c text ih => rw [emit_cons, ih, putOut, outNull]

/-- The characters below `maxlen` are stored. -/
theorem emit_outBuffer (maxlen : ℕ) (text : List U8) (st : (ℕ → U8) × ℕ) (i : ℕ) :
    (emit outBuffer maxlen text st).1 i =
      if st.2 ≤ i ∧ i < maxlen then (text[i - st.2]?).getD (st.1 i) else st.1 i := by
  induction text generalizing st with
  | nil => simp
  | cons c text ih =>
    have hput : (putOut outBuffer maxlen c st).1 i =
        if i = st.2 ∧ i < maxlen then c else st.1 i := by
      show (if st.2 < maxlen then Function.update st.1 st.2 c else st.1) i = _
      by_cases hlt : st.2 < maxlen
      · rw [if_pos hlt, Function.update_apply]
        by_cases hi : i = st.2
        · rw [if_pos hi, if_pos ⟨hi, hi ▸ hlt⟩]
        · rw [if_neg hi, if_neg fun h => hi h.1]
      · rw [if_neg hlt, if_neg fun h : i = st.2 ∧ i < maxlen => hlt (h.1 ▸ h.2)]
    have hidx : (putOut outBuffer maxlen c st).2 = st.2 + 1 := rfl
    rw [emit_cons, ih, hput, hidx]
    by_cases hi : i = st.2
    · subst hi
      rw [if_neg fun h => absurd h.1 (by omega), Nat.sub_self, List.getElem?_cons_zero]
      by_cases hlt : st.2 < maxlen
      · rw [if_pos ⟨rfl, hlt⟩, if_pos ⟨le_rfl, hlt⟩]
        rfl
      · rw [if_neg fun h => hlt h.2, if_neg fun h => hlt h.2]
    · rw [if_neg fun h : i = st.2 ∧ i < maxlen => hi h.1]
      by_cases hle : st.2 + 1 ≤ i ∧ i < maxlen
      · obtain ⟨k, hk⟩ : ∃ k, i - st.2 = k + 1 := ⟨i - st.2 - 1, by omega⟩
        rw [if_pos hle, if_pos ⟨by omega, hle.2⟩, hk, List.getElem?_cons_succ,
          show i - (st.2 + 1) = k by omega]
      · rw [if_neg hle, if_neg (by omega)]

/-- A buffer of `count` bytes with as much of a text as fits, ended by `'\\0'`. -/
def stored (buffer : ℕ → U8) (count : ℕ) (text : List U8) : ℕ → U8 := fun i =>
  if count ≤ i then buffer i
  else if i < min text.length (count - 1) then (text[i]?).getD 0
  else if i = min text.length (count - 1) then 0
  else buffer i

theorem end_outBuffer (buffer : ℕ → U8) {count : ℕ} (hcount : count < 2 ^ 64)
    (text : List U8) :
    outBuffer 0 (emit outBuffer count text (buffer, 0)).1
      (if text.length < count then text.length else (count + 2 ^ 64 - 1) % 2 ^ 64) count =
        stored buffer count text := by
  funext i
  generalize hidx : (if text.length < count then text.length else
    (count + 2 ^ 64 - 1) % 2 ^ 64) = idx
  have hval : (emit outBuffer count text (buffer, 0)).1 i =
      if i < count then (text[i]?).getD (buffer i) else buffer i := by
    rw [emit_outBuffer]
    simp
  by_cases h₀ : count = 0
  · subst h₀
    rw [outBuffer, if_neg (Nat.not_lt_zero _), hval, stored]
    simp
  · have hmin : idx = min text.length (count - 1) := by
      rw [← hidx]
      split
      · omega
      · omega
    rw [outBuffer, if_pos (by omega : idx < count), stored]
    by_cases hi : i = idx
    · rw [hi, Function.update_self, if_neg (by omega), if_neg (by omega), if_pos hmin]
    · rw [Function.update_of_ne hi, hval]
      by_cases hc : count ≤ i
      · rw [if_neg (by omega), if_pos hc]
      · rw [if_pos (by omega), if_neg hc, if_neg (by omega : ¬ i = min text.length (count - 1))]
        by_cases hlt : i < min text.length (count - 1)
        · have hlen : i < text.length := by omega
          rw [if_pos hlt, List.getElem?_eq_getElem hlen]
          rfl
        · rw [if_neg hlt, List.getElem?_eq_none (by omega)]
          rfl

/-- What a call leaves behind and returns. -/
theorem vsnprintfBody_eq {σ : Type} (out : Out σ) (null : Bool) (s : σ) (maxlen : ℕ)
    (strings : U64 → List U8) (format : List U8) (va : List U64) :
    vsnprintfBody out null s maxlen strings format va =
      (printedText strings format va).map fun text =>
        ((if null then outNull else out) 0
          (emit (if null then outNull else out) maxlen text (s, 0)).1
          (if text.length < maxlen then text.length else (maxlen + 2 ^ 64 - 1) % 2 ^ 64) maxlen,
          BitVec.ofNat 32 text.length) := by
  unfold vsnprintfBody printedText
  simp only [vsnprintfLoop_eq]
  cases formatText strings format.length format va with
  | error e => rfl
  | ok text => simp only [Except.map, ok_bind, emit_idx, Nat.zero_add]

/-- **One text for all output functions.**  Of a format and its arguments, `printf` and `fctprintf`
pass on the characters of its text one by one, without those that are `'\\0'`; `snprintf` stores
what fits into the buffer, ends it with `'\\0'`, and leaves the rest of the buffer alone, and all of
the buffer if it is null or has no room; `sprintf` stores all of it.  Each returns the length of the
whole text. -/
theorem printf_text (strings : U64 → List U8) (format : List U8) (va : List U64) :
    (∀ {σ : Type} (putchar : U8 → σ → σ) (s : σ), printf strings putchar s format va =
      (printedText strings format va).map fun text =>
        ((text.filter (· ≠ 0)).foldl (fun s c => putchar c s) s, BitVec.ofNat 32 text.length)) ∧
    (∀ {σ : Type} (fct : U8 → σ → σ) (s : σ), fctprintf strings fct s format va =
      (printedText strings format va).map fun text =>
        ((text.filter (· ≠ 0)).foldl (fun s c => fct c s) s, BitVec.ofNat 32 text.length)) ∧
    (∀ null buffer count, count < 2 ^ 64 → snprintf strings null buffer count format va =
      (printedText strings format va).map fun text =>
        (if null then buffer else stored buffer count text, BitVec.ofNat 32 text.length)) ∧
    ∀ null buffer, sprintf strings null buffer format va =
      snprintf strings null buffer (2 ^ 64 - 1) format va := by
  refine ⟨fun putchar s => ?_, fun fct s => ?_, fun null buffer count hcount => ?_,
    fun _ _ => rfl⟩
  · rw [printf, vsnprintfBody_eq]
    refine congrArg (Except.map · _) (funext fun text => Prod.ext ?_ rfl)
    exact emit_outChar putchar _ text (s, 0)
  · rw [fctprintf, vsnprintfBody_eq]
    refine congrArg (Except.map · _) (funext fun text => Prod.ext ?_ rfl)
    exact emit_outChar fct _ text (s, 0)
  · rw [snprintf, vsnprintfBody_eq]
    refine congrArg (Except.map · _) (funext fun text => Prod.ext ?_ rfl)
    cases null with
    | true => exact emit_outNull count text (buffer, 0)
    | false => exact end_outBuffer buffer hcount text

end RealtimeKernel
