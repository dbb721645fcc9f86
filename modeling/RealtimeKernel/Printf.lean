import RealtimeKernel.Numerals

/-!
# `printf.c`: formatted output

`_vsnprintf` interprets a format and hands every character to an output function, with the index of
the character and the size of the buffer.  What is modelled is what `printf.h` leaves of the file:
without floating point, and without `long long`, for which a directive prints nothing.

A `char *` is the list of the bytes from it to the end of its object, so reading the empty list is
an access outside the object.  The variable arguments are a list of 64-bit slots.  `char` is
unsigned and `long`, `size_t`, `ptrdiff_t` and `intmax_t` have 64 bits, as on AArch64; no output is
as long as `2 ^ 64`, so `idx` counts in `ℕ`.
-/

namespace RealtimeKernel

open Lib

/-- What a call can read that is not there. -/
inductive PrintfFault
  /-- A byte behind the format. -/
  | format
  /-- An argument behind the last one. -/
  | argument
  /-- A byte behind a string argument. -/
  | string
  deriving DecidableEq, Repr

def byte (c : Char) : U8 := BitVec.ofNat 8 c.toNat

/-- The bits of `flags`. -/
structure PrintfFlags where
  zeropad : Bool := false
  left : Bool := false
  plus : Bool := false
  space : Bool := false
  hash : Bool := false
  uppercase : Bool := false
  char : Bool := false
  short : Bool := false
  long : Bool := false
  longLong : Bool := false
  precision : Bool := false
  deriving DecidableEq, Repr

/-! ### Output functions -/

/-- An output function of a character, what it writes to, `idx` and `maxlen`. -/
abbrev Out (σ : Type) := U8 → σ → ℕ → ℕ → σ

def outBuffer : Out (ℕ → U8) := fun character buffer idx maxlen =>
  if idx < maxlen then Function.update buffer idx character else buffer

def outNull {σ : Type} : Out σ := fun _ buffer _ _ => buffer

def outChar {σ : Type} (putchar : U8 → σ → σ) : Out σ := fun character s _ _ =>
  if character ≠ 0 then putchar character s else s

def outFct {σ : Type} (fct : U8 → σ → σ) : Out σ := fun character s _ _ =>
  if character ≠ 0 then fct character s else s

section Printf

variable {σ : Type} (out : Out σ) (maxlen : ℕ)

/-- `out(character, buffer, idx++, maxlen)`. -/
def putOut (character : U8) (st : σ × ℕ) : σ × ℕ := (out character st.1 st.2 maxlen, st.2 + 1)

/-- A loop that puts out `n` spaces. -/
def outSpaces : ℕ → σ × ℕ → σ × ℕ
  | 0, st => st
  | n + 1, st => outSpaces n (putOut out maxlen (byte ' ') st)

/-! ### Numbers -/

def ntoaBufferSize : ℕ := 32

/-- The first `len` bytes of the buffer of a number, of which there is room for 32. -/
structure NtoaBuffer where
  chars : List U8
  room : chars.length ≤ ntoaBufferSize

def NtoaBuffer.len (buf : NtoaBuffer) : ℕ := buf.chars.length

/-- `if (len < PRINTF_NTOA_BUFFER_SIZE) buf[len++] = c`. -/
def NtoaBuffer.push (buf : NtoaBuffer) (c : U8) : NtoaBuffer :=
  if h : buf.chars.length < ntoaBufferSize then
    ⟨buf.chars ++ [c], by rw [List.length_append, List.length_singleton]; omega⟩
  else buf

/-- `len--`. -/
def NtoaBuffer.pop (buf : NtoaBuffer) : NtoaBuffer :=
  ⟨buf.chars.dropLast, by rw [List.length_dropLast]; exact (Nat.sub_le _ _).trans buf.room⟩

/-- `while (len < n && len < PRINTF_NTOA_BUFFER_SIZE) buf[len++] = '0'`. -/
def NtoaBuffer.zeros (buf : NtoaBuffer) (n : ℕ) : NtoaBuffer where
  chars := buf.chars ++ List.replicate (min n ntoaBufferSize - buf.len) (byte '0')
  room := by
    have hroom := buf.room
    rw [List.length_append, List.length_replicate, NtoaBuffer.len]
    omega

/-- The loop of `_out_rev` over `buf[--len]`. -/
def outReverse : List U8 → σ × ℕ → σ × ℕ
  | [], st => st
  | c :: buf, st => putOut out maxlen c (outReverse buf st)

def outRev (buf : NtoaBuffer) (width : U32) (flags : PrintfFlags) (st : σ × ℕ) : σ × ℕ :=
  let startIdx := st.2
  let st := if ¬ flags.left ∧ ¬ flags.zeropad then outSpaces out maxlen (width.toNat - buf.len) st
    else st
  let st := outReverse out maxlen buf.chars st
  if flags.left then outSpaces out maxlen (width.toNat - (st.2 - startIdx)) st else st

/-- The zeros in front of a number, and what is left of the width. -/
def ntoaZeros (buf : NtoaBuffer) (negative : Bool) (prec width : U32) (flags : PrintfFlags) :
    U32 × NtoaBuffer :=
  if ¬ flags.left then
    let width :=
      if width ≠ 0 ∧ flags.zeropad ∧ (negative ∨ flags.plus ∨ flags.space) then width - 1
      else width
    let buf := buf.zeros prec.toNat
    (width, if flags.zeropad then buf.zeros width.toNat else buf)
  else (width, buf)

/-- The prefix of the base, which takes the place of zeros. -/
def ntoaHash (buf : NtoaBuffer) (base : ℕ) (prec width : U32) (flags : PrintfFlags) :
    NtoaBuffer :=
  if flags.hash then
    let buf :=
      if ¬ flags.precision ∧ buf.len ≠ 0 ∧ (buf.len = prec.toNat ∨ buf.len = width.toNat) then
        if buf.pop.len ≠ 0 ∧ base = 16 then buf.pop.pop else buf.pop
      else buf
    let buf :=
      if base = 16 ∧ ¬ flags.uppercase then buf.push (byte 'x')
      else if base = 16 ∧ flags.uppercase then buf.push (byte 'X')
      else if base = 2 then buf.push (byte 'b')
      else buf
    buf.push (byte '0')
  else buf

def ntoaSign (buf : NtoaBuffer) (negative : Bool) (flags : PrintfFlags) : NtoaBuffer :=
  if negative then buf.push (byte '-')
  else if flags.plus then buf.push (byte '+')
  else if flags.space then buf.push (byte ' ')
  else buf

def ntoaFormat (buf : NtoaBuffer) (negative : Bool) (base : ℕ) (prec width : U32)
    (flags : PrintfFlags) (st : σ × ℕ) : σ × ℕ :=
  let (width, buf) := ntoaZeros buf negative prec width flags
  outRev out maxlen (ntoaSign (ntoaHash buf base prec width flags) negative flags) width flags st

/-- A digit of a number. -/
def ntoaDigit (uppercase : Bool) (digit : ℕ) : U8 :=
  if digit < 10 then byte '0' + BitVec.ofNat 8 digit
  else (if uppercase then byte 'A' else byte 'a') + BitVec.ofNat 8 digit - 10

/-- The loop over the digits of `value`; every turn but the first one finds room in the buffer, so
its size bounds their number. -/
def ntoaDigits (base : ℕ) (uppercase : Bool) : ℕ → ℕ → NtoaBuffer → NtoaBuffer
  | 0, _, buf => buf
  | n + 1, value, buf =>
    let buf := buf.push (ntoaDigit uppercase (value % base))
    if value / base ≠ 0 ∧ buf.len < ntoaBufferSize then
      ntoaDigits base uppercase n (value / base) buf
    else buf

/-- The digits of `value`, the last one first. -/
def ntoaValue (value : U64) (base : ℕ) (flags : PrintfFlags) : NtoaBuffer :=
  let buf : NtoaBuffer := ⟨[], Nat.zero_le _⟩
  if ¬ flags.precision ∨ value ≠ 0 then
    ntoaDigits base flags.uppercase ntoaBufferSize value.toNat buf
  else buf

def ntoaLong (value : U64) (negative : Bool) (base : ℕ) (prec width : U32) (flags : PrintfFlags)
    (st : σ × ℕ) : σ × ℕ :=
  let flags := if value = 0 then { flags with hash := false } else flags
  ntoaFormat out maxlen (ntoaValue value base flags) negative base prec width flags st

/-! ### Reading a directive -/

def isDigit (ch : U8) : Bool := byte '0' ≤ ch ∧ ch ≤ byte '9'

/-- `*format`. -/
def atFormat : List U8 → Except PrintfFault U8
  | [] => .error .format
  | c :: _ => .ok c

/-- `va_arg(va, ...)`, of which the caller takes the bits of its type. -/
def vaArg : List U64 → Except PrintfFault (U64 × List U64)
  | [] => .error .argument
  | a :: va => .ok (a, va)

def atoi (i : U32) : List U8 → Except PrintfFault (U32 × List U8)
  | [] => .error .format
  | c :: str =>
    if isDigit c then atoi (i * 10 + (c - byte '0').setWidth 32) str else .ok (i, c :: str)

/-- A directive up to its specifier. -/
structure Directive where
  flags : PrintfFlags
  width : U32
  precision : U32
  deriving DecidableEq, Repr

def readFlags (flags : PrintfFlags) : List U8 → Except PrintfFault (PrintfFlags × List U8)
  | [] => .error .format
  | c :: format =>
    if c = byte '0' then readFlags { flags with zeropad := true } format
    else if c = byte '-' then readFlags { flags with left := true } format
    else if c = byte '+' then readFlags { flags with plus := true } format
    else if c = byte ' ' then readFlags { flags with space := true } format
    else if c = byte '#' then readFlags { flags with hash := true } format
    else .ok (flags, c :: format)

def readWidth (flags : PrintfFlags) (format : List U8) (va : List U64) :
    Except PrintfFault (PrintfFlags × U32 × List U8 × List U64) := do
  let c ← atFormat format
  if isDigit c then
    let (width, format) ← atoi 0 format
    .ok (flags, width, format, va)
  else if c = byte '*' then
    let (w, va) ← vaArg va
    let w : U32 := w.setWidth 32
    if w.toInt < 0 then .ok ({ flags with left := true }, -w, format.tail, va)
    else .ok (flags, w, format.tail, va)
  else .ok (flags, 0, format, va)

def readPrecision (flags : PrintfFlags) (format : List U8) (va : List U64) :
    Except PrintfFault (PrintfFlags × U32 × List U8 × List U64) := do
  let c ← atFormat format
  if c = byte '.' then
    let flags := { flags with precision := true }
    let format := format.tail
    let c ← atFormat format
    if isDigit c then
      let (precision, format) ← atoi 0 format
      .ok (flags, precision, format, va)
    else if c = byte '*' then
      let (prec, va) ← vaArg va
      let prec : U32 := prec.setWidth 32
      .ok (flags, if prec.toInt > 0 then prec else 0, format.tail, va)
    else .ok (flags, 0, format, va)
  else .ok (flags, 0, format, va)

def readLength (flags : PrintfFlags) (format : List U8) :
    Except PrintfFault (PrintfFlags × List U8) := do
  let c ← atFormat format
  if c = byte 'l' then
    let c ← atFormat format.tail
    if c = byte 'l' then .ok ({ flags with long := true, longLong := true }, format.tail.tail)
    else .ok ({ flags with long := true }, format.tail)
  else if c = byte 'h' then
    let c ← atFormat format.tail
    if c = byte 'h' then .ok ({ flags with short := true, char := true }, format.tail.tail)
    else .ok ({ flags with short := true }, format.tail)
  else if c = byte 't' ∨ c = byte 'j' ∨ c = byte 'z' then
    .ok ({ flags with long := true }, format.tail)
  else .ok (flags, format)

def readDirective (format : List U8) (va : List U64) :
    Except PrintfFault (Directive × List U8 × List U64) := do
  let (flags, format) ← readFlags {} format
  let (flags, width, format, va) ← readWidth flags format va
  let (flags, precision, format, va) ← readPrecision flags format va
  let (flags, format) ← readLength flags format
  .ok (⟨flags, width, precision⟩, format, va)

/-! ### Strings -/

/-- `_strnlen_s`. -/
def strnlenS : List U8 → ℕ → Except PrintfFault ℕ
  | [], _ => .error .string
  | c :: str, maxsize =>
    if c = 0 then .ok 0
    else match maxsize with
      | 0 => .ok 0
      | maxsize + 1 => do
        let n ← strnlenS str maxsize
        .ok (n + 1)

/-- The loop over a string; without a precision there is no `limit`. -/
def outString : List U8 → Option ℕ → σ × ℕ → Except PrintfFault (σ × ℕ)
  | [], _, _ => .error .string
  | c :: p, limit, st =>
    if c = 0 then .ok st
    else match limit with
      | none => outString p none (putOut out maxlen c st)
      | some 0 => .ok st
      | some (n + 1) => outString p (some n) (putOut out maxlen c st)

/-! ### The specifiers -/

/-- The cases `d`, `i`, `u`, `x`, `X`, `o` and `b`. -/
def isInteger (c : U8) : Bool :=
  c = byte 'd' ∨ c = byte 'i' ∨ c = byte 'u' ∨ c = byte 'x' ∨ c = byte 'X' ∨ c = byte 'o' ∨
    c = byte 'b'

/-- The base of an integer, and the flags that count. -/
def integerFormat (c : U8) (flags : PrintfFlags) : ℕ × PrintfFlags :=
  let (base, flags) :=
    if c = byte 'x' ∨ c = byte 'X' then (16, flags)
    else if c = byte 'o' then (8, flags)
    else if c = byte 'b' then (2, flags)
    else (10, { flags with hash := false })
  let flags := if c = byte 'X' then { flags with uppercase := true } else flags
  let flags := if c ≠ byte 'i' ∧ c ≠ byte 'd' then { flags with plus := false, space := false }
    else flags
  let flags := if flags.precision then { flags with zeropad := false } else flags
  (base, flags)

/-- An argument of `int`, cut down to a `char` or a `short`. -/
def signedArg (flags : PrintfFlags) (a : U64) : U32 :=
  if flags.char then (a.setWidth 8).setWidth 32
  else if flags.short then (a.setWidth 16).signExtend 32
  else a.setWidth 32

def unsignedArg (flags : PrintfFlags) (a : U64) : U32 :=
  if flags.char then (a.setWidth 8).setWidth 32
  else if flags.short then (a.setWidth 16).setWidth 32
  else a.setWidth 32

/-- `value > 0 ? value : 0 - value`. -/
def magnitude {w : ℕ} (value : BitVec w) : BitVec w := if value.toInt > 0 then value else 0 - value

/-- The number that an argument stands for, and whether it is negative. -/
def integerArg (c : U8) (flags : PrintfFlags) (a : U64) : U64 × Bool :=
  if c = byte 'i' ∨ c = byte 'd' then
    if flags.long then (magnitude a, decide (a.toInt < 0))
    else
      let value := signedArg flags a
      ((magnitude value).setWidth 64, decide (value.toInt < 0))
  else if flags.long then (a, false)
  else ((unsignedArg flags a).setWidth 64, false)

def outInteger (c : U8) (d : Directive) (va : List U64) (st : σ × ℕ) :
    Except PrintfFault ((σ × ℕ) × List U64) :=
  let (base, flags) := integerFormat c d.flags
  if flags.longLong then .ok (st, va)
  else do
    let (a, va) ← vaArg va
    let (value, negative) := integerArg c flags a
    .ok (ntoaLong out maxlen value negative base d.precision d.width flags st, va)

def outCharacter (d : Directive) (va : List U64) (st : σ × ℕ) :
    Except PrintfFault ((σ × ℕ) × List U64) := do
  let st := if ¬ d.flags.left then outSpaces out maxlen (d.width.toNat - 1) st else st
  let (a, va) ← vaArg va
  let st := putOut out maxlen (a.setWidth 8) st
  .ok (if d.flags.left then outSpaces out maxlen (d.width.toNat - 1) st else st, va)

def outStringArg (strings : U64 → List U8) (d : Directive) (va : List U64) (st : σ × ℕ) :
    Except PrintfFault ((σ × ℕ) × List U64) := do
  let (a, va) ← vaArg va
  let p := strings a
  let l ← strnlenS p (if d.precision ≠ 0 then d.precision.toNat else 2 ^ 64 - 1)
  let l := l % 2 ^ 32
  let l := if d.flags.precision then min l d.precision.toNat else l
  let st := if ¬ d.flags.left then outSpaces out maxlen (d.width.toNat - l) st else st
  let st ← outString out maxlen p (if d.flags.precision then some d.precision.toNat else none) st
  .ok (if d.flags.left then outSpaces out maxlen (d.width.toNat - l) st else st, va)

def outPointer (d : Directive) (va : List U64) (st : σ × ℕ) :
    Except PrintfFault ((σ × ℕ) × List U64) := do
  let (a, va) ← vaArg va
  .ok (ntoaLong out maxlen a false 16 d.precision 16
    { d.flags with zeropad := true, uppercase := true } st, va)

/-- The `switch` over the specifier `c`. -/
def outSpecifier (strings : U64 → List U8) (c : U8) (d : Directive) (va : List U64)
    (st : σ × ℕ) : Except PrintfFault ((σ × ℕ) × List U64) :=
  if isInteger c then
    outInteger out maxlen c d va st
  else if c = byte 'c' then outCharacter out maxlen d va st
  else if c = byte 's' then outStringArg out maxlen strings d va st
  else if c = byte 'p' then outPointer out maxlen d va st
  -- '%', and all other bytes
  else .ok (putOut out maxlen c st, va)

/-! ### The loop over the format -/

/-- Every turn reads a byte at least, so the length of the format bounds their number. -/
def vsnprintfLoop (strings : U64 → List U8) :
    ℕ → List U8 → List U64 → σ × ℕ → Except PrintfFault (σ × ℕ)
  | 0, _, _, _ => .error .format
  | n + 1, format, va, st => do
    let c ← atFormat format
    if c = 0 then .ok st
    else if c ≠ byte '%' then
      vsnprintfLoop strings n format.tail va (putOut out maxlen c st)
    else
      let (d, format, va) ← readDirective format.tail va
      let c ← atFormat format
      let (st, va) ← outSpecifier out maxlen strings c d va st
      vsnprintfLoop strings n format.tail va st

end Printf

/-- `_vsnprintf`; a null `buffer` is written to by `_out_null`. -/
def vsnprintfBody {σ : Type} (out : Out σ) (null : Bool) (s : σ) (maxlen : ℕ)
    (strings : U64 → List U8) (format : List U8) (va : List U64) :
    Except PrintfFault (σ × U32) := do
  let out := if null then outNull else out
  let (s, idx) ← vsnprintfLoop out maxlen strings format.length format va (s, 0)
  let s := out 0 s (if idx < maxlen then idx else (maxlen + 2 ^ 64 - 1) % 2 ^ 64) maxlen
  .ok (s, BitVec.ofNat 32 idx)

section Calls

variable {σ : Type} (strings : U64 → List U8)

/-- `printf_` and `vprintf_`. -/
def printf (putchar : U8 → σ → σ) (s : σ) (format : List U8) (va : List U64) :
    Except PrintfFault (σ × U32) :=
  vsnprintfBody (outChar putchar) false s (2 ^ 64 - 1) strings format va

/-- `sprintf_`. -/
def sprintf (null : Bool) (buffer : ℕ → U8) (format : List U8) (va : List U64) :
    Except PrintfFault ((ℕ → U8) × U32) :=
  vsnprintfBody outBuffer null buffer (2 ^ 64 - 1) strings format va

/-- `snprintf_` and `vsnprintf_`. -/
def snprintf (null : Bool) (buffer : ℕ → U8) (count : ℕ) (format : List U8) (va : List U64) :
    Except PrintfFault ((ℕ → U8) × U32) :=
  vsnprintfBody outBuffer null buffer count strings format va

def fctprintf (fct : U8 → σ → σ) (s : σ) (format : List U8) (va : List U64) :
    Except PrintfFault (σ × U32) :=
  vsnprintfBody (outFct fct) false s (2 ^ 64 - 1) strings format va

end Calls

end RealtimeKernel
