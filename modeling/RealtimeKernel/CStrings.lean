import RealtimeKernel.Basic
import RealtimeKernel.Lib.Segments

/-!
# `utilities.c`: strings in memory and their tokens

A `char *` is the bytes from it on; a pointer into the string is an index.  `char` is unsigned,
as it is on AArch64.
-/

namespace RealtimeKernel

open Lib

/-- The `n` bytes of a string from index `i` on. -/
def bytesAt (str : ℕ → U8) (i n : ℕ) : List U8 := (List.range n).map fun k => str (i + k)

section BytesAt

variable {str : ℕ → U8} {i k n : ℕ}

@[simp] theorem bytesAt_zero : bytesAt str i 0 = [] := rfl

@[simp] theorem length_bytesAt : (bytesAt str i n).length = n := by simp [bytesAt]

theorem bytesAt_succ : bytesAt str i (n + 1) = str i :: bytesAt str (i + 1) n := by
  unfold bytesAt
  rw [List.range_succ_eq_map, List.map_cons, List.map_map, Nat.add_zero]
  congr 1
  apply List.map_congr_left
  intro k _
  show str (i + (k + 1)) = str (i + 1 + k)
  congr 1
  omega

theorem bytesAt_snoc : bytesAt str i (n + 1) = bytesAt str i n ++ [str (i + n)] := by
  unfold bytesAt
  rw [List.range_succ, List.map_append, List.map_singleton]

theorem drop_bytesAt : (bytesAt str i n).drop k = bytesAt str (i + k) (n - k) := by
  induction k generalizing i n with
  | zero => rfl
  | succ k ih =>
    cases n with
    | zero => simp
    | succ n =>
      rw [bytesAt_succ, List.drop_succ_cons, ih, Nat.succ_sub_succ]
      congr 1
      omega

theorem take_bytesAt (hk : k ≤ n) : (bytesAt str i n).take k = bytesAt str i k := by
  unfold bytesAt
  rw [← List.map_take, List.take_range, Nat.min_eq_left hk]

theorem bytesAt_append (m : ℕ) :
    bytesAt str i (n + m) = bytesAt str i n ++ bytesAt str (i + n) m := by
  induction m with
  | zero => simp
  | succ m ih => rw [← Nat.add_assoc, bytesAt_snoc, ih, bytesAt_snoc, List.append_assoc,
      Nat.add_assoc]

theorem bytesAt_congr {str' : ℕ → U8} (h : ∀ k, i ≤ k → k < i + n → str' k = str k) :
    bytesAt str' i n = bytesAt str i n := by
  apply List.map_congr_left
  intro k hk
  rw [List.mem_range] at hk
  exact h (i + k) (by omega) (by omega)

theorem getElem_bytesAt {k : ℕ} (hk : k < (bytesAt str i n).length) :
    (bytesAt str i n)[k] = str (i + k) := by
  simp [bytesAt]

end BytesAt

/-! ### Terminated strings -/

/-- A string that ends, as every string passed to `strlen` has to. -/
structure StringBuffer where
  bytes : ℕ → U8
  terminated : ∃ n, bytes n = 0

/-- The number of bytes before the first `'\0'`. -/
def strlen (str : StringBuffer) : ℕ := Nat.find str.terminated

/-- The bytes before the first `'\0'`. -/
def StringBuffer.text (str : StringBuffer) : List U8 := bytesAt str.bytes 0 (strlen str)

/-- Bytes without a `'\0'` among them and one behind them are the text of a string. -/
theorem exists_stringBuffer {str : ℕ → U8} {l : List U8} (hl : bytesAt str 0 l.length = l)
    (h₀ : 0 ∉ l) (hend : str l.length = 0) :
    ∃ s : StringBuffer, s.bytes = str ∧ strlen s = l.length ∧ s.text = l := by
  have hlen : strlen ⟨str, l.length, hend⟩ = l.length := by
    rw [strlen, Nat.find_eq_iff]
    refine ⟨hend, ?_⟩
    intro k hk hzero
    apply h₀
    have hk' : k < (bytesAt str 0 l.length).length := by rwa [length_bytesAt]
    have hmem := List.getElem_mem hk'
    rw [getElem_bytesAt, Nat.zero_add, hl] at hmem
    rwa [← hzero]
  refine ⟨⟨str, l.length, hend⟩, rfl, hlen, ?_⟩
  rw [StringBuffer.text, hlen]
  exact hl

/-! ### `cstring_get_token` -/

/-- `' '`. -/
def space : U8 := 32

/-- The loop of `cstring_get_token` at byte `i` with `n` passes to go, and the lines after it. -/
def getTokenFrom (line : ℕ → U8) (lineLen idx : ℕ) :
    ℕ → ℕ → (ptr ptrIdx tokenIdx : ℕ) → Option ℕ × ℕ
  | 0, _, ptr, ptrIdx, tokenIdx =>
    if tokenIdx = idx then (some ptr, lineLen - ptrIdx) else (none, 0)
  | n + 1, i, ptr, ptrIdx, tokenIdx =>
    if line i = space then
      if tokenIdx = idx then (some ptr, i - ptrIdx)
      else getTokenFrom line lineLen idx n (i + 1) (i + 1) (i + 1) (tokenIdx + 1)
    else getTokenFrom line lineLen idx n (i + 1) ptr ptrIdx tokenIdx

/-- The pointer that is returned and the value left in `*token_size`. -/
def cstringGetToken (line : ℕ → U8) (lineLen idx : ℕ) : Option ℕ × ℕ :=
  getTokenFrom line lineLen idx lineLen 0 0 0 0

/-- The bytes a call of `cstring_get_token` gives. -/
def tokenBytes (line : ℕ → U8) (token : Option ℕ × ℕ) : List U8 :=
  token.1.elim [] fun ptr => bytesAt line ptr token.2

section Tokens

variable {line : ℕ → U8} {lineLen idx n i p tok : ℕ} {s t : List U8} {S : List (List U8)}

/-- The token the loop stands in ends at the next space or at the end of the line. -/
theorem getTokenFrom_current (hlen : i + n = lineLen) (hp : p ≤ i)
    (hS : (bytesAt line i n).splitOn space = s :: S) :
    getTokenFrom line lineLen tok n i p p tok = (some p, i - p + s.length) := by
  induction n generalizing i s S with
  | zero =>
    obtain ⟨rfl, -⟩ : [] = s ∧ [] = S := by simpa using hS
    rw [getTokenFrom, if_pos rfl, List.length_nil]
    congr 1
    omega
  | succ n ih =>
    rw [bytesAt_succ] at hS
    by_cases hi : line i = space
    · rw [hi, splitOn_cons_self] at hS
      obtain ⟨rfl, -⟩ := List.cons.inj hS
      rw [getTokenFrom, if_pos hi, if_pos rfl, List.length_nil, Nat.add_zero]
    · obtain ⟨s', S', hrest⟩ := exists_splitOn_eq_cons space (bytesAt line (i + 1) n)
      rw [splitOn_cons_of_ne hi hrest] at hS
      obtain ⟨rfl, rfl⟩ := List.cons.inj hS
      rw [getTokenFrom, if_neg hi, ih (by omega) (by omega) hrest, List.length_cons]
      congr 1
      omega

/-- A later token is a later segment of the bytes that are left. -/
theorem getTokenFrom_later (hlen : i + n = lineLen) (hp : p ≤ i) (k : ℕ)
    (ht : ((bytesAt line i n).splitOn space)[k + 1]? = some t) :
    getTokenFrom line lineLen (tok + (k + 1)) n i p p tok =
      (some (i + segmentStart ((bytesAt line i n).splitOn space) (k + 1)), t.length) := by
  induction n generalizing i p tok k with
  | zero => simp at ht
  | succ n ih =>
    rw [bytesAt_succ] at ht ⊢
    by_cases hi : line i = space
    · rw [hi, splitOn_cons_self] at ht ⊢
      rw [getTokenFrom, if_pos hi, if_neg (by omega), segmentStart_cons_succ, List.length_nil]
      rw [List.getElem?_cons_succ] at ht
      cases k with
      | zero =>
        obtain ⟨s', S', hrest⟩ := exists_splitOn_eq_cons space (bytesAt line (i + 1) n)
        rw [hrest] at ht
        obtain rfl : s' = t := by simpa using ht
        rw [getTokenFrom_current (by omega) (Nat.le_refl _) hrest, hrest]
        simp
      | succ k =>
        rw [show tok + (k + 1 + 1) = tok + 1 + (k + 1) by omega,
          ih (by omega) (Nat.le_refl _) k ht]
        congr 2
        omega
    · obtain ⟨s', S', hrest⟩ := exists_splitOn_eq_cons space (bytesAt line (i + 1) n)
      rw [splitOn_cons_of_ne hi hrest] at ht ⊢
      rw [getTokenFrom, if_neg hi, ih (by omega) (by omega) k (by rw [hrest]; simpa using ht),
        hrest, segmentStart_cons_succ, segmentStart_cons_succ, List.length_cons]
      congr 2
      omega

/-- Past the last segment there is no token. -/
theorem getTokenFrom_none (hk : (bytesAt line i n).count space < k) :
    getTokenFrom line lineLen (tok + k) n i p p tok = (none, 0) := by
  induction n generalizing i p tok k with
  | zero => rw [getTokenFrom, if_neg (by omega)]
  | succ n ih =>
    rw [bytesAt_succ] at hk
    by_cases hi : line i = space
    · rw [hi, List.count_cons_self] at hk
      obtain ⟨m, rfl⟩ : ∃ m, k = m + 1 := ⟨k - 1, by omega⟩
      rw [getTokenFrom, if_pos hi, if_neg (by omega), ← Nat.add_assoc, Nat.add_right_comm]
      exact ih (by omega)
    · rw [List.count_cons_of_ne hi] at hk
      rw [getTokenFrom, if_neg hi]
      exact ih hk

/-- Segment `idx` of the line is token `idx`. -/
theorem cstringGetToken_segment (ht : ((bytesAt line 0 n).splitOn space)[idx]? = some t) :
    cstringGetToken line n idx =
      (some (segmentStart ((bytesAt line 0 n).splitOn space) idx), t.length) := by
  cases idx with
  | zero =>
    obtain ⟨s, S, hS⟩ := exists_splitOn_eq_cons space (bytesAt line 0 n)
    rw [hS] at ht
    obtain rfl : s = t := by simpa using ht
    rw [cstringGetToken, getTokenFrom_current (Nat.zero_add n) (Nat.le_refl _) hS]
    simp
  | succ k =>
    have hlater : getTokenFrom line n (0 + (k + 1)) n 0 0 0 0 = _ :=
      getTokenFrom_later (Nat.zero_add n) (Nat.le_refl 0) k ht
    rw [Nat.zero_add, Nat.zero_add] at hlater
    exact hlater

theorem cstringGetToken_none (hidx : (bytesAt line 0 n).count space < idx) :
    cstringGetToken line n idx = (none, 0) := by
  rw [cstringGetToken, ← Nat.zero_add idx]
  exact getTokenFrom_none hidx

theorem exists_segment (hidx : idx ≤ (bytesAt line 0 n).count space) :
    ∃ t, ((bytesAt line 0 n).splitOn space)[idx]? = some t := by
  have hlt : idx < ((bytesAt line 0 n).splitOn space).length := by
    rw [length_splitOn]
    omega
  exact ⟨_, List.getElem?_eq_getElem hlt⟩

/-- The bytes of token `idx` are those of segment `idx`. -/
theorem tokenBytes_segment (ht : ((bytesAt line 0 n).splitOn space)[idx]? = some t) :
    tokenBytes line (cstringGetToken line n idx) = t := by
  have htake := take_drop_segmentStart (bytesAt line 0 n) ht
  rw [cstringGetToken_segment ht]
  show bytesAt line (segmentStart ((bytesAt line 0 n).splitOn space) idx) t.length = t
  rw [drop_bytesAt, Nat.zero_add] at htake
  have hlen : t.length ≤ n - segmentStart ((bytesAt line 0 n).splitOn space) idx := by
    have hmin := congrArg List.length htake
    rw [List.length_take, length_bytesAt] at hmin
    omega
  rwa [take_bytesAt hlen] at htake

/-- The tokens in their order are the segments. -/
theorem map_tokenBytes (line : ℕ → U8) (n : ℕ) :
    ((List.range ((bytesAt line 0 n).count space + 1)).map fun k =>
      tokenBytes line (cstringGetToken line n k)) = (bytesAt line 0 n).splitOn space := by
  apply List.ext_getElem
  · rw [List.length_map, List.length_range, length_splitOn]
  · intro k hk hk'
    rw [List.getElem_map, List.getElem_range]
    exact tokenBytes_segment (List.getElem?_eq_getElem hk')

end Tokens

/-- **`cstring_get_token` indexes the split.**  Call `idx` returns the start and the length of
segment `idx` of the first `line_len` bytes split at every space, and `NULL` with length 0
exactly when `idx` exceeds the number of spaces; the tokens joined with spaces are the line. -/
theorem get_token_splits (line : ℕ → U8) (lineLen idx : ℕ) :
    (∀ t, ((bytesAt line 0 lineLen).splitOn space)[idx]? = some t →
      cstringGetToken line lineLen idx =
        (some (segmentStart ((bytesAt line 0 lineLen).splitOn space) idx), t.length) ∧
      bytesAt line (segmentStart ((bytesAt line 0 lineLen).splitOn space) idx) t.length = t) ∧
    ((cstringGetToken line lineLen idx).1 = none ↔
      (bytesAt line 0 lineLen).count space < idx) ∧
    ((bytesAt line 0 lineLen).count space < idx →
      cstringGetToken line lineLen idx = (none, 0)) ∧
    [space].intercalate ((List.range ((bytesAt line 0 lineLen).count space + 1)).map fun k =>
      tokenBytes line (cstringGetToken line lineLen k)) = bytesAt line 0 lineLen := by
  refine ⟨?_, ?_, cstringGetToken_none, ?_⟩
  · intro t ht
    refine ⟨cstringGetToken_segment ht, ?_⟩
    have hbytes := tokenBytes_segment ht
    rwa [cstringGetToken_segment ht] at hbytes
  · constructor
    · intro hnull
      by_contra hidx
      obtain ⟨t, ht⟩ := exists_segment (Nat.le_of_not_lt hidx)
      rw [cstringGetToken_segment ht] at hnull
      cases hnull
    · intro hidx
      rw [cstringGetToken_none hidx]
  · rw [map_tokenBytes, List.intercalate_splitOn]

/-- `" a "` has an empty token at both ends. -/
example : (List.range 4).map (cstringGetToken (fun i => if i = 1 then 97 else space) 3) =
    [(some 0, 0), (some 1, 1), (some 3, 0), (none, 0)] := by decide

end RealtimeKernel
