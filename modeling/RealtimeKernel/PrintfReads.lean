import RealtimeKernel.PrintfText

/-!
# What a format makes `printf` read

A format is read from left to right, and at every byte it is at one of a few places: in plain text,
or somewhere in a directive.  The place decides which bytes take an argument.  `_vsnprintf` does
not look for the end of the format inside a directive: if the format ends there, the final `'\0'`
is taken for a specifier, and reading goes on behind the format.  In all other cases it stays inside
the format, and the arguments that the places count are all it asks for.
-/

namespace RealtimeKernel

open Lib

/-! ### The places of a format -/

inductive FormatPlace
  | text
  /-- Behind `%` and flags. -/
  | flags
  /-- Behind digits of the width. -/
  | width
  | afterWidth
  | dot
  /-- Behind digits of the precision. -/
  | precision
  | afterPrecision
  /-- Behind `l`. -/
  | long
  /-- Behind `ll`. -/
  | longLong
  /-- Behind `h`. -/
  | short
  | specifier
  deriving DecidableEq, Repr

namespace FormatPlace

def isFlag (c : U8) : Bool :=
  c = byte '0' ∨ c = byte '-' ∨ c = byte '+' ∨ c = byte ' ' ∨ c = byte '#'

/-- Where a byte leads to when a length can follow, or the specifier. -/
def ofLength (c : U8) : FormatPlace :=
  if c = byte 'l' then .long
  else if c = byte 'h' then .short
  else if c = byte 't' ∨ c = byte 'j' ∨ c = byte 'z' then .specifier
  else .text

/-- Where a byte leads to when a precision can follow. -/
def ofDot (c : U8) : FormatPlace := if c = byte '.' then .dot else ofLength c

def next : FormatPlace → U8 → FormatPlace
  | .text, c => if c = byte '%' then .flags else .text
  | .flags, c =>
    if isFlag c then .flags
    else if isDigit c then .width
    else if c = byte '*' then .afterWidth
    else ofDot c
  | .width, c => if isDigit c then .width else ofDot c
  | .afterWidth, c => ofDot c
  | .dot, c =>
    if isDigit c then .precision
    else if c = byte '*' then .afterPrecision
    else ofLength c
  | .precision, c => if isDigit c then .precision else ofLength c
  | .afterPrecision, c => ofLength c
  | .long, c => if c = byte 'l' then .longLong else .text
  | .short, c => if c = byte 'h' then .specifier else .text
  | .longLong, _ => .text
  | .specifier, _ => .text

/-- The arguments of a specifier; integers of `long long` are left out. -/
def specifierArgs (longLong : Bool) (c : U8) : ℕ :=
  if isInteger c then
    if longLong then 0 else 1
  else if c = byte 'c' ∨ c = byte 's' ∨ c = byte 'p' then 1
  else 0

/-- The arguments that a byte takes. -/
def takes (place : FormatPlace) (c : U8) : ℕ :=
  if place = .text then 0
  else if (place = .flags ∨ place = .dot) ∧ c = byte '*' then 1
  else if place.next c = .text then specifierArgs (place = .longLong) c
  else 0

/-- Whether a format that goes on with `l` ends in plain text, and how many arguments it takes. -/
def reads : FormatPlace → List U8 → Bool × ℕ
  | place, [] => (place = .text, 0)
  | place, c :: l => ((reads (place.next c) l).1, place.takes c + (reads (place.next c) l).2)

end FormatPlace

/-- How a call with `n` arguments ends that asks for the second component of `r`, and whose format
ends in plain text or not. -/
def readFault (n : ℕ) (r : Bool × ℕ) : Option PrintfFault :=
  if n < r.2 then some .argument else if r.1 then none else some .format

/-- The computation ends as `reads` says, or because a string argument has no end. -/
def FaultsAs (bad : Prop) {α : Type} (x : Except PrintfFault α) (n : ℕ) (r : Bool × ℕ) : Prop :=
  failure x = readFault n r ∨ failure x = some .string ∧ bad

section Reads

open FormatPlace

variable {bad : Prop} {α : Type} {strings : U64 → List U8} {l : List U8} {va : List U64} {c : U8}
  {n : ℕ} {flags : PrintfFlags}

theorem readFault_succ (r : Bool × ℕ) : readFault (n + 1) (r.1, 1 + r.2) = readFault n r := by
  unfold readFault
  by_cases h : n < r.2
  · rw [if_pos h, if_pos (by show n + 1 < 1 + r.2; omega)]
  · rw [if_neg h, if_neg (by show ¬ n + 1 < 1 + r.2; omega)]

/-- An argument is there, or the call ends for want of it. -/
theorem vaArg_faults {k : U64 × List U64 → Except PrintfFault α} {r : Bool × ℕ}
    (hk : ∀ a va', va = a :: va' → FaultsAs bad (k (a, va')) va'.length r) :
    FaultsAs bad (vaArg va >>= k) va.length (r.1, 1 + r.2) := by
  cases va with
  | nil =>
    left
    rw [readFault, if_pos (by show 0 < 1 + r.2; omega)]
    rfl
  | cons a va' =>
    rw [List.length_cons, FaultsAs, readFault_succ]
    exact hk a va' rfl

theorem isFlag_iff : isFlag c = true ↔
    c = byte '0' ∨ c = byte '-' ∨ c = byte '+' ∨ c = byte ' ' ∨ c = byte '#' := by
  simp [isFlag]

theorem reads_flag (hc : isFlag c = true) : reads .flags (c :: l) = reads .flags l := by
  have hnext : FormatPlace.flags.next c = .flags := by rw [next, if_pos hc]
  have hstar : c ≠ byte '*' := by
    rintro rfl
    revert hc
    decide
  have htakes : FormatPlace.flags.takes c = 0 := by
    rw [takes, if_neg (by decide), if_neg fun h => hstar h.2, hnext, if_neg (by decide)]
  rw [reads, hnext, htakes, Nat.zero_add]

theorem readFlags_faults {k : PrintfFlags × List U8 → Except PrintfFault α}
    (h₀ : (0 : U8) ∉ l) (hk : ∀ flags' l', (0 : U8) ∉ l' → l'.length ≤ l.length →
      (∀ c ∈ l'.head?, isFlag c = false) → flags'.longLong = flags.longLong →
      FaultsAs bad (k (flags', l' ++ [0])) n (reads .flags l')) :
    FaultsAs bad (readFlags flags (l ++ [0]) >>= k) n (reads .flags l) := by
  induction l generalizing flags with
  | nil => exact hk flags [] h₀ le_rfl (by simp) rfl
  | cons c l ih =>
    have hrest : (0 : U8) ∉ l := fun h => h₀ (List.mem_cons_of_mem c h)
    have hstep : ∀ flags' : PrintfFlags, flags'.longLong = flags.longLong → isFlag c = true →
        FaultsAs bad (readFlags flags' (l ++ [0]) >>= k) n (reads .flags (c :: l)) := by
      intro flags' hlong hc
      rw [reads_flag hc]
      apply ih hrest
      intro flags'' l' h₀' hlen hhead hlong'
      exact hk flags'' l' h₀' (hlen.trans (Nat.le_succ _)) hhead (hlong'.trans hlong)
    rw [List.cons_append, readFlags]
    split_ifs with hc hc hc hc hc
    · exact hstep _ rfl (isFlag_iff.mpr (.inl hc))
    · exact hstep _ rfl (isFlag_iff.mpr (.inr (.inl hc)))
    · exact hstep _ rfl (isFlag_iff.mpr (.inr (.inr (.inl hc))))
    · exact hstep _ rfl (isFlag_iff.mpr (.inr (.inr (.inr (.inl hc)))))
    · exact hstep _ rfl (isFlag_iff.mpr (.inr (.inr (.inr (.inr hc)))))
    · refine hk flags (c :: l) h₀ le_rfl ?_ rfl
      intro c' hc'
      cases hc'
      rw [← Bool.not_eq_true, isFlag_iff]
      tauto

theorem reads_go {place place' : FormatPlace} (hnext : place.next c = place')
    (hstar : place ≠ .flags ∧ place ≠ .dot) (hplace : place' ≠ .text) :
    reads place (c :: l) = reads place' l := by
  have htakes : place.takes c = 0 := by
    rw [takes, hnext, if_neg fun h : (_ ∨ _) ∧ _ => h.1.elim hstar.1 hstar.2, if_neg hplace,
      ite_self]
  rw [reads, hnext, htakes, Nat.zero_add]

/-! ### Width and precision -/

theorem reads_congr {place place' : FormatPlace} (hnext : place.next c = place'.next c)
    (htakes : place.takes c = place'.takes c) :
    reads place (c :: l) = reads place' (c :: l) := by
  rw [reads, reads, hnext, htakes]

/-- Digits of a width and of a precision. -/
theorem atoi_reads (i : U32) (h₀ : (0 : U8) ∉ l) : ∃ w l', atoi i (l ++ [0]) = .ok (w, l' ++ [0]) ∧
    (0 : U8) ∉ l' ∧ l'.length ≤ l.length ∧ reads .width l = reads .afterWidth l' ∧
    reads .precision l = reads .afterPrecision l' := by
  induction l generalizing i with
  | nil => exact ⟨i, [], rfl, h₀, le_rfl, rfl, rfl⟩
  | cons c l ih =>
    by_cases hc : isDigit c = true
    · obtain ⟨w, l', hatoi, h₀', hlen, hwidth, hprec⟩ :=
        ih (i * 10 + (c - byte '0').setWidth 32) fun h => h₀ (List.mem_cons_of_mem c h)
      have hwidth' : reads .width (c :: l) = reads .width l := by
        have hnext : FormatPlace.width.next c = .width := by rw [next, if_pos hc]
        rw [reads, takes, hnext]
        simp
      have hprec' : reads .precision (c :: l) = reads .precision l := by
        have hnext : FormatPlace.precision.next c = .precision := by rw [next, if_pos hc]
        rw [reads, takes, hnext]
        simp
      refine ⟨w, l', ?_, h₀', hlen.trans (Nat.le_succ _), hwidth'.trans hwidth,
        hprec'.trans hprec⟩
      rw [List.cons_append, atoi, if_pos hc, hatoi]
    · refine ⟨i, c :: l, ?_, h₀, le_rfl, ?_, ?_⟩
      · rw [List.cons_append, atoi, if_neg hc]
      · have hnext : FormatPlace.width.next c = FormatPlace.afterWidth.next c := by
          rw [next, if_neg hc, next]
        exact reads_congr hnext (by rw [takes, takes, hnext]; simp)
      · have hnext : FormatPlace.precision.next c = FormatPlace.afterPrecision.next c := by
          rw [next, if_neg hc, next]
        exact reads_congr hnext (by rw [takes, takes, hnext]; simp)

theorem readWidth_faults
    {k : PrintfFlags × U32 × List U8 × List U64 → Except PrintfFault α} (h₀ : (0 : U8) ∉ l)
    (hhead : ∀ c ∈ l.head?, isFlag c = false)
    (hk : ∀ flags' w l' va', (0 : U8) ∉ l' → l'.length ≤ l.length → va' ⊆ va →
      flags'.longLong = flags.longLong →
      FaultsAs bad (k (flags', w, l' ++ [0], va')) va'.length (reads .afterWidth l')) :
    FaultsAs bad (readWidth flags (l ++ [0]) va >>= k) va.length (reads .flags l) := by
  cases l with
  | nil => exact hk flags 0 [] va h₀ le_rfl (List.Subset.refl va) rfl
  | cons c l =>
    have hflag : ¬ isFlag c = true := by
      rw [hhead c rfl]
      decide
    have hrest : (0 : U8) ∉ l := fun h => h₀ (List.mem_cons_of_mem c h)
    rw [List.cons_append, readWidth]
    show FaultsAs bad ((if isDigit c = true then _ else _) >>= k) _ _
    by_cases hdigit : isDigit c = true
    · obtain ⟨w, l', hatoi, h₀', hlen, hwidth, -⟩ := atoi_reads 0 h₀
      have hplace : reads .flags (c :: l) = reads .width (c :: l) := by
        have hnext : FormatPlace.flags.next c = FormatPlace.width.next c := by
          rw [next, if_neg hflag, if_pos hdigit, next, if_pos hdigit]
        have hstar : c ≠ byte '*' := by
          rintro rfl
          revert hdigit
          decide
        exact reads_congr hnext (by simp [takes, hnext, hstar])
      rw [if_pos hdigit, ← List.cons_append, hatoi, hplace, hwidth]
      exact hk flags w l' va h₀' hlen (List.Subset.refl va) rfl
    rw [if_neg hdigit]
    by_cases hstar : c = byte '*'
    · have hplace : reads .flags (c :: l) =
          ((reads .afterWidth l).1, 1 + (reads .afterWidth l).2) := by
        have hnext : FormatPlace.flags.next c = .afterWidth := by
          rw [next, if_neg hflag, if_neg hdigit, if_pos hstar]
        rw [reads, hnext]
        simp [takes, hstar]
      rw [if_pos hstar, hplace, bind_assoc]
      apply vaArg_faults
      rintro a va' rfl
      dsimp only [List.tail_cons]
      split_ifs
      · exact hk _ _ l va' hrest (Nat.le_succ _) (List.subset_cons_self a va') rfl
      · exact hk _ _ l va' hrest (Nat.le_succ _) (List.subset_cons_self a va') rfl
    · have hplace : reads .flags (c :: l) = reads .afterWidth (c :: l) := by
        have hnext : FormatPlace.flags.next c = FormatPlace.afterWidth.next c := by
          rw [next, if_neg hflag, if_neg hdigit, if_neg hstar, next]
        exact reads_congr hnext (by simp [takes, hnext, hstar])
      rw [if_neg hstar, hplace]
      exact hk flags 0 (c :: l) va h₀ le_rfl (List.Subset.refl va) rfl

theorem readPrecision_faults
    {k : PrintfFlags × U32 × List U8 × List U64 → Except PrintfFault α} (h₀ : (0 : U8) ∉ l)
    (hk : ∀ flags' w l' va', (0 : U8) ∉ l' → l'.length ≤ l.length → va' ⊆ va →
      flags'.longLong = flags.longLong →
      FaultsAs bad (k (flags', w, l' ++ [0], va')) va'.length (reads .afterPrecision l')) :
    FaultsAs bad (readPrecision flags (l ++ [0]) va >>= k) va.length (reads .afterWidth l) := by
  cases l with
  | nil => exact hk flags 0 [] va h₀ le_rfl (List.Subset.refl va) rfl
  | cons c l =>
    have hrest : (0 : U8) ∉ l := fun h => h₀ (List.mem_cons_of_mem c h)
    rw [List.cons_append, readPrecision]
    show FaultsAs bad ((if c = byte '.' then _ else _) >>= k) _ _
    by_cases hdot : c = byte '.'
    · have hplace : reads .afterWidth (c :: l) = reads .dot l := by
        have hnext : FormatPlace.afterWidth.next c = .dot := by rw [next, ofDot, if_pos hdot]
        rw [reads, takes, hnext]
        simp
      rw [if_pos hdot, hplace]
      dsimp only [List.tail_cons]
      cases l with
      | nil => exact hk _ 0 [] va hrest (Nat.zero_le _) (List.Subset.refl va) rfl
      | cons c' l =>
        have hrest' : (0 : U8) ∉ l := fun h => hrest (List.mem_cons_of_mem c' h)
        show FaultsAs bad ((if isDigit c' = true then _ else _) >>= k) _ _
        by_cases hdigit : isDigit c' = true
        · obtain ⟨w, l', hatoi, h₀', hlen, -, hprec⟩ := atoi_reads 0 hrest
          have hplace' : reads .dot (c' :: l) = reads .precision (c' :: l) := by
            have hnext : FormatPlace.dot.next c' = FormatPlace.precision.next c' := by
              rw [next, if_pos hdigit, next, if_pos hdigit]
            have hstar : c' ≠ byte '*' := by
              rintro rfl
              revert hdigit
              decide
            exact reads_congr hnext (by simp [takes, hnext, hstar])
          rw [if_pos hdigit, hatoi, hplace', hprec]
          exact hk _ w l' va h₀' (hlen.trans (Nat.le_succ _)) (List.Subset.refl va) rfl
        rw [if_neg hdigit]
        by_cases hstar : c' = byte '*'
        · have hplace' : reads .dot (c' :: l) =
              ((reads .afterPrecision l).1, 1 + (reads .afterPrecision l).2) := by
            have hnext : FormatPlace.dot.next c' = .afterPrecision := by
              rw [next, if_neg hdigit, if_pos hstar]
            rw [reads, hnext]
            simp [takes, hstar]
          rw [if_pos hstar, hplace', bind_assoc]
          apply vaArg_faults
          rintro a va' rfl
          exact hk _ _ l va' hrest' (by simp only [List.length_cons]; omega)
            (List.subset_cons_self a va') rfl
        · have hplace' : reads .dot (c' :: l) = reads .afterPrecision (c' :: l) := by
            have hnext : FormatPlace.dot.next c' = FormatPlace.afterPrecision.next c' := by
              rw [next, if_neg hdigit, if_neg hstar, next]
            exact reads_congr hnext (by simp [takes, hnext, hstar])
          rw [if_neg hstar, hplace']
          exact hk _ 0 (c' :: l) va hrest (Nat.le_succ _) (List.Subset.refl va) rfl
    · have hplace : reads .afterWidth (c :: l) = reads .afterPrecision (c :: l) := by
        have hnext : FormatPlace.afterWidth.next c = FormatPlace.afterPrecision.next c := by
          rw [next, ofDot, if_neg hdot, next]
        exact reads_congr hnext (by simp [takes, hnext])
      rw [if_neg hdot, hplace]
      exact hk flags 0 (c :: l) va h₀ le_rfl (List.Subset.refl va) rfl

/-! ### Length and specifier -/

/-- Behind a length the format is at its specifier. -/
theorem readLength_faults {k : PrintfFlags × List U8 → Except PrintfFault α}
    (h₀ : (0 : U8) ∉ l) (hlong : flags.longLong = false)
    (hk : ∀ flags' l' place, (0 : U8) ∉ l' → l'.length ≤ l.length →
      (place = .specifier ∧ flags'.longLong = false ∨
        place = .longLong ∧ flags'.longLong = true) →
      FaultsAs bad (k (flags', l' ++ [0])) n (reads place l')) :
    FaultsAs bad (readLength flags (l ++ [0]) >>= k) n (reads .afterPrecision l) := by
  cases l with
  | nil => exact hk flags [] .specifier h₀ le_rfl (.inl ⟨rfl, hlong⟩)
  | cons c l =>
    have hrest : (0 : U8) ∉ l := fun h => h₀ (List.mem_cons_of_mem c h)
    rw [List.cons_append, readLength]
    show FaultsAs bad ((if c = byte 'l' then _ else _) >>= k) _ _
    by_cases hl : c = byte 'l'
    · have hnext : FormatPlace.afterPrecision.next c = .long := by rw [next, ofLength, if_pos hl]
      rw [if_pos hl, reads_go hnext (by decide) (by decide)]
      dsimp only [List.tail_cons]
      cases l with
      | nil => exact hk _ [] .specifier hrest (Nat.zero_le _) (.inl ⟨rfl, hlong⟩)
      | cons c' l =>
        have hrest' : (0 : U8) ∉ l := fun h => hrest (List.mem_cons_of_mem c' h)
        show FaultsAs bad ((if c' = byte 'l' then _ else _) >>= k) _ _
        by_cases hl' : c' = byte 'l'
        · have hnext' : FormatPlace.long.next c' = .longLong := by rw [next, if_pos hl']
          rw [if_pos hl', reads_go hnext' (by decide) (by decide)]
          exact hk _ l .longLong hrest' (by simp only [List.length_cons]; omega) (.inr ⟨rfl, rfl⟩)
        · have hnext' : FormatPlace.long.next c' = FormatPlace.specifier.next c' := by
            rw [next, if_neg hl', next]
          rw [if_neg hl', reads_congr hnext' (by simp [takes, hnext'])]
          exact hk _ (c' :: l) .specifier hrest (Nat.le_succ _) (.inl ⟨rfl, hlong⟩)
    rw [if_neg hl]
    by_cases hh : c = byte 'h'
    · have hnext : FormatPlace.afterPrecision.next c = .short := by
        rw [next, ofLength, if_neg hl, if_pos hh]
      rw [if_pos hh, reads_go hnext (by decide) (by decide)]
      dsimp only [List.tail_cons]
      cases l with
      | nil => exact hk _ [] .specifier hrest (Nat.zero_le _) (.inl ⟨rfl, hlong⟩)
      | cons c' l =>
        have hrest' : (0 : U8) ∉ l := fun h => hrest (List.mem_cons_of_mem c' h)
        show FaultsAs bad ((if c' = byte 'h' then _ else _) >>= k) _ _
        by_cases hh' : c' = byte 'h'
        · have hnext' : FormatPlace.short.next c' = .specifier := by rw [next, if_pos hh']
          rw [if_pos hh', reads_go hnext' (by decide) (by decide)]
          exact hk _ l .specifier hrest' (by simp only [List.length_cons]; omega)
            (.inl ⟨rfl, hlong⟩)
        · have hnext' : FormatPlace.short.next c' = FormatPlace.specifier.next c' := by
            rw [next, if_neg hh', next]
          rw [if_neg hh', reads_congr hnext' (by simp [takes, hnext'])]
          exact hk _ (c' :: l) .specifier hrest (Nat.le_succ _) (.inl ⟨rfl, hlong⟩)
    rw [if_neg hh]
    by_cases ht : c = byte 't' ∨ c = byte 'j' ∨ c = byte 'z'
    · have hnext : FormatPlace.afterPrecision.next c = .specifier := by
        rw [next, ofLength, if_neg hl, if_neg hh, if_pos ht]
      rw [if_pos ht, reads_go hnext (by decide) (by decide)]
      exact hk _ l .specifier hrest (Nat.le_succ _) (.inl ⟨rfl, hlong⟩)
    · have hnext : FormatPlace.afterPrecision.next c = FormatPlace.specifier.next c := by
        rw [next, ofLength, if_neg hl, if_neg hh, if_neg ht, next]
      rw [if_neg ht, reads_congr hnext (by simp [takes, hnext])]
      exact hk flags (c :: l) .specifier h₀ le_rfl (.inl ⟨rfl, hlong⟩)

theorem readDirective_faults
    {k : Directive × List U8 × List U64 → Except PrintfFault α} (h₀ : (0 : U8) ∉ l)
    (hk : ∀ d l' va' place, (0 : U8) ∉ l' → l'.length ≤ l.length → va' ⊆ va →
      (place = .specifier ∧ d.flags.longLong = false ∨
        place = .longLong ∧ d.flags.longLong = true) →
      FaultsAs bad (k (d, l' ++ [0], va')) va'.length (reads place l')) :
    FaultsAs bad (readDirective (l ++ [0]) va >>= k) va.length (reads .flags l) := by
  unfold readDirective
  rw [bind_assoc]
  apply readFlags_faults h₀
  intro flags₁ l₁ h₁ hlen₁ hhead hlong₁
  dsimp only
  rw [bind_assoc]
  apply readWidth_faults h₁ hhead
  intro flags₂ width l₂ va₂ h₂ hlen₂ hva₂ hlong₂
  dsimp only
  rw [bind_assoc]
  apply readPrecision_faults h₂
  intro flags₃ precision l₃ va₃ h₃ hlen₃ hva₃ hlong₃
  dsimp only
  rw [bind_assoc]
  apply readLength_faults h₃ (hlong₃.trans (hlong₂.trans hlong₁))
  intro flags₄ l₄ place h₄ hlen₄ hplace
  exact hk ⟨flags₄, width, precision⟩ l₄ va₃ place h₄
    (hlen₄.trans (hlen₃.trans (hlen₂.trans hlen₁))) (List.Subset.trans hva₃ hva₂) hplace

/-! ### Strings -/

theorem strnlenS_ok {p : List U8} (maxsize : ℕ) :
    (∃ m, strnlenS p maxsize = .ok m) ∨ strnlenS p maxsize = .error .string ∧ (0 : U8) ∉ p := by
  induction p generalizing maxsize with
  | nil => exact .inr ⟨rfl, List.not_mem_nil⟩
  | cons c p ih =>
    unfold strnlenS
    by_cases hc : c = 0
    · exact .inl ⟨0, by rw [if_pos hc]⟩
    rw [if_neg hc]
    cases maxsize with
    | zero => exact .inl ⟨0, rfl⟩
    | succ m =>
      rcases ih m with ⟨m', hm'⟩ | ⟨hm', h₀⟩
      · exact .inl ⟨m' + 1, by simp only [hm', ok_bind]⟩
      · refine .inr ⟨by simp only [hm', error_bind], ?_⟩
        rw [List.mem_cons, not_or]
        exact ⟨Ne.symm hc, h₀⟩

theorem stringText_ok {p : List U8} (limit : Option ℕ) :
    (∃ text, stringText p limit = .ok text) ∨
      stringText p limit = .error .string ∧ (0 : U8) ∉ p := by
  induction p generalizing limit with
  | nil => exact .inr ⟨rfl, List.not_mem_nil⟩
  | cons c p ih =>
    unfold stringText
    by_cases hc : c = 0
    · exact .inl ⟨[], by rw [if_pos hc]⟩
    rw [if_neg hc]
    have hcons : ∀ limit', (∃ text, (stringText p limit').map (c :: ·) = .ok text) ∨
        (stringText p limit').map (c :: ·) = .error .string ∧ (0 : U8) ∉ c :: p := by
      intro limit'
      rcases ih limit' with ⟨text, htext⟩ | ⟨htext, h₀⟩
      · exact .inl ⟨c :: text, by rw [htext]; rfl⟩
      · refine .inr ⟨by rw [htext]; rfl, ?_⟩
        rw [List.mem_cons, not_or]
        exact ⟨Ne.symm hc, h₀⟩
    rcases limit with _ | _ | m
    · exact hcons none
    · exact .inl ⟨[], rfl⟩
    · exact hcons (some m)

theorem specifierText_faults {d : Directive} {k : List U8 × List U64 → Except PrintfFault α}
    {r : Bool × ℕ} (hbad : ∀ a ∈ va, (0 : U8) ∉ strings a → bad)
    (hk : ∀ field va', va' ⊆ va → FaultsAs bad (k (field, va')) va'.length r) :
    FaultsAs bad (specifierText strings c d va >>= k) va.length
      (r.1, specifierArgs d.flags.longLong c + r.2) := by
  have hnone : ∀ field, FaultsAs bad (k (field, va)) va.length (r.1, 0 + r.2) := by
    intro field
    rw [Nat.zero_add]
    exact hk field va (List.Subset.refl va)
  unfold specifierText specifierArgs
  by_cases hint : isInteger c = true
  · rw [if_pos hint, if_pos hint]
    dsimp only
    rw [integerFormat_longLong]
    by_cases hll : d.flags.longLong = true
    · rw [if_pos hll, if_pos hll]
      exact hnone []
    · rw [if_neg hll, if_neg hll, bind_assoc]
      apply vaArg_faults
      rintro a va' rfl
      exact hk _ va' (List.subset_cons_self a va')
  rw [if_neg hint, if_neg hint]
  by_cases hchar : c = byte 'c'
  · have hargs : c = byte 'c' ∨ c = byte 's' ∨ c = byte 'p' := .inl hchar
    rw [if_pos hchar, if_pos hargs, bind_assoc]
    apply vaArg_faults
    rintro a va' rfl
    exact hk _ va' (List.subset_cons_self a va')
  rw [if_neg hchar]
  by_cases hstring : c = byte 's'
  · have hargs : c = byte 'c' ∨ c = byte 's' ∨ c = byte 'p' := .inr (.inl hstring)
    rw [if_pos hstring, if_pos hargs, bind_assoc]
    apply vaArg_faults
    rintro a va' rfl
    dsimp only
    rcases strnlenS_ok (p := strings a)
      (if d.precision ≠ 0 then d.precision.toNat else 2 ^ 64 - 1) with ⟨m, hm⟩ | ⟨hm, h₀⟩
    · rw [hm, ok_bind]
      rcases stringText_ok (p := strings a)
        (if d.flags.precision then some d.precision.toNat else none) with
        ⟨text, htext⟩ | ⟨htext, h₀⟩
      · rw [htext]
        exact hk _ va' (List.subset_cons_self a va')
      · rw [htext]
        exact .inr ⟨rfl, hbad a List.mem_cons_self h₀⟩
    · rw [hm]
      exact .inr ⟨rfl, hbad a List.mem_cons_self h₀⟩
  rw [if_neg hstring]
  by_cases hpointer : c = byte 'p'
  · have hargs : c = byte 'c' ∨ c = byte 's' ∨ c = byte 'p' := .inr (.inr hpointer)
    rw [if_pos hpointer, if_pos hargs, bind_assoc]
    apply vaArg_faults
    rintro a va' rfl
    exact hk _ va' (List.subset_cons_self a va')
  · have hargs : ¬ (c = byte 'c' ∨ c = byte 's' ∨ c = byte 'p') := by tauto
    rw [if_neg hpointer, if_neg hargs]
    exact hnone [c]

/-! ### The whole format -/

theorem FaultsAs.map {x : Except PrintfFault α} {r : Bool × ℕ} {β : Type} (f : α → β)
    (h : FaultsAs bad x n r) : FaultsAs bad (x >>= fun a => .ok (f a)) n r := by
  cases x with
  | error e => exact h
  | ok a => exact h

theorem formatText_faults {m : ℕ} (h₀ : (0 : U8) ∉ l) (hm : l.length < m)
    (hbad : ∀ a ∈ va, (0 : U8) ∉ strings a → bad) :
    FaultsAs bad (formatText strings m (l ++ [0]) va) va.length (reads .text l) := by
  induction m generalizing l va with
  | zero => exact absurd hm (Nat.not_lt_zero _)
  | succ m ih =>
    cases l with
    | nil => exact .inl rfl
    | cons c l =>
      have hrest : (0 : U8) ∉ l := fun h => h₀ (List.mem_cons_of_mem c h)
      have hlen : l.length < m := by
        rw [List.length_cons] at hm
        omega
      have hc₀ : c ≠ 0 := fun h => h₀ (by rw [h]; exact List.mem_cons_self)
      rw [List.cons_append, formatText]
      show FaultsAs bad (if c = 0 then _ else _) _ _
      rw [if_neg hc₀]
      by_cases hc : c ≠ byte '%'
      · have hplace : reads .text (c :: l) = reads .text l := by
          have hnext : FormatPlace.text.next c = .text := by rw [next, if_neg hc]
          rw [reads, hnext, takes, if_pos rfl, Nat.zero_add]
        rw [if_pos hc, hplace]
        exact (ih hrest hlen hbad).map (c :: ·)
      · have hplace : reads .text (c :: l) = reads .flags l := by
          have hnext : FormatPlace.text.next c = .flags := by rw [next, if_pos (not_not.mp hc)]
          rw [reads, hnext, takes, if_pos rfl, Nat.zero_add]
        rw [if_neg hc, hplace]
        apply readDirective_faults hrest
        intro d l' va' place h₀' hlen' hva hlong
        dsimp only
        cases l' with
        | nil =>
          -- the end of the format is taken for the specifier
          have hspec : specifierText strings 0 d va' = .ok ([0], va') := rfl
          have hbehind : formatText strings m [] va' = .error .format := by cases m <;> rfl
          have hplace' : reads place [] = (false, 0) := by
            rcases hlong with ⟨rfl, -⟩ | ⟨rfl, -⟩ <;> rfl
          rw [hplace']
          rw [List.nil_append, show atFormat [0] = .ok 0 from rfl, ok_bind, hspec, ok_bind]
          dsimp only [List.tail_cons]
          rw [hbehind]
          exact .inl rfl
        | cons c' l' =>
          have hplace' : reads place (c' :: l') = ((reads .text l').1,
              specifierArgs d.flags.longLong c' + (reads .text l').2) := by
            rcases hlong with ⟨rfl, hlong⟩ | ⟨rfl, hlong⟩
            · rw [hlong]
              rfl
            · rw [hlong]
              rfl
          rw [hplace']
          show FaultsAs bad (specifierText strings c' d va' >>= _) _ _
          apply specifierText_faults fun a ha => hbad a (hva ha)
          intro field va'' hva'
          have hlen'' : l'.length < m := by
            rw [List.length_cons] at hlen'
            omega
          exact (ih (fun h => h₀' (List.mem_cons_of_mem c' h)) hlen''
            fun a ha => hbad a (hva (hva' ha))).map (field ++ ·)

/-- **What a call reads.**  For a format without a `'\0'` inside, `reads` tells how every call ends
that has strings with an end: for want of an argument, when there are fewer than the format takes;
else by reading behind the format, exactly when it ends inside a directive; else with a result. -/
theorem printf_reads_inside {σ : Type} (out : Out σ) (null : Bool) (s : σ) (maxlen : ℕ)
    (strings : U64 → List U8) (va : List U64) (h₀ : (0 : U8) ∉ l) :
    FaultsAs (∃ a ∈ va, (0 : U8) ∉ strings a)
      (vsnprintfBody out null s maxlen strings (l ++ [0]) va) va.length (reads .text l) := by
  have hlen : l.length < (l ++ [0]).length := by
    rw [List.length_append, List.length_singleton]
    omega
  have h : FaultsAs (∃ a ∈ va, (0 : U8) ∉ strings a)
      (formatText strings (l ++ [0]).length (l ++ [0]) va) va.length (reads .text l) :=
    formatText_faults h₀ hlen fun a ha hend => ⟨a, ha, hend⟩
  rw [vsnprintfBody_eq, printedText]
  cases hx : formatText strings (l ++ [0]).length (l ++ [0]) va with
  | error e =>
    rw [hx] at h
    exact h
  | ok text =>
    rw [hx] at h
    exact h

/-- The last `%` of `100%` makes the call read behind the format. -/
theorem printf_reads_inside_percent :
    FaultsAs (∃ a ∈ ([] : List U64), (0 : U8) ∉ ([] : List U8))
      (vsnprintfBody (outChar fun c s => s ++ [c]) false [] 0 (fun _ => [])
        ("100%".toList.map byte ++ [0]) []) 0 (false, 0) :=
  printf_reads_inside (l := "100%".toList.map byte) (outChar fun c s => s ++ [c]) false [] 0
    (fun _ => []) [] (by decide)

end Reads

end RealtimeKernel
