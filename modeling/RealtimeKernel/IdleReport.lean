import RealtimeKernel.SystemClock

/-!
# `idle.c`: the share of time that is not idle

The idle task adds up the time between leaving and entering its standby and prints, every
`REPORT_PERIOD` rounds, what part of the time since the last report that is.  The time is read
up to three times in a round; `count i` is what the `i`th call of `sys_timer_full_count`
returns.
-/

namespace RealtimeKernel

open Lib

abbrev reportPeriod : ℤ := 50

/-- The variables of `idle.c`, and how often the time has been read. -/
structure Idle where
  executionTime : U64
  enterTime : U64
  lastExitTime : U64
  beginTime : U64
  idleCount : ℤ
  reads : ℕ

/-- What a report is computed from. -/
structure IdleReport where
  idleCount : ℤ
  executionTime : U64
  enterTime : U64
  beginTime : U64
  deriving DecidableEq

/-- `(enter_time - begin_time) / 100` -/
def IdleReport.divisor (r : IdleReport) : U64 := (r.enterTime - r.beginTime) / 100

/-- The quotient, printed as an `int`. -/
def IdleReport.printed (r : IdleReport) : ℤ := toInt32 (r.executionTime / r.divisor)

/-- `idle_setup`; the other variables still have their initial values. -/
def idleSetup (clocks : Clocks) : Idle where
  executionTime := 0
  enterTime := 0
  lastExitTime := (clocks.sysClocks 1).bootTime
  beginTime := (clocks.sysClocks 1).bootTime
  idleCount := 0
  reads := 0

def idleAfterEnter (count : ℕ → U64) (s : Idle) : List IdleReport × Idle :=
  let enterTime := count s.reads
  let executionTime := s.executionTime + (enterTime - s.lastExitTime)
  let s := { s with
    enterTime := enterTime, executionTime := executionTime, reads := s.reads + 1 }
  if s.idleCount.tmod reportPeriod = 0 then
    ([⟨s.idleCount, executionTime, enterTime, s.beginTime⟩],
      { s with
        executionTime := 0
        beginTime := count s.reads
        reads := s.reads + 1
        idleCount := s.idleCount + 1 })
  else ([], { s with idleCount := s.idleCount + 1 })

def idleBeforeExit (count : ℕ → U64) (s : Idle) : Idle :=
  { s with lastExitTime := count s.reads, reads := s.reads + 1 }

/-- The reports and the variables after `n` rounds of `idle`. -/
def idle (clocks : Clocks) (count : ℕ → U64) : ℕ → List IdleReport × Idle
  | 0 => ([], idleSetup clocks)
  | n + 1 =>
    let (reports, s) := idle clocks count n
    let (report, s) := idleAfterEnter count s
    (reports ++ report, idleBeforeExit count s)

/-! ### The time accounted for -/

/-- The readings do not decrease, from the boot time on. -/
structure Nondecreasing (clocks : Clocks) (count : ℕ → U64) : Prop where
  boot : (clocks.sysClocks 1).bootTime ≤ count 0
  step : ∀ i, count i ≤ count (i + 1)

/-- Between two rounds, what has been added up lies within the current period. -/
structure Idle.Within (count : ℕ → U64) (s : Idle) : Prop where
  added : s.beginTime.toNat + s.executionTime.toNat ≤ s.lastExitTime.toNat
  next : s.lastExitTime ≤ count s.reads

/-- The time since the last exit ends up in the sum. -/
theorem Idle.Within.sum {count : ℕ → U64} {s : Idle} (h : s.Within count) :
    s.beginTime.toNat + (s.executionTime + (count s.reads - s.lastExitTime)).toNat ≤
      (count s.reads).toNat := by
  have hadded := h.added
  have hnext := BitVec.le_def.mp h.next
  have hlt := (count s.reads).isLt
  rw [BitVec.toNat_add, BitVec.toNat_sub_of_le h.next]
  omega

/-- A report is computed from a sum that lies within its period. -/
def IdleReport.Within (r : IdleReport) : Prop :=
  r.beginTime.toNat + r.executionTime.toNat ≤ r.enterTime.toNat

theorem idleAfterEnter_within {clocks : Clocks} {count : ℕ → U64} {s : Idle}
    (hc : Nondecreasing clocks count) (h : s.Within count) :
    (∀ r ∈ (idleAfterEnter count s).1, r.Within) ∧
      (idleBeforeExit count (idleAfterEnter count s).2).Within count := by
  have hsum := h.sum
  unfold idleAfterEnter
  dsimp only
  split
  · -- a report starts a new period with a reading of its own
    refine ⟨fun r hr => ?_, ?_, hc.step _⟩
    · rw [List.mem_singleton.mp hr]
      exact hsum
    · have hstep := BitVec.le_def.mp (hc.step (s.reads + 1))
      simpa [idleBeforeExit] using hstep
  · refine ⟨by simp, ?_, hc.step _⟩
    have hstep := BitVec.le_def.mp (hc.step s.reads)
    exact hsum.trans hstep

theorem idle_within {clocks : Clocks} {count : ℕ → U64} (hc : Nondecreasing clocks count)
    (n : ℕ) : (∀ r ∈ (idle clocks count n).1, r.Within) ∧ (idle clocks count n).2.Within count := by
  induction n with
  | zero => exact ⟨by simp [idle], le_refl _, hc.boot⟩
  | succ n ih =>
    obtain ⟨hreports, hs⟩ := ih
    obtain ⟨hnew, hnext⟩ := idleAfterEnter_within hc hs
    refine ⟨fun r hr => ?_, hnext⟩
    rcases List.mem_append.mp hr with hr | hr
    · exact hreports r hr
    · exact hnew r hr

/-! ### The printed percentage -/

/-- Rounding the period down to whole hundredths does not make the quotient greater than 100,
once there are a hundred of them. -/
theorem div_hundredth_le {e s : ℕ} (hes : e ≤ s) (hs : 10000 ≤ s) : e / (s / 100) ≤ 100 := by
  have hpos : 0 < s / 100 := by omega
  rw [← Nat.lt_succ_iff, Nat.div_lt_iff_lt_mul hpos]
  omega

theorem IdleReport.Within.le {r : IdleReport} (h : r.Within) :
    r.executionTime ≤ r.enterTime - r.beginTime := by
  unfold IdleReport.Within at h
  have hle : r.beginTime ≤ r.enterTime := BitVec.le_def.mpr (by omega)
  rw [BitVec.le_def, BitVec.toNat_sub_of_le hle]
  omega

theorem IdleReport.Within.printed {r : IdleReport} (h : r.Within)
    (hs : 10000 ≤ (r.enterTime - r.beginTime).toNat) :
    r.divisor ≠ 0 ∧ 0 ≤ r.printed ∧ r.printed ≤ 100 := by
  have hle := BitVec.le_def.mp h.le
  have hdiv : r.divisor.toNat = (r.enterTime - r.beginTime).toNat / 100 := by
    rw [IdleReport.divisor, BitVec.toNat_udiv]
    rfl
  have hq : (r.executionTime / r.divisor).toNat ≤ 100 := by
    rw [BitVec.toNat_udiv, hdiv]
    exact div_hundredth_le hle hs
  have hprinted : r.printed = (r.executionTime / r.divisor).toNat := by
    have hlt : (r.executionTime / r.divisor).toNat < 2 ^ 31 := by omega
    rw [IdleReport.printed, toInt32, BitVec.toInt_setWidth, Int.bmod_def]
    omega
  refine ⟨fun hzero => ?_, by omega, by omega⟩
  rw [hzero] at hdiv
  have hz : (0 : U64).toNat = 0 := rfl
  omega

/-- **The idle report is a percentage.**  At every report the sum is at most the time since the
last one, and once this is a tick or more, the divisor is not zero and the printed number is
between 0 and 100. -/
theorem idle_report_percentage (clocks : Clocks) (count : ℕ → U64)
    (hc : Nondecreasing clocks count) (n : ℕ) :
    ∀ r ∈ (idle clocks count n).1, r.executionTime ≤ r.enterTime - r.beginTime ∧
      (tickTime ≤ (r.enterTime - r.beginTime).toNat →
        r.divisor ≠ 0 ∧ 0 ≤ r.printed ∧ r.printed ≤ 100) := by
  intro r hr
  have h := (idle_within hc n).1 r hr
  refine ⟨h.le, fun hs => h.printed ?_⟩
  unfold tickTime at hs
  exact_mod_cast hs

/-- Readings at equal distances: half of the time is spent outside of the standby. -/
def evenReadings (i : ℕ) : U64 := BitVec.ofNat 64 (5000 * min i 1000)

theorem evenReadings_nondecreasing (clocks : Clocks)
    (hboot : (clocks.sysClocks 1).bootTime = 0) : Nondecreasing clocks evenReadings := by
  have hval : ∀ i, (evenReadings i).toNat = 5000 * min i 1000 := by
    intro i
    rw [evenReadings, BitVec.toNat_ofNat]
    omega
  refine ⟨by rw [hboot]; decide, fun i => ?_⟩
  rw [BitVec.le_def, hval, hval]
  omega

/-- The report of the fifty-first round. -/
theorem idle_report_percentage_run :
    ∃ r ∈ (idle ⟨fun _ => ⟨0, 0, 0, 0⟩, fun _ => 0⟩ evenReadings 51).1,
      r.idleCount = 50 ∧ r.printed = 50 ∧ 0 ≤ r.printed ∧ r.printed ≤ 100 := by
  let r : IdleReport := ⟨50, 250000, 505000, 5000⟩
  have hr : r ∈ (idle ⟨fun _ => ⟨0, 0, 0, 0⟩, fun _ => 0⟩ evenReadings 51).1 := by
    decide +kernel
  have hpercentage := idle_report_percentage _ _ (evenReadings_nondecreasing _ rfl) 51 r hr
  exact ⟨r, hr, rfl, by decide, (hpercentage.2 (by decide)).2⟩

end RealtimeKernel
