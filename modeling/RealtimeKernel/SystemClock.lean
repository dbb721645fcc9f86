import RealtimeKernel.Lib.Counters
import RealtimeKernel.Lib.Runs
import RealtimeKernel.Timer

/-!
# The 64-bit timer and the tick schedule

`sys_timer_full_count` puts a time together from two registers that it reads one after the
other.  A reading is described by the value `v` of the counter when `CHI` is read and by what
the counter advances, `d`, until `CLO` is read.

The schedule of a system clock is kept in 64 bits, while the comparator is compared with `CLO`
alone.  `Ticked` is a run of timer interrupts that are handled late by any amount, with
consistent readings and without a missed tick.
-/

namespace RealtimeKernel

open Lib

/-! ### Reading the counter -/

/-- `CLO` when the counter stands at `v`. -/
def lowWord (v : U64) : U32 := v.setWidth 32

/-- `CHI` when the counter stands at `v`. -/
def highWord (v : U64) : U32 := (v >>> 32).setWidth 32

/-- What `sys_timer_full_count` returns when the counter advances by `d` between the reads. -/
def fullCountFrom (v : U64) (d : U32) : U64 :=
  sysTimerFullCount (highWord v) (lowWord (v + d.setWidth 64))

/-- The counter passed the value `t` while it advanced by `d`. -/
def During (v : U64) (d : U32) (t : U64) : Prop := v ≤ t ∧ t ≤ v + d.setWidth 64

instance (v : U64) (d : U32) (t : U64) : Decidable (During v d t) :=
  inferInstanceAs (Decidable (_ ∧ _))

/-- `CLO` does not wrap around while the counter advances by `d`. -/
def Steady (v : U64) (d : U32) : Prop := (lowWord v).toNat + d.toNat < 2 ^ 32

theorem lowWord_toNat (v : U64) : (lowWord v).toNat = v.toNat % 2 ^ 32 := by
  simp [lowWord]

theorem highWord_toNat (v : U64) : (highWord v).toNat = v.toNat / 2 ^ 32 := by
  have hv := v.isLt
  rw [highWord, BitVec.toNat_setWidth, BitVec.toNat_ushiftRight, Nat.shiftRight_eq_div_pow]
  apply Nat.mod_eq_of_lt
  omega

theorem sysTimerFullCount_toNat (chi clo : U32) :
    (sysTimerFullCount chi clo).toNat = chi.toNat * 2 ^ 32 + clo.toNat := by
  have hchi := chi.isLt
  have hclo := clo.isLt
  simp only [sysTimerFullCount, BitVec.toNat_add, BitVec.toNat_shiftLeft, BitVec.toNat_setWidth,
    Nat.shiftLeft_eq]
  omega

theorem fullCountFrom_toNat (v : U64) (d : U32) :
    (fullCountFrom v d).toNat = twoReads (2 ^ 32) v.toNat (v.toNat + d.toNat) := by
  have hd := d.isLt
  rw [fullCountFrom, sysTimerFullCount_toNat, highWord_toNat, lowWord_toNat, BitVec.toNat_add,
    BitVec.toNat_setWidth, twoReads]
  omega

/-- Both reads at one moment show that moment. -/
theorem sysTimerFullCount_same (v : U64) : sysTimerFullCount (highWord v) (lowWord v) = v := by
  apply BitVec.eq_of_toNat_eq
  rw [sysTimerFullCount_toNat, highWord_toNat, lowWord_toNat]
  exact Nat.div_add_mod' v.toNat (2 ^ 32)

theorem steady_iff (v : U64) (d : U32) :
    Steady v d ↔ NoCarry (2 ^ 32) v.toNat (v.toNat + d.toNat) := by
  rw [noCarry_iff (Nat.le_add_right _ _) (by norm_num), Steady, lowWord_toNat,
    Nat.add_sub_cancel_left]

theorem Steady.fullCountFrom_eq {v : U64} {d : U32} (h : Steady v d) :
    fullCountFrom v d = v + d.setWidth 64 := by
  apply BitVec.eq_of_toNat_eq
  have hlt : v.toNat + d.toNat < 2 ^ 64 := by
    have hv := v.isLt
    unfold Steady at h
    rw [lowWord_toNat] at h
    omega
  rw [fullCountFrom_toNat, twoReads_eq ((steady_iff v d).mp h), BitVec.toNat_add,
    BitVec.toNat_setWidth, Nat.mod_eq_of_lt (show d.toNat < 2 ^ 64 by omega), Nat.mod_eq_of_lt hlt]

/-- **A reading is a time that the counter had during the call** just when `CLO` does not wrap
around between the two reads. -/
theorem during_fullCountFrom_iff (v : U64) (d : U32) :
    During v d (fullCountFrom v d) ↔ Steady v d := by
  constructor
  · rintro ⟨hle, -⟩
    rw [steady_iff]
    by_contra hc
    have hcarry := twoReads_carry (Nat.le_add_right _ _) (by have := d.isLt; omega) hc
    rw [BitVec.le_def, fullCountFrom_toNat] at hle
    have := d.isLt
    omega
  · intro h
    have hv := v.isLt
    rw [h.fullCountFrom_eq]
    unfold Steady at h
    rw [lowWord_toNat] at h
    refine ⟨?_, BitVec.le_refl _⟩
    rw [BitVec.le_def, BitVec.toNat_add, BitVec.toNat_setWidth]
    omega

/-- **The readings of the timer.**  A reading, the boot time that `sys_clock_init` takes from
one and the time that `sys_clock_notify_tick` compares with the schedule are times that the
counter had during the call, and readings one after the other do not decrease, just as long as
`CLO` does not wrap around between the two reads. -/
theorem timer_reading_consistent_iff (v : U64) (d : U32) :
    (During v d (fullCountFrom v d) ↔ Steady v d) ∧
    (∀ cs clockId interval,
      During v d ((sysClockInit cs clockId interval (highWord v)
        (lowWord (v + d.setWidth 64))).sysClocks clockId).bootTime ↔ Steady v d) ∧
    (∀ cs clockId,
      (∃ cs', sysClockNotifyTick cs clockId (highWord v) (lowWord (v + d.setWidth 64)) = .ok cs') ↔
        fullCountFrom v d <
          (cs.sysClocks clockId).nextTickTime + ofInt (cs.sysClocks clockId).interval) ∧
    (∀ v' d', Steady v d → Steady v' d' → v + d.setWidth 64 ≤ v' →
      fullCountFrom v d ≤ fullCountFrom v' d') := by
  refine ⟨during_fullCountFrom_iff v d, fun cs clockId interval => ?_, fun cs clockId => ?_,
    fun v' d' h h' hle => ?_⟩
  · have hboot : ((sysClockInit cs clockId interval (highWord v)
        (lowWord (v + d.setWidth 64))).sysClocks clockId).bootTime = fullCountFrom v d := by
      simp [sysClockInit, sysTimerSetComparator, fullCountFrom]
    rw [hboot]
    exact during_fullCountFrom_iff v d
  · unfold sysClockNotifyTick
    dsimp only
    constructor
    · rintro ⟨cs', h⟩
      split at h
      · assumption
      · cases h
    · intro h
      exact ⟨_, if_pos h⟩
  · rw [h.fullCountFrom_eq]
    exact BitVec.le_trans hle ((during_fullCountFrom_iff v' d').mpr h').1

/-- `CHI` is read as 0 just before `CLO` wraps around: the reading is 0. -/
theorem timer_reading_torn : ¬ During 0xFFFFFFFF 1 (fullCountFrom 0xFFFFFFFF 1) := by decide

/-! ### The tick schedule -/

/-- Timer interrupts of a clock that were handled one after the other: at the check in
`sys_clock_notify_tick` the counter has reached the match time and is read consistently, and
the tick is not missed.  The list has the value of the counter at each check. -/
inductive Ticked (clockId : Fin 4) (cs₀ : Clocks) : List U64 → Clocks → Prop
  | nil : Ticked clockId cs₀ [] cs₀
  | snoc {ts : List U64} {cs cs' : Clocks} {t : U64} :
      Ticked clockId cs₀ ts cs → (cs.sysClocks clockId).nextTickTime ≤ t →
      sysClockNotifyTick cs clockId (highWord t) (lowWord t) = .ok cs' →
      Ticked clockId cs₀ (ts ++ [t]) cs'

/-- A counter that stands at `w` meets the comparator for the first time at `t`. -/
def MatchesAt (comparator : U32) (w t : U64) : Prop :=
  lowWord t = comparator ∧
    ∀ k < (t - w).toNat, lowWord (w + BitVec.ofNat 64 k) ≠ comparator

/-- A clock with the boot time and the interval after `n` ticks. -/
structure Scheduled (clockId : Fin 4) (bootTime : U64) (interval : ℤ) (n : ℕ) (cs : Clocks) :
    Prop where
  period : (cs.sysClocks clockId).interval = interval
  next : (cs.sysClocks clockId).nextTickTime = bootTime + ofInt ((n + 1) * interval)
  count : (cs.sysClocks clockId).tickCount = n
  comparator : cs.comparator clockId = lowWord (cs.sysClocks clockId).nextTickTime

variable {clockId : Fin 4} {cs cs' : Clocks} {interval : ℤ} {b t : U64} {n : ℕ}

theorem scheduled_init (cs : Clocks) (clockId : Fin 4) (interval : ℤ) (b : U64) :
    Scheduled clockId b interval 0
      (sysClockInit cs clockId interval (highWord b) (lowWord b)) := by
  constructor
  · simp [sysClockInit, sysTimerSetComparator]
  · simp [sysClockInit, sysTimerSetComparator, sysTimerFullCount_same]
  · simp [sysClockInit, sysTimerSetComparator]
  · simp [sysClockInit, sysTimerSetComparator, lowWord]

/-- What a tick that is not missed leaves. -/
theorem sysClockNotifyTick_eq_ok {chi clo : U32}
    (h : sysClockNotifyTick cs clockId chi clo = .ok cs') :
    (cs'.sysClocks clockId).bootTime = (cs.sysClocks clockId).bootTime ∧
      (cs'.sysClocks clockId).interval = (cs.sysClocks clockId).interval ∧
      (cs'.sysClocks clockId).tickCount = (cs.sysClocks clockId).tickCount + 1 ∧
      (cs'.sysClocks clockId).nextTickTime =
        (cs.sysClocks clockId).nextTickTime + ofInt (cs.sysClocks clockId).interval ∧
      cs'.comparator clockId = lowWord (cs'.sysClocks clockId).nextTickTime ∧
      sysTimerFullCount chi clo < (cs'.sysClocks clockId).nextTickTime := by
  unfold sysClockNotifyTick at h
  dsimp only at h
  split at h
  · rename_i hlt
    cases h
    refine ⟨?_, ?_, ?_, ?_, ?_, ?_⟩
    · simp [sysTimerSetComparator]
    · simp [sysTimerSetComparator]
    · simp [sysTimerSetComparator]
    · simp [sysTimerSetComparator]
    · simp [sysTimerSetComparator, lowWord]
    · simpa [sysTimerSetComparator] using hlt
  · cases h

/-- One tick. -/
theorem Scheduled.tick (h : Scheduled clockId b interval n cs) {chi clo : U32}
    (htick : sysClockNotifyTick cs clockId chi clo = .ok cs') :
    Scheduled clockId b interval (n + 1) cs' := by
  obtain ⟨-, hint, hcount, hnext, hcomp, -⟩ := sysClockNotifyTick_eq_ok htick
  refine ⟨hint.trans h.period, ?_, ?_, hcomp⟩
  · rw [hnext, h.next, h.period, BitVec.add_assoc]
    congr 1
    unfold ofInt
    rw [← BitVec.ofInt_add]
    congr 1
    push_cast
    ring
  · rw [hcount, h.count]
    push_cast
    rfl

theorem Ticked.scheduled {ts : List U64}
    (r : Ticked clockId (sysClockInit cs clockId interval (highWord b) (lowWord b)) ts cs') :
    Scheduled clockId b interval ts.length cs' := by
  induction r with
  | nil => exact scheduled_init cs clockId interval b
  | snoc r _ htick ih =>
    rw [List.length_append]
    exact ih.tick htick

theorem Ticked.bootTime {ts : List U64}
    (r : Ticked clockId (sysClockInit cs clockId interval (highWord b) (lowWord b)) ts cs') :
    (cs'.sysClocks clockId).bootTime = b := by
  induction r with
  | nil => simp [sysClockInit, sysTimerSetComparator, sysTimerFullCount_same]
  | snoc _ _ htick ih => exact (sysClockNotifyTick_eq_ok htick).1.trans ih

/-- A time less than one turn of `CLO` ahead is the first to match its low word. -/
theorem matchesAt_of_lt {w t : U64} (h : w ≤ t) (hlt : t.toNat < w.toNat + 2 ^ 32) :
    MatchesAt (lowWord t) w t := by
  refine ⟨rfl, fun k hk heq => ?_⟩
  have hle := BitVec.le_def.mp h
  have ht := t.isLt
  have hsub : (t - w).toNat = t.toNat - w.toNat := BitVec.toNat_sub_of_le h
  have hmod := congrArg BitVec.toNat heq
  rw [lowWord_toNat, lowWord_toNat, BitVec.toNat_add, BitVec.toNat_ofNat] at hmod
  rw [hsub] at hk
  have hw : (w.toNat + k % 2 ^ 64) % 2 ^ 64 = w.toNat + k := by omega
  rw [hw] at hmod
  have := eq_of_mod_eq hle hlt hk.le hmod
  omega

/-- The step of the schedule, in unsigned arithmetic. -/
theorem add_interval {x t : U64} (hpos : 0 < interval) (hmax : interval < 2 ^ 31) (hx : x ≤ t)
    (ht : t < x + ofInt interval) : (x + ofInt interval).toNat = x.toNat + interval.toNat := by
  have hi : (ofInt interval).toNat = interval.toNat := by
    unfold ofInt
    rw [BitVec.toNat_ofInt]
    omega
  rw [BitVec.le_def] at hx
  rw [BitVec.lt_def, BitVec.toNat_add, hi] at ht
  rw [BitVec.toNat_add, hi]
  omega

/-- The last check. -/
theorem Ticked.last {cs₀ : Clocks} {ts : List U64} (r : Ticked clockId cs₀ (ts ++ [t]) cs') :
    ∃ cs, Ticked clockId cs₀ ts cs ∧ (cs.sysClocks clockId).nextTickTime ≤ t ∧
      sysClockNotifyTick cs clockId (highWord t) (lowWord t) = .ok cs' := by
  generalize hus : ts ++ [t] = us at r
  cases r with
  | nil => simp at hus
  | snoc r hmatch htick =>
    obtain ⟨rfl, ht⟩ := List.append_inj' hus rfl
    obtain rfl := (List.cons.inj ht).1
    exact ⟨_, r, hmatch, htick⟩

/-- Between its match time and the next one the clock is ahead by one interval. -/
theorem Scheduled.next_eq (h : Scheduled clockId b interval n cs) :
    (cs.sysClocks clockId).nextTickTime = b + ofInt (n * interval) + ofInt interval := by
  rw [h.next, BitVec.add_assoc]
  congr 1
  unfold ofInt
  rw [← BitVec.ofInt_add]
  congr 1
  ring

/-- A tick that is handled within an interval is not missed. -/
theorem Ticked.extend {ts : List U64}
    (r : Ticked clockId (sysClockInit cs clockId interval (highWord b) (lowWord b)) ts cs')
    (t : U64) (hmatch : b + ofInt ((ts.length + 1) * interval) ≤ t)
    (hlt : t < b + ofInt ((ts.length + 1) * interval) + ofInt interval) :
    ∃ cs'', Ticked clockId (sysClockInit cs clockId interval (highWord b) (lowWord b))
      (ts ++ [t]) cs'' := by
  have hs := r.scheduled
  refine ⟨_, r.snoc (hs.next ▸ hmatch) (if_pos ?_)⟩
  show sysTimerFullCount _ _ < _
  rw [sysTimerFullCount_same, hs.next, hs.period]
  exact hlt

/-- As long as the first match time is in range, so are all. -/
theorem Ticked.next_toNat {ts : List U64} (hpos : 0 < interval) (hmax : interval < 2 ^ 31)
    (r : Ticked clockId (sysClockInit cs clockId interval (highWord b) (lowWord b)) ts cs')
    (hb : b.toNat + interval.toNat < 2 ^ 64) :
    (cs'.sysClocks clockId).nextTickTime.toNat = b.toNat + (ts.length + 1) * interval.toNat := by
  induction r with
  | nil =>
    have hi : (ofInt interval).toNat = interval.toNat := by
      unfold ofInt
      rw [BitVec.toNat_ofInt]
      omega
    rw [(scheduled_init cs clockId interval b).next]
    simp only [Nat.cast_zero, List.length_nil, zero_add, one_mul]
    rw [BitVec.toNat_add, hi, Nat.mod_eq_of_lt hb]
  | @snoc ts cs₁ cs₂ t r hmatch htick ih =>
    obtain ⟨-, -, -, hnext, -, hlt⟩ := sysClockNotifyTick_eq_ok htick
    rw [sysTimerFullCount_same, hnext, r.scheduled.period] at hlt
    rw [hnext, r.scheduled.period, add_interval hpos hmax hmatch hlt, ih, List.length_append]
    simp only [List.length_singleton]
    ring

/-- **The system clock does not drift or skip.**  After `n` ticks, each handled at or after its
match time and none missed, the next tick is due `n + 1` intervals after the boot, the
comparator has its low word, at the last check it is ahead by at most one interval, and a
counter anywhere between the last match time and the next meets the comparator first at the
next match time. -/
theorem clock_schedule (cs cs' : Clocks) (clockId : Fin 4) (interval : ℤ) (b : U64)
    (ts : List U64) (hpos : 0 < interval) (hmax : interval < 2 ^ 31)
    (r : Ticked clockId (sysClockInit cs clockId interval (highWord b) (lowWord b)) ts cs') :
    let clock := cs'.sysClocks clockId
    clock.bootTime = b ∧
    clock.nextTickTime = b + ofInt ((ts.length + 1) * interval) ∧
    (b.toNat + interval.toNat < 2 ^ 64 →
      clock.nextTickTime.toNat = b.toNat + (ts.length + 1) * interval.toNat) ∧
    clock.tickCount = ts.length ∧
    cs'.comparator clockId = lowWord clock.nextTickTime ∧
    (∀ t, ts.getLast? = some t →
      b + ofInt (ts.length * interval) ≤ t ∧ t < clock.nextTickTime ∧
        clock.nextTickTime.toNat - t.toNat ≤ interval.toNat) ∧
    (∀ w, b + ofInt (ts.length * interval) ≤ w → w < clock.nextTickTime →
      MatchesAt (cs'.comparator clockId) w clock.nextTickTime) := by
  have hs := r.scheduled
  have hnext := hs.next_eq
  refine ⟨r.bootTime, hs.next, r.next_toNat hpos hmax, hs.count, hs.comparator, fun t ht => ?_,
    fun w hw hlt => ?_⟩
  · obtain ⟨ts', rfl⟩ : ∃ ts', ts = ts' ++ [t] := List.getLast?_eq_some_iff.mp ht
    obtain ⟨cs₁, r₁, hmatch, htick⟩ := r.last
    obtain ⟨-, -, -, -, -, hlt⟩ := sysClockNotifyTick_eq_ok htick
    rw [sysTimerFullCount_same] at hlt
    have hprev : (cs₁.sysClocks clockId).nextTickTime =
        b + ofInt ((ts' ++ [t]).length * interval) := by
      rw [r₁.scheduled.next, List.length_append]
      push_cast
      rfl
    rw [hprev] at hmatch
    refine ⟨hmatch, hlt, ?_⟩
    rw [hnext] at hlt ⊢
    rw [add_interval hpos hmax hmatch hlt]
    have := BitVec.le_def.mp hmatch
    omega
  · rw [hs.comparator]
    apply matchesAt_of_lt (BitVec.le_of_lt hlt)
    have hle := BitVec.le_def.mp hw
    rw [hnext] at hlt ⊢
    rw [add_interval hpos hmax hw hlt]
    omega

/-- Clock 1 with its own interval: two ticks around a wrap of `CLO`, the second one late. -/
theorem clock_schedule_run : ∃ cs cs',
    Ticked 1 (sysClockInit cs 1 tickTime (highWord 0xFFFFD000) (lowWord 0xFFFFD000))
      [0xFFFFF711, 0x100002000] cs' ∧
    (cs'.sysClocks 1).nextTickTime = 0xFFFFD000 + ofInt ((2 + 1) * tickTime) := by
  let cs : Clocks := ⟨fun _ => ⟨0, 0, 0, 0⟩, fun _ => 0⟩
  have r₀ : Ticked 1 (sysClockInit cs 1 tickTime (highWord 0xFFFFD000) (lowWord 0xFFFFD000)) [] _ :=
    .nil
  obtain ⟨cs₁, r₁⟩ := r₀.extend 0xFFFFF711 (by decide) (by decide)
  obtain ⟨cs₂, r₂⟩ := r₁.extend 0x100002000 (by decide) (by decide)
  exact ⟨cs, cs₂, r₂, (clock_schedule cs cs₂ 1 tickTime 0xFFFFD000 _ (by decide) (by decide)
    r₂).2.1⟩

end RealtimeKernel
