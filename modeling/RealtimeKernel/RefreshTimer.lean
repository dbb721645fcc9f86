import Mathlib.Data.List.Chain
import RealtimeKernel.SystemClock

/-!
# The refresh timer

`timer_update` reads `CLO` once and then again for as long as less than a tenth of a second has
passed since the last update.  The readings are an input: what the timer reads is listed in
order, and an update that needs more readings than there are does not return.

In `Refreshed` the readings are made at moments of a clock that does not wrap around.
-/

namespace RealtimeKernel

open Lib

abbrev timerFreq : ℕ := 1000000
abbrev refreshRate : ℕ := 10

/-- `Timer` of `timer.h`. -/
structure Timer where
  currentCount : U32
  lastCount : U32
  deltaCount : U32
  sec10Count : U32
  sec10 : U32
  deriving DecidableEq, Repr

def timerInit (clo : U32) : Timer where
  currentCount := clo
  lastCount := clo
  deltaCount := 0
  sec10Count := 0
  sec10 := 0

/-- The loop that limits the refresh rate, with the readings it does not use. -/
def timerWait (self : Timer) : List U32 → Option (Timer × List U32)
  | [] => if self.deltaCount.toNat < timerFreq / refreshRate then none else some (self, [])
  | clo :: readings =>
    if self.deltaCount.toNat < timerFreq / refreshRate then
      timerWait { self with currentCount := clo, deltaCount := clo - self.lastCount } readings
    else some (self, clo :: readings)

/-- `self->sec10_count += self->delta_count` and the carry into `sec10`. -/
def timerCarry (self : Timer) : Timer :=
  let sec10Count := self.sec10Count + self.deltaCount
  if sec10Count.toNat ≥ timerFreq / 10 then
    { self with
      sec10 := self.sec10 + sec10Count / BitVec.ofNat 32 (timerFreq / 10)
      sec10Count := sec10Count % BitVec.ofNat 32 (timerFreq / 10) }
  else { self with sec10Count := sec10Count }

def timerUpdate (self : Timer) : List U32 → Option (Timer × List U32)
  | [] => none
  | clo :: readings =>
    let self := { self with currentCount := clo, deltaCount := 0 }
    if self.currentCount > self.lastCount then do
      let (self, readings) ←
        timerWait { self with deltaCount := self.currentCount - self.lastCount } readings
      let self := timerCarry self
      some ({ self with lastCount := self.currentCount }, readings)
    else some ({ self with lastCount := self.currentCount }, readings)

/-! ### Readings at moments of a clock -/

/-- `CLO` at a moment. -/
def cloAt (t : ℕ) : U32 := BitVec.ofNat 32 t

theorem cloAt_toNat (t : ℕ) : (cloAt t).toNat = t % 2 ^ 32 := BitVec.toNat_ofNat t 32

/-- The counts between two moments. -/
theorem cloAt_sub_toNat {s t : ℕ} (h : s ≤ t) (ht : t < s + 2 ^ 32) :
    (cloAt t - cloAt s).toNat = t - s := by
  rw [BitVec.toNat_sub, cloAt_toNat, cloAt_toNat]
  exact mod_sub_mod h ht

theorem cloAt_lt_iff {s t : ℕ} (h : s ≤ t) (ht : t < s + 2 ^ 32) :
    cloAt t > cloAt s ↔ s < t ∧ NoCarry (2 ^ 32) s t := by
  show cloAt s < cloAt t ↔ _
  rw [BitVec.lt_def, cloAt_toNat, cloAt_toNat]
  exact mod_lt_mod_iff h ht

/-- The moments at which one update reads `CLO`, after the reading at `since` that the update
before it ended with. -/
structure Update where
  since : ℕ
  first : ℕ
  rest : List ℕ

namespace Update

/-- The moment of the last reading. -/
def last (u : Update) : ℕ := u.rest.getLastD u.first

/-- `CLO` does not wrap around before the first reading. -/
def Unwrapped (u : Update) : Prop := (cloAt u.since).toNat + (u.first - u.since) < 2 ^ 32

/-- The moments are in order, and less than `2 ^ 32 - 200000` counts pass between the updates. -/
structure Timely (u : Update) : Prop where
  order : (u.since :: u.first :: u.rest).IsChain (· ≤ ·)
  gap : u.last < u.since + (2 ^ 32 - 200000)

end Update

/-- The timer was initialised at `t₀` and updated; its last reading was at the last moment. -/
inductive Refreshed (t₀ : ℕ) : List Update → Timer → ℕ → Prop
  | init : Refreshed t₀ [] (timerInit (cloAt t₀)) t₀
  | update {us : List Update} {self self' : Timer} {u : Update} :
      Refreshed t₀ us self u.since → u.Timely →
      timerUpdate self ((u.first :: u.rest).map cloAt) = some (self', []) →
      Refreshed t₀ (us ++ [u]) self' u.last

/-- The counts a timer has accounted for. -/
def Timer.accounted (self : Timer) : ℕ :=
  self.sec10.toNat * (timerFreq / 10) + self.sec10Count.toNat

/-! ### One update -/

/-- The two ways through `timer_update` that use up the readings. -/
theorem timerUpdate_eq_some {self self' : Timer} {clo : U32} {readings : List U32}
    (h : timerUpdate self (clo :: readings) = some (self', [])) :
    (clo > self.lastCount ∧ ∃ mid,
      timerWait { self with currentCount := clo, deltaCount := clo - self.lastCount } readings =
        some (mid, []) ∧
      self' = { timerCarry mid with lastCount := (timerCarry mid).currentCount }) ∨
    (¬ clo > self.lastCount ∧ readings = [] ∧
      self' = { self with currentCount := clo, deltaCount := 0, lastCount := clo }) := by
  rw [timerUpdate] at h
  dsimp only at h
  split at h
  · rename_i hgt
    obtain ⟨⟨mid, rest⟩, hw, h⟩ := Option.bind_eq_some_iff.mp h
    cases h
    exact .inl ⟨hgt, mid, hw, rfl⟩
  · rename_i hle
    cases h
    exact .inr ⟨hle, rfl, rfl⟩

/-- The loop ends with a reading at least a tenth of a second after the last update. -/
theorem timerWait_eq (self : Timer) {self' : Timer} {s t : ℕ} {rest : List ℕ}
    (hlast : self.lastCount = cloAt s) (hcurrent : self.currentCount = cloAt t)
    (hdelta : self.deltaCount = cloAt t - cloAt s)
    (h : timerWait self (rest.map cloAt) = some (self', [])) :
    self' = { self with
        currentCount := cloAt (rest.getLastD t)
        deltaCount := cloAt (rest.getLastD t) - cloAt s } ∧
      timerFreq / refreshRate ≤ self'.deltaCount.toNat := by
  induction rest generalizing self t with
  | nil =>
    rw [List.map_nil, timerWait] at h
    split at h
    · cases h
    · rename_i hge
      cases h
      refine ⟨?_, not_lt.mp hge⟩
      rw [List.getLastD_nil, ← hdelta, ← hcurrent]
  | cons r rest ih =>
    rw [List.map_cons, timerWait] at h
    split at h
    · have hnext := ih { self with
        currentCount := cloAt r, deltaCount := cloAt r - self.lastCount } hlast rfl
        (by rw [hlast]) h
      rwa [List.getLastD_cons]
    · cases h

theorem timerCarry_currentCount (self : Timer) :
    (timerCarry self).currentCount = self.currentCount := by
  unfold timerCarry
  dsimp only
  split <;> rfl

theorem timerCarry_accounted (self : Timer) (hcount : self.sec10Count.toNat < timerFreq / 10)
    (hdelta : self.deltaCount.toNat < 2 ^ 32 - 200000)
    (hfit : self.accounted + self.deltaCount.toNat < 2 ^ 32 * (timerFreq / 10)) :
    (timerCarry self).accounted = self.accounted + self.deltaCount.toNat ∧
      (timerCarry self).sec10Count.toNat < timerFreq / 10 := by
  have hsum : (self.sec10Count + self.deltaCount).toNat =
      self.sec10Count.toNat + self.deltaCount.toNat := by
    rw [BitVec.toNat_add]
    apply Nat.mod_eq_of_lt
    simp only [timerFreq] at hcount
    omega
  unfold timerCarry
  unfold Timer.accounted at hfit ⊢
  simp only [timerFreq] at hcount hfit ⊢
  split
  · rename_i hge
    have hdiv : ((self.sec10Count + self.deltaCount) / BitVec.ofNat 32 100000).toNat =
        (self.sec10Count.toNat + self.deltaCount.toNat) / 100000 := by
      rw [BitVec.toNat_udiv, hsum]
      rfl
    have hmod : ((self.sec10Count + self.deltaCount) % BitVec.ofNat 32 100000).toNat =
        (self.sec10Count.toNat + self.deltaCount.toNat) % 100000 := by
      rw [BitVec.toNat_umod, hsum]
      rfl
    have hsec : (self.sec10 + (self.sec10Count + self.deltaCount) / BitVec.ofNat 32 100000).toNat =
        self.sec10.toNat + (self.sec10Count.toNat + self.deltaCount.toNat) / 100000 := by
      rw [BitVec.toNat_add, hdiv]
      apply Nat.mod_eq_of_lt
      omega
    have hlt := Nat.mod_lt (self.sec10Count.toNat + self.deltaCount.toNat)
      (show 100000 > 0 by norm_num)
    refine ⟨?_, ?_⟩
    · show (self.sec10 + (self.sec10Count + self.deltaCount) / BitVec.ofNat 32 100000).toNat * _ +
        ((self.sec10Count + self.deltaCount) % BitVec.ofNat 32 100000).toNat = _
      rw [hsec, hmod]
      omega
    · show ((self.sec10Count + self.deltaCount) % BitVec.ofNat 32 100000).toNat < _
      rw [hmod]
      omega
  · rename_i hlt
    refine ⟨?_, ?_⟩
    · show self.sec10.toNat * _ + (self.sec10Count + self.deltaCount).toNat = _
      rw [hsum]
      omega
    · exact not_le.mp hlt

namespace Update

variable {u : Update}

instance : Decidable u.Unwrapped := inferInstanceAs (Decidable (_ < _))

/-- What the update does not account for. -/
def lost (u : Update) : ℕ := if u.Unwrapped then 0 else u.last - u.since

theorem le_getLastD {t : ℕ} {rest : List ℕ} (h : (t :: rest).IsChain (· ≤ ·)) :
    t ≤ rest.getLastD t := by
  induction rest generalizing t with
  | nil => exact le_refl t
  | cons r rest ih =>
    rw [List.isChain_cons_cons] at h
    rw [List.getLastD_cons]
    exact h.1.trans (ih h.2)

theorem Timely.since_le (h : u.Timely) : u.since ≤ u.first :=
  (List.isChain_cons_cons.mp h.order).1

theorem Timely.first_le (h : u.Timely) : u.first ≤ u.last :=
  le_getLastD (List.isChain_cons_cons.mp h.order).2

theorem unwrapped_iff (h : u.since ≤ u.first) :
    u.Unwrapped ↔ NoCarry (2 ^ 32) u.since u.first := by
  rw [noCarry_iff h (by norm_num), Unwrapped, cloAt_toNat]

end Update

/-- **One update** accounts for all counts since the last one, unless `CLO` wrapped around before
its first reading. -/
theorem timerUpdate_accounted {self self' : Timer} {u : Update}
    (hlast : self.lastCount = cloAt u.since) (hcount : self.sec10Count.toNat < timerFreq / 10)
    (ht : u.Timely) (hfit : self.accounted + (u.last - u.since) < 2 ^ 32 * (timerFreq / 10))
    (h : timerUpdate self ((u.first :: u.rest).map cloAt) = some (self', [])) :
    self'.lastCount = cloAt u.last ∧ self'.sec10Count.toNat < timerFreq / 10 ∧
      self'.accounted + u.lost = self.accounted + (u.last - u.since) := by
  have hsince := ht.since_le
  have hfirst := ht.first_le
  have hgap := ht.gap
  have hguard := cloAt_lt_iff hsince (show u.first < u.since + 2 ^ 32 by omega)
  have hdelta : (cloAt u.last - cloAt u.since).toNat = u.last - u.since :=
    cloAt_sub_toNat (by omega) (by omega)
  rcases timerUpdate_eq_some h with ⟨hgt, mid, hw, rfl⟩ | ⟨hle, hrest, rfl⟩
  · -- the first reading is greater: the loop runs and the counts are added
    rw [hlast] at hgt hw
    have hno : NoCarry (2 ^ 32) u.since u.first := (hguard.mp hgt).2
    have hlost : u.lost = 0 := if_pos ((Update.unwrapped_iff hsince).mpr hno)
    obtain ⟨rfl, hmin⟩ := timerWait_eq _ (s := u.since) (t := u.first) rfl rfl rfl hw
    obtain ⟨hacc, hlt⟩ := timerCarry_accounted { self with
        currentCount := cloAt u.last, lastCount := cloAt u.since
        deltaCount := cloAt u.last - cloAt u.since } hcount (by rw [hdelta]; omega)
        (by rw [hdelta]; exact hfit)
    rw [hdelta] at hacc
    refine ⟨timerCarry_currentCount _, hlt, ?_⟩
    rw [hlost, Nat.add_zero]
    exact hacc
  · -- the first reading is not greater: the counts are dropped
    rw [hlast] at hle
    have hfl : u.last = u.first := by
      unfold Update.last
      rw [List.map_eq_nil_iff.mp hrest, List.getLastD_nil]
    refine ⟨by rw [hfl], hcount, ?_⟩
    show self.accounted + u.lost = _
    unfold Update.lost
    split
    · rename_i hu
      have hno := (Update.unwrapped_iff hsince).mp hu
      have hnot : ¬ u.since < u.first := fun hlt => hle (hguard.mpr ⟨hlt, hno⟩)
      omega
    · rfl

/-- An update returns as soon as there is a reading a tenth of a second after the last one. -/
theorem timerWait_returns (self : Timer) {s t : ℕ} (hlast : self.lastCount = cloAt s)
    (hst : s + timerFreq / refreshRate ≤ t) (ht : t < s + 2 ^ 32) {rest : List ℕ}
    (hmem : t ∈ rest) : ∃ r, timerWait self (rest.map cloAt) = some r := by
  induction rest generalizing self with
  | nil => simp at hmem
  | cons r rest ih =>
    rw [List.map_cons, timerWait]
    split
    · by_cases hr : t = r
      · -- this reading ends the loop
        subst hr
        have hdelta := cloAt_sub_toNat (show s ≤ t by omega) ht
        cases rest with
        | nil =>
          rw [List.map_nil, timerWait, if_neg]
          · exact ⟨_, rfl⟩
          · show ¬ (cloAt t - self.lastCount).toNat < _
            rw [hlast, hdelta]
            omega
        | cons r' rest =>
          rw [List.map_cons, timerWait, if_neg]
          · exact ⟨_, rfl⟩
          · show ¬ (cloAt t - self.lastCount).toNat < _
            rw [hlast, hdelta]
            omega
      · exact ih _ hlast (by simpa [hr] using hmem)
    · exact ⟨_, rfl⟩

theorem timerUpdate_returns (self : Timer) {s t : ℕ} (hlast : self.lastCount = cloAt s)
    (hst : s + timerFreq / refreshRate ≤ t) (ht : t < s + 2 ^ 32) {first : ℕ} {rest : List ℕ}
    (hmem : t ∈ rest) : ∃ r, timerUpdate self ((first :: rest).map cloAt) = some r := by
  rw [List.map_cons, timerUpdate]
  dsimp only
  split
  · obtain ⟨⟨mid, readings⟩, hw⟩ := timerWait_returns { self with
        currentCount := cloAt first, deltaCount := cloAt first - self.lastCount } hlast hst ht hmem
    exact ⟨_, Option.bind_eq_some_iff.mpr ⟨_, hw, rfl⟩⟩
  · exact ⟨_, rfl⟩

/-! ### Runs -/

variable {t₀ now : ℕ} {us : List Update} {self : Timer}

theorem Refreshed.le (r : Refreshed t₀ us self now) : t₀ ≤ now := by
  induction r with
  | init => exact le_refl t₀
  | update _ ht _ ih => exact ih.trans (ht.since_le.trans ht.first_le)

/-- What the timer has accounted for and what it has lost make up the time that has passed. -/
theorem Refreshed.accounted (r : Refreshed t₀ us self now)
    (hfit : (now - t₀) / (timerFreq / 10) < 2 ^ 32) :
    self.lastCount = cloAt now ∧ self.sec10Count.toNat < timerFreq / 10 ∧
      self.accounted + (us.map Update.lost).sum = now - t₀ := by
  induction r with
  | init =>
    rw [Nat.sub_self]
    simp [timerInit, Timer.accounted, timerFreq]
  | @update us self self' u r ht h ih =>
    have hle := r.le
    have hsince := ht.since_le.trans ht.first_le
    simp only [timerFreq] at hfit
    obtain ⟨hlast, hcount, hacc⟩ := ih (by simp only [timerFreq]; omega)
    have hroom : self.accounted + (u.last - u.since) < 2 ^ 32 * (timerFreq / 10) := by
      simp only [timerFreq]
      omega
    obtain ⟨hlast', hcount', hacc'⟩ := timerUpdate_accounted hlast hcount ht hroom h
    refine ⟨hlast', hcount', ?_⟩
    rw [List.map_append, List.sum_append, List.map_singleton, List.sum_singleton]
    omega

/-- Every update of a run is timely. -/
theorem Refreshed.timely (r : Refreshed t₀ us self now) : ∀ u ∈ us, u.Timely := by
  induction r with
  | init => simp
  | update _ ht _ ih =>
    intro u hu
    rcases List.mem_append.mp hu with hu | hu
    · exact ih u hu
    · rw [List.mem_singleton.mp hu]
      exact ht

/-- Nothing is lost in an update just when `CLO` has not wrapped around before its first
reading. -/
theorem Update.Timely.lost_eq_zero {u : Update} (ht : u.Timely) : u.lost = 0 ↔ u.Unwrapped := by
  unfold Update.lost
  split
  · rename_i hu
    simp [hu]
  · rename_i hu
    have hlt : u.since < u.first := by
      rcases Nat.lt_or_eq_of_le ht.since_le with hlt | heq
      · exact hlt
      · rw [Update.unwrapped_iff ht.since_le, ← heq] at hu
        exact absurd rfl hu
    have := ht.first_le
    simp only [hu, iff_false]
    omega

/-- **The refresh timer accounts for all elapsed time** just when in no update `CLO` has wrapped
around between the last reading before it and its first one. -/
theorem refresh_timer_accounts_iff (t₀ now : ℕ) (us : List Update) (self : Timer)
    (r : Refreshed t₀ us self now) (hfit : (now - t₀) / (timerFreq / 10) < 2 ^ 32) :
    (self.sec10.toNat * (timerFreq / 10) + self.sec10Count.toNat = now - t₀ ∧
      self.sec10Count.toNat < timerFreq / 10) ↔ ∀ u ∈ us, u.Unwrapped := by
  obtain ⟨-, hcount, hacc⟩ := r.accounted hfit
  have hsum : self.accounted = now - t₀ ↔ (us.map Update.lost).sum = 0 := by omega
  have hall : (us.map Update.lost).sum = 0 ↔ ∀ u ∈ us, u.Unwrapped := by
    rw [List.sum_eq_zero_iff_forall_eq_nat]
    simp only [List.mem_map, forall_exists_index, and_imp, forall_apply_eq_imp_iff₂]
    exact forall₂_congr fun u hu => (r.timely u hu).lost_eq_zero
  show (self.accounted = now - t₀ ∧ _) ↔ _
  rw [hsum, hall]
  exact and_iff_left hcount

/-- Two updates, the first of which waits in its loop while `CLO` wraps around. -/
theorem refresh_timer_accounts_run : ∃ us self,
    Refreshed (2 ^ 32 - 50000) us self (2 ^ 32 + 250001) ∧
    self.sec10.toNat * (timerFreq / 10) + self.sec10Count.toNat = 300001 := by
  let u₁ : Update := ⟨2 ^ 32 - 50000, 2 ^ 32 - 1, [2 ^ 32 + 20000, 2 ^ 32 + 50001]⟩
  let u₂ : Update := ⟨2 ^ 32 + 50001, 2 ^ 32 + 250001, []⟩
  have r₀ : Refreshed (2 ^ 32 - 50000) [] (timerInit (cloAt u₁.since)) u₁.since := .init
  have r₁ : Refreshed (2 ^ 32 - 50000) [u₁] ⟨50001, 50001, 100001, 1, 1⟩ u₂.since :=
    r₀.update (u := u₁) ⟨by decide, by decide⟩ (by decide +kernel)
  have r₂ : Refreshed (2 ^ 32 - 50000) [u₁, u₂] ⟨250001, 250001, 200000, 1, 3⟩ u₂.last :=
    r₁.update (u := u₂) ⟨by decide, by decide⟩ (by decide +kernel)
  have hacc := (refresh_timer_accounts_iff _ _ _ _ r₂ (by decide)).mpr (by decide)
  exact ⟨_, _, r₂, hacc.1.trans (by decide)⟩

/-- `CLO` wraps around before the first reading of an update: its 60000 counts are dropped. -/
theorem refresh_timer_drops : ∃ us self,
    Refreshed (2 ^ 32 - 10000) us self (2 ^ 32 + 50000) ∧
    self.sec10.toNat * (timerFreq / 10) + self.sec10Count.toNat ≠
      2 ^ 32 + 50000 - (2 ^ 32 - 10000) := by
  let u : Update := ⟨2 ^ 32 - 10000, 2 ^ 32 + 50000, []⟩
  have r₀ : Refreshed (2 ^ 32 - 10000) [] (timerInit (cloAt u.since)) u.since := .init
  have r₁ : Refreshed (2 ^ 32 - 10000) [u] ⟨50000, 50000, 0, 0, 0⟩ u.last :=
    r₀.update (u := u) ⟨by decide, by decide⟩ (by decide +kernel)
  exact ⟨_, _, r₁, by decide⟩

end RealtimeKernel
