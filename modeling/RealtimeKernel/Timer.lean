import RealtimeKernel.Basic

/-!
# `timer.c`: the system clocks

The kernel keeps four `Clock`s over the comparators of the system timer.  A reading of the
64-bit counter is made of two register reads, the high word first; both values are inputs of
the model.
-/

namespace RealtimeKernel

/-- `Clock` of `timer.h`. -/
structure Clock where
  bootTime : U64
  nextTickTime : U64
  interval : ℤ
  tickCount : ℤ

/-- The clocks and the comparator registers `C[0..3]`. -/
structure Clocks where
  sysClocks : Fin 4 → Clock
  comparator : Fin 4 → U32

/-- `sys_timer_full_count`, given what the reads of `CHI` and then `CLO` return. -/
def sysTimerFullCount (chi clo : U32) : U64 := (chi.setWidth 64 <<< 32) + clo.setWidth 64

instance neZero_comparators : NeZero 4 := ⟨by decide⟩

def sysTimerSetComparator (cs : Clocks) (comparatorId : Fin 4) (compareCount : U32) : Clocks :=
  { cs with comparator := Function.update cs.comparator comparatorId compareCount }

def sysClockInit (cs : Clocks) (clockId : Fin 4) (interval : ℤ) (chi clo : U32) : Clocks :=
  let bootTime := sysTimerFullCount chi clo
  let sysClock : Clock :=
    { bootTime := bootTime
      tickCount := 0
      interval := interval
      nextTickTime := bootTime + ofInt interval }
  sysTimerSetComparator { cs with sysClocks := Function.update cs.sysClocks clockId sysClock }
    clockId (sysClock.nextTickTime.setWidth 32)

def sysClockNotifyTick (cs : Clocks) (clockId : Fin 4) (chi clo : U32) : Except Halt Clocks :=
  let old := cs.sysClocks clockId
  let sysClock : Clock :=
    { old with
      tickCount := old.tickCount + 1
      nextTickTime := old.nextTickTime + ofInt old.interval }
  let cs := sysTimerSetComparator
    { cs with sysClocks := Function.update cs.sysClocks clockId sysClock }
    clockId (sysClock.nextTickTime.setWidth 32)
  if sysClock.nextTickTime > sysTimerFullCount chi clo then .ok cs else .error .tickMissed

end RealtimeKernel
