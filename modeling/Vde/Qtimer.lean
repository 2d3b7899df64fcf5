import Mathlib.Data.List.Basic
import Vde.Lib.CInt
import Vde.Lib.Machine

/-!
# Timers of the switch

`sig_alarm` counts the seconds, calls the functions of the timers that are due and moves the timers
that go on to the front of their array. A timer is deleted by setting the number of its calls to
zero; its record goes to the free list at the next tick. The free list is linked by `qt_arg`.

Records, functions and arguments are addresses, and `0` is `NULL`.
-/

namespace Vde

open Function

structure QtTimer where
  n : Nat
  period : Int
  nextcall : Int
  times : Nat
  call : Nat
  arg : Nat
  deriving DecidableEq, Repr

/-- The statics of qtimer.c, the records, and the next address that `malloc` returns. -/
structure QtState where
  qth : Nat → Nat
  qtf : Nat
  maxqt : Nat
  gqtime : Int
  activeqt : Nat
  countqt : Nat
  recs : Nat → QtTimer
  top : Nat

def qtAllocStep : Nat := 4

def toUInt (n : Nat) : Nat := n % 4294967296

/-- The test at the beginning of `qtimer_add`. -/
def qtAccepts (period times : Int) (call : Nat) : Bool := 0 < period ∧ call ≠ 0 ∧ 0 ≤ times

def qtTimes (times : Int) : Nat := if times = 0 then 4294967295 else times.toNat

/-- The timer takes the record that was freed last, or a new one. This is `qtimer_add` on the condition that
`realloc` and `malloc` find memory; without it the table is lost, or a null pointer followed. -/
def qtimerAdd (period times : Int) (call arg : Nat) (s : QtState) : QtState × Nat :=
  if qtAccepts period times call then
    let r := if s.qtf = 0 then s.top else s.qtf
    ({ s with
        maxqt := if s.maxqt ≤ s.activeqt then s.maxqt + qtAllocStep else s.maxqt
        activeqt := s.activeqt + 1
        qth := update s.qth s.activeqt r
        -- a new record has a cleared argument
        qtf := if s.qtf = 0 then 0 else (s.recs s.qtf).arg
        top := if s.qtf = 0 then s.top + 1 else s.top
        countqt := toUInt (s.countqt + 1)
        recs := update s.recs r
          ⟨s.countqt, period, toInt64 (s.gqtime + period), qtTimes times, call, arg⟩ },
      s.countqt)
  else (s, 4294967295)

def qtimerDel (n : Nat) (s : QtState) : QtState :=
  match (List.range s.activeqt).find? (fun i => (s.recs (s.qth i)).n == n) with
  | some i =>
    { s with recs := update s.recs (s.qth i) { s.recs (s.qth i) with times := 0 } }
  | none => s

/-- What a tick does outside of the timers: the function of the record at `r` runs, or a function
that runs deletes a timer. -/
inductive QtEffect where
  | ran (time : Int) (r call arg : Nat)
  | deleted (time : Int) (n : Nat)
  deriving DecidableEq, Repr

def timerAfterCall (t : QtTimer) : QtTimer :=
  { t with
    nextcall := toInt64 (t.nextcall + t.period)
    times := if 0 < t.times then t.times - 1 else t.times }

def advanceTimer (r : Nat) (s : QtState) : QtState :=
  { s with recs := update s.recs r (timerAfterCall (s.recs r)) }

/-- A timer that is due. Its function deletes the timers with the numbers `dels`. -/
def fire (dels : List Nat) (r : Nat) (s : QtState) : QtState × List QtEffect :=
  (advanceTimer r (dels.foldl (fun s n => qtimerDel n s) s),
    .ran s.gqtime r (s.recs r).call (s.recs r).arg :: dels.map (QtEffect.deleted s.gqtime))

def alarmLoop (dels : Nat → List Nat) : Nat → Nat → Nat → QtState → QtState × Nat × List QtEffect
  | 0, _, j, s => (s, j, [])
  | left + 1, i, j, s =>
    let r := s.qth i
    if (s.recs r).times = 0 then
      alarmLoop dels left (i + 1) j
        { s with recs := update s.recs r { s.recs r with arg := s.qtf }, qtf := r }
    else
      let fired := if (s.recs r).nextcall ≤ s.gqtime then fire (dels i) r s else (s, [])
      let s := if i ≠ j then { fired.1 with qth := update fired.1.qth j (fired.1.qth i) } else fired.1
      let rest := alarmLoop dels left (i + 1) (j + 1) s
      (rest.1, rest.2.1, fired.2 ++ rest.2.2)

/-- `sig_alarm`. The function called in turn `i` of its loop deletes the timers `dels i`. -/
def sigAlarm (dels : Nat → List Nat) (s : QtState) : QtState × List QtEffect :=
  let s := { s with gqtime := toInt64 (s.gqtime + 1) }
  let r := alarmLoop dels s.activeqt 0 0 s
  ({ r.1 with activeqt := r.2.1 }, r.2.2)

structure Deletion where
  time : Int
  inTick : Bool
  count : Nat
  deriving DecidableEq, Repr

/-- What has become of a timer: what `qtimer_add` was told and returned, the runs of its function and
its deletion. -/
structure TimerLog where
  number : Nat
  start : Int
  period : Int
  limit : Nat
  call : Nat
  arg : Nat
  ran : List (Int × Nat × Nat)
  gone : Option Deletion
  deriving DecidableEq, Repr

def markDeleted (n : Nat) (time : Int) (inTick : Bool) (timers : Nat → TimerLog) : Nat → TimerLog := fun id =>
  if (timers id).number = n ∧ (timers id).gone = none then
    { timers id with gone := some ⟨time, inTick, (timers id).ran.length⟩ }
  else timers id

def logEffect (owner : Nat → Nat) (timers : Nat → TimerLog) : QtEffect → Nat → TimerLog
  | .ran time r call arg =>
    update timers (owner r)
      { timers (owner r) with ran := (timers (owner r)).ran ++ [(time, call, arg)] }
  | .deleted time n => markDeleted n time true timers

/-- The state of qtimer.c and the timers added so far; the record at an address belongs to the timer
that was last added there. -/
structure QtRun where
  s : QtState
  timers : Nat → TimerLog
  added : Nat
  owner : Nat → Nat

inductive QtEvent where
  | add (period times : Int) (call arg : Nat)
  | del (n : Nat)
  | tick (dels : Nat → List Nat)

def qtStep (w : QtRun) : QtEvent → QtRun
  | .add period times call arg =>
    let r := qtimerAdd period times call arg w.s
    if qtAccepts period times call then
      { s := r.1
        timers := update w.timers w.added
          ⟨r.2, w.s.gqtime, period, qtTimes times, call, arg, [], none⟩
        added := w.added + 1
        owner := update w.owner (r.1.qth w.s.activeqt) w.added }
    else { w with s := r.1 }
  | .del n => { w with s := qtimerDel n w.s, timers := markDeleted n w.s.gqtime false w.timers }
  | .tick dels =>
    let r := sigAlarm dels w.s
    { w with s := r.1, timers := r.2.foldl (logEffect w.owner) w.timers }

def qtMachine : Machine QtRun QtEvent := ⟨fun _ _ => True, qtStep⟩

def qtInit : QtRun :=
  { s := ⟨fun _ => 0, 0, 0, 0, 0, 0, fun _ => ⟨0, 0, 0, 0, 0, 0⟩, 1⟩
    timers := fun _ => ⟨0, 0, 0, 0, 0, 0, [], none⟩
    added := 0
    owner := fun _ => 0 }

end Vde
