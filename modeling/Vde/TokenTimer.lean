import Vde.Lib.CDouble
import Vde.Lib.Fuel
import Vde.RouterQueue

/-!
# vde_router: the command for the token policy, and the timer

The `queue` command reads a limit and a bitrate as numbers with their labels, and `qtoken_setup` makes the interval of
the timer from the bitrate. The thread of `vder_timer_loop` reads the clock and catches up with each of its entries.
A division by zero ends the process, and so does a label without a value.
-/

namespace Vde

inductive RouterFault where
  | sigfpe
  | sigsegv
  deriving DecidableEq, Repr

def matchInput (c i : String) : Bool := c == i

/-- `not_a_number` for a word. -/
def notANumber (p : String) : Bool :=
  match p.toList with
  | [] => true
  | c :: _ => decide (c < '0' ∨ '9' < c)

/-- `get_labeled_arg`, with the words that are left behind it. A missing value is not a number, and its first
character is read all the same. -/
def getLabeledArg (strtod : String → ℚ) (label : String) : List String → Except RouterFault (ℚ × List String)
  | [] => .ok (0, [])
  | arg :: nextargs =>
    if matchInput label arg then
      match nextargs with
      | [] => .error .sigsegv
      | arg :: nextargs =>
        if notANumber arg ∧ arg.toList.head? ≠ some '.' then .ok (0, nextargs) else .ok (strtod arg, nextargs)
    else .ok (0, nextargs)

/-- The branch of `queue` for the token policy, up to `qtoken_setup`: the bitrate and the limit, unless the command
is refused. -/
def queueToken (strtod : String → ℚ) (nextargs : List String) :
    Except RouterFault (Option (BitVec 32 × BitVec 32)) := do
  let (limit, nextargs) ← getLabeledArg strtod "limit" nextargs
  let (bitrate, _) ← getLabeledArg strtod "bitrate" nextargs
  let limit := BitVec.ofNat 32 (toUnsigned limit)
  let bitrate := BitVec.ofNat 32 (toUnsigned bitrate)
  return if limit = 0 ∨ bitrate = 0 then none else some (bitrate, limit)

def tokenSetup (alloc : Bool) (clock : Nat) (id : QueueId) (bitrate limit : BitVec 32) (s : IfaceQueues) :
    Except RouterFault IfaceQueues :=
  if bitrate >>> 3 = 0 then .error .sigfpe else .ok (qtokenSetup alloc clock id bitrate limit s)

/-- A time that `gettimeofday` returns; its microseconds are a `long`. -/
structure ClockReading where
  sec : Nat
  usec : Nat
  usec_lt : usec < 1000000
  fits : sec * 1000000 + usec < 2 ^ 63

def ClockReading.micros (t : ClockReading) : Nat := t.sec * 1000000 + t.usec

/-- One turn of the inner loop of `vder_timer_loop`, in the numbers of 64 bits; the semaphores that have been posted
are listed. -/
def timerTurn (now : Nat) (_fuel : Nat) (s : TimedDequeue × List Semaphore) :
    Except Unit ((TimedDequeue × List Semaphore) ⊕ (TimedDequeue × List Semaphore)) :=
  let (cur, posted) := s
  let lastOut := (cur.lastOut + cur.interval.toNat) % 2 ^ 64
  if lastOut < now then
    .ok (.inl ({ cur with lastOut := if now < lastOut then now else lastOut }, posted ++ [cur.q.semaphore]))
  else .ok (.inr (cur, posted))

def timerCatchUp (now fuel : Nat) (cur : TimedDequeue) : Except Unit (TimedDequeue × List Semaphore) :=
  runLoop () (timerTurn now) fuel (cur, [])

end Vde
