import Mathlib.Data.List.Range
import Vde.Lib.Machine

/-!
# The management connections of wirefilter

The entries of `pfd` up to `npfd` are the inputs, the control connections of the switches, the socket that
management connections come from, and behind it the console and the management connections. `debuglevel`
goes along with `pfd`; `markov_step` prints to the descriptors of the entries with a debug level.
-/

namespace Vde

open Function

/-- `NPIPES+NPIPES+MAXCONN+1`. -/
def NPFD : Nat := 8

/-- A `struct pollfd`: its descriptor, and whether `POLLHUP` is in its `revents`. -/
structure MgmtEntry where
  fd : Int
  hup : Bool
  deriving DecidableEq, Repr

/-- `pfd`, `debuglevel` and `npfd`, and the `mgmtfdstart` of the main loop. `outside` is set when an element
behind one of the arrays is written, `exited` when the filter has called `exit`. -/
structure MgmtTable where
  pfd : Nat → MgmtEntry
  debuglevel : Nat → Int
  npfd : Nat
  start : Nat
  outside : Bool
  exited : Bool

def shiftDown {α : Type} (a : Nat → α) (i n : Nat) : Nat → α := fun j => if i ≤ j ∧ j + 1 < n then a (j + 1) else a j

/-- `newmgmtconn`; `new` is what `accept` returns, if it does not fail. -/
def newmgmtconn (new : Option Int) (s : MgmtTable) : MgmtTable :=
  match new with
  | none => s
  | some fd =>
    if s.npfd < NPFD then
      { s with
        pfd := update s.pfd s.npfd { s.pfd s.npfd with fd := fd }
        debuglevel := update s.debuglevel s.npfd 0
        npfd := s.npfd + 1 }
    else s

/-- The descriptors and the debug levels behind the connection are moved down. -/
def delmgmtconn (i : Nat) (s : MgmtTable) : MgmtTable :=
  if i < s.npfd then
    -- close stdin implies exit
    if (s.pfd i).fd = 0 then { s with exited := true }
    else
      let pfd := shiftDown s.pfd i s.npfd
      { s with
        pfd := update pfd s.npfd { pfd s.npfd with fd := -1 }
        debuglevel := update (shiftDown s.debuglevel i s.npfd) s.npfd 0
        npfd := s.npfd - 1
        outside := s.outside || decide (NPFD ≤ s.npfd) }
  else s

def hangupLoop : Nat → Nat → MgmtTable → MgmtTable
  | 0, _, s => s
  | turns + 1, i, s =>
    if i < s.npfd ∧ s.exited = false then
      hangupLoop turns (i + 1) (if (s.pfd i).hup then delmgmtconn i s else s)
    else s

/-- The hang-ups that `poll` and the commands of a turn have reported. -/
def hangups (hup : Nat → Bool) (s : MgmtTable) : MgmtTable :=
  hangupLoop s.npfd s.start { s with pfd := fun i => { s.pfd i with hup := hup i } }

/-- `outfd` in `mgmtcommand`: answers to stdin go to stdout. -/
def outputFd (fd : Int) : Int := if fd = 0 then 1 else fd

def toChar (n : Int) : Int := Int.bmod n 256

def setmarkovDebug (fd n : Int) (s : MgmtTable) : MgmtTable :=
  if 0 ≤ fd ∧ 0 ≤ n then
    let fd := if fd = 1 then 0 else fd
    match (List.range NPFD).find? (fun i => (s.pfd i).fd == fd) with
    | some i => { s with debuglevel := update s.debuglevel i (toChar n) }
    | none => s
  else s

def printed (s : MgmtTable) : List Int :=
  ((List.range NPFD).filter (fun j => 0 < s.debuglevel j)).map (fun j => outputFd (s.pfd j).fd)

inductive MgmtEvent where
  | accept (new : Option Int)
  | del (i : Nat)
  | hangups (hup : Nat → Bool)
  -- a debug command from the connection of entry `i`
  | debug (i : Nat) (n : Int)

def mgmtStep (s : MgmtTable) : MgmtEvent → MgmtTable
  | .accept new => newmgmtconn new s
  | .del i => delmgmtconn i s
  | .hangups hup => hangups hup s
  | .debug i n => setmarkovDebug (outputFd (s.pfd i).fd) n s

/-- The filter is running; a new connection has a descriptor that is not in use, as those of stdin, stdout and
stderr are; connections are closed and give commands as entries of their own. -/
def MgmtEvent.Legal (s : MgmtTable) (e : MgmtEvent) : Prop :=
  s.exited = false ∧ match e with
    | .accept new => ∀ fd, new = some fd → 2 < fd ∧ ∀ i < s.npfd, (s.pfd i).fd ≠ fd
    | .del i => s.start ≤ i
    | .hangups _ => True
    | .debug i _ => s.start ≤ i ∧ i < s.npfd

def mgmtMachine : Machine MgmtTable MgmtEvent := ⟨fun s e => e.Legal s, mgmtStep⟩

/-- The table when the main loop begins: the descriptors in use are different ones, none is stdout or stderr,
and nobody has asked for debugging. -/
structure MgmtStart (s : MgmtTable) : Prop where
  fits : s.npfd ≤ NPFD
  order : s.start ≤ s.npfd
  used : ∀ i < s.npfd, 0 ≤ (s.pfd i).fd ∧ (s.pfd i).fd ≠ 1
  apart : ∀ i < s.npfd, ∀ j < s.npfd, (s.pfd i).fd = (s.pfd j).fd → i = j
  free : ∀ i, s.npfd ≤ i → (s.pfd i).fd = -1
  quiet : ∀ i, s.debuglevel i = 0
  inside : s.outside = false
  running : s.exited = false

end Vde
