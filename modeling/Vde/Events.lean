import Mathlib.Data.Finset.Insert
import Mathlib.Data.Finset.Erase
import Vde.Lib.Block
import Vde.Lib.Machine

/-!
# Functions registered for events

A debug category has the functions that are called when its event happens, in one array, and the
argument of each in another. A function is registered for all categories whose path begins with a
given one. Functions and arguments are addresses.
-/

namespace Vde

/-- The fields of `struct dbgcl` that these functions use; `funs` is the field `fun`. -/
structure DbgCl where
  path : List UInt8
  funs : Block Nat
  funarg : Block Nat
  nfun : Nat
  maxfun : Nat

def dbgclStep : Nat := 8

def toUShort (n : Nat) : Nat := n % 65536

inductive EventResult where
  | ok
  | einval
  | eexist
  | enoent
  | enomem
  deriving DecidableEq, Repr

/-- What two calls of `realloc` have to give: the former contents of fresh memory, or nothing if
there is none left. -/
structure EventMem where
  funs : Option (Nat → Nat)
  funarg : Option (Nat → Nat)

def reallocPointers (b : Block Nat) (bytes : Nat) : Option (Nat → Nat) → Block Nat
  | some fresh => b.realloc (bytes / 8) fresh
  | none => ⟨0, fun _ => 0⟩

def searchFrom (stop : Nat → Option Bool) : Nat → Nat → Option Nat
  | 0, i => some i
  | left + 1, i => do
    let found ← stop i
    if found then some i else searchFrom stop left (i + 1)

/-- The function is looked for without its argument; a new one is stored behind the others, which are moved if they are
as many as there is room for. -/
def addFun (fn arg : Nat) (mem : EventMem) (rv : EventResult) (cl : DbgCl) :
    Option (EventResult × DbgCl) := do
  let rv := if rv = .einval then .eexist else rv
  let i ← searchFrom (fun i => (cl.funs.load i).map (· == fn)) cl.nfun 0
  if cl.nfun ≤ i then
    let rvDone := if rv = .enomem then rv else .ok
    if cl.maxfun ≤ i then
      let newsize := cl.maxfun + dbgclStep
      -- `newsize*sizeof(int)` for the functions, `newsize*sizeof(void *)` for the arguments
      let funs := reallocPointers cl.funs (newsize * 4) mem.funs
      let funarg := reallocPointers cl.funarg (newsize * 8) mem.funarg
      if mem.funs.isSome ∧ mem.funarg.isSome then
        let funs ← funs.store i fn
        let funarg ← funarg.store i arg
        some (rvDone, { cl with
          funs := funs, funarg := funarg, nfun := toUShort (cl.nfun + 1), maxfun := toUShort newsize })
      else some (.enomem, { cl with funs := funs, funarg := funarg })
    else
      let funs ← cl.funs.store i fn
      some (rvDone, { cl with funs := funs, nfun := toUShort (cl.nfun + 1) })
  else some (rv, cl)

/-- The loop stops at the first entry that has the function or the argument. -/
def delFun (fn arg : Nat) (rv : EventResult) (cl : DbgCl) : Option (EventResult × DbgCl) := do
  let rv := if rv = .einval then .enoent else rv
  let stop := fun i => do
    let f ← cl.funs.load i
    if f ≠ fn then
      let a ← cl.funarg.load i
      some (a == arg)
    else some true
  let i ← searchFrom stop cl.nfun 0
  if i < cl.nfun then
    let last ← cl.funs.load (cl.nfun - 1)
    let funs ← cl.funs.store i last
    some (.ok, { cl with funs := funs, nfun := cl.nfun - 1 })
  else some (rv, cl)

def ifPath (path : List UInt8) (body : EventResult → DbgCl → Option (EventResult × DbgCl))
    (rv : EventResult) (cl : DbgCl) : Option (EventResult × DbgCl) :=
  if path.isPrefixOf cl.path then body rv cl else some (rv, cl)

/-- The loop over the categories whose paths begin with `path`; `k` counts the categories. -/
def forPath (path : List UInt8) (body : Nat → EventResult → DbgCl → Option (EventResult × DbgCl)) :
    Nat → EventResult → List DbgCl → Option (EventResult × List DbgCl)
  | _, rv, [] => some (rv, [])
  | k, rv, cl :: cls => do
    let r ← ifPath path (body k) rv cl
    let rest ← forPath path body (k + 1) r.1 cls
    some (rest.1, r.2 :: rest.2)

def eventadd (fn : Nat) (path : List UInt8) (arg : Nat) (mem : Nat → EventMem) (cls : List DbgCl) :
    Option (EventResult × List DbgCl) :=
  forPath path (fun k => addFun fn arg (mem k)) 0 .einval cls

def eventdel (fn : Nat) (path : List UInt8) (arg : Nat) (cls : List DbgCl) :
    Option (EventResult × List DbgCl) :=
  forPath path (fun _ => delFun fn arg) 0 .einval cls

def registeredAt (cl : DbgCl) (i : Nat) : Option (Nat × Nat) := do
  let fn ← cl.funs.load i
  let arg ← cl.funarg.load i
  some (fn, arg)

def callsFrom (cl : DbgCl) : Nat → Nat → Option (List (Nat × Nat))
  | 0, _ => some []
  | left + 1, i => do
    let call ← registeredAt cl i
    let rest ← callsFrom cl left (i + 1)
    some (call :: rest)

def eventout (cl : DbgCl) : Option (List (Nat × Nat)) := callsFrom cl cl.nfun 0

/-- The loop of `packetfilter` from index `i` on: the calls and the length at its end. The function
at index `i` returns `returns i`. -/
def filterFrom (cl : DbgCl) (returns : Nat → Int) : Nat → Nat → Int → Option (List (Nat × Nat) × Int)
  | 0, _, len => some ([], len)
  | left + 1, i, len =>
    if 0 < len then do
      let call ← registeredAt cl i
      let rest ← filterFrom cl returns left (i + 1) (if returns i ≠ 0 then returns i else len)
      some (call :: rest.1, rest.2)
    else some ([], len)

def packetfilter (cl : DbgCl) (len : Int) (returns : Nat → Int) : Option (List (Nat × Nat) × Int) := do
  let r ← filterFrom cl returns cl.nfun 0 len
  some (r.1, if r.2 < 0 then 0 else r.2)

/-- The categories, the pairs added to each and not deleted since, and whether an access has been
outside of its array. -/
structure EventRun where
  cls : List DbgCl
  pairs : List (Finset (Nat × Nat))
  fault : Bool

inductive EventCall where
  | add (fn : Nat) (path : List UInt8) (arg : Nat) (mem : Nat → EventMem)
  | del (fn : Nat) (path : List UInt8) (arg : Nat)
  | out (k : Nat)
  | filter (k : Nat) (len : Int) (returns : Nat → Int)

def changePairs (path : List UInt8) (change : Finset (Nat × Nat) → Finset (Nat × Nat))
    (cls : List DbgCl) (pairs : List (Finset (Nat × Nat))) : List (Finset (Nat × Nat)) :=
  List.zipWith (fun cl ps => if path.isPrefixOf cl.path then change ps else ps) cls pairs

/-- The state after a call that left the categories as `r` says. -/
def eventDone (s : EventRun) (pairs : List (Finset (Nat × Nat))) :
    Option (EventResult × List DbgCl) → EventRun
  | some r => { s with cls := r.2, pairs := pairs }
  | none => { s with fault := true }

def eventStep (s : EventRun) : EventCall → EventRun
  | .add fn path arg mem =>
    eventDone s (changePairs path (insert (fn, arg)) s.cls s.pairs) (eventadd fn path arg mem s.cls)
  | .del fn path arg =>
    eventDone s (changePairs path (fun ps => ps.erase (fn, arg)) s.cls s.pairs)
      (eventdel fn path arg s.cls)
  | .out _ => s
  | .filter _ _ _ => s

def eventEnabled (s : EventRun) : EventCall → Prop
  | .add _ _ _ _ => True
  | .del _ _ _ => True
  | .out k => k < s.cls.length
  | .filter k _ _ => k < s.cls.length

def eventMachine : Machine EventRun EventCall := ⟨eventEnabled, eventStep⟩

/-- Categories as `adddbgcl` gets them: without functions. -/
def eventInit (paths : List (List UInt8)) : EventRun :=
  ⟨paths.map (fun path => ⟨path, ⟨0, fun _ => 0⟩, ⟨0, fun _ => 0⟩, 0, 0⟩), paths.map (fun _ => ∅), false⟩

end Vde
