import Mathlib.Logic.Function.Basic
import Vde.Lib.Machine

/-!
# The types of descriptors

`fdtypes` maps a type number to the module that handles descriptors of the type; a free slot is
`NULL`. `add_type` doubles the array when it is full, `del_type` frees a slot.
-/

namespace Vde

/-- `fdtypes` with its two counters. A manager is the address of a module. -/
structure TypeTable where
  fdtypes : Nat → Option Nat
  ntypes : Nat
  maxtypes : Nat

structure ByteRange where
  off : Nat
  len : Nat
  deriving DecidableEq, Repr

/-- `sizeof(struct swmodule *)`. -/
def pointerSize : Nat := 8

def typeNumber (type : BitVec 8) : Nat := (type &&& 0x7f#8).toNat

def typeOf (i : Nat) (prio : Bool) : BitVec 8 := BitVec.ofNat 8 i ||| (if prio then 0x80#8 else 0#8)

def storeType (i mgr : Nat) (prio : Bool) (written : List ByteRange) (t : TypeTable) :
    TypeTable × BitVec 8 × List ByteRange :=
  ({ t with fdtypes := Function.update t.fdtypes i (some mgr), ntypes := t.ntypes + 1 },
    typeOf i prio, written ++ [⟨pointerSize * i, pointerSize⟩])

/-- `add_type`: the table, the type returned and the bytes written. There is no result if the
program exits for too many types or if no slot is found. -/
def addType (mgr : Nat) (prio : Bool) (t : TypeTable) : Option (TypeTable × BitVec 8 × List ByteRange) :=
  if t.ntypes = t.maxtypes then
    let maxtypes := if t.maxtypes ≠ 0 then 2 * t.maxtypes else 8
    if 0x80 < maxtypes then none
    else
      -- `memset(fdtypes+ntypes,0,sizeof(struct swmodule *) * maxtypes-ntypes)`
      let cleared : ByteRange := ⟨pointerSize * t.ntypes, pointerSize * maxtypes - t.ntypes⟩
      let fdtypes := fun k =>
        if cleared.off ≤ pointerSize * k ∧ pointerSize * (k + 1) ≤ cleared.off + cleared.len then none
        else t.fdtypes k
      some (storeType t.ntypes mgr prio [cleared] { t with fdtypes := fdtypes, maxtypes := maxtypes })
  else
    match (List.range t.maxtypes).find? (fun i => t.fdtypes i == none) with
    | some i => some (storeType i mgr prio [] t)
    | none => none

def delType (type : BitVec 8) (t : TypeTable) : TypeTable :=
  { t with
    fdtypes := if typeNumber type < t.maxtypes then Function.update t.fdtypes (typeNumber type) none
      else t.fdtypes
    ntypes := t.ntypes - 1 }

/-- The table, the types returned and not deleted since with their managers, and whether the
program has stopped. -/
structure TypeRun where
  table : TypeTable
  live : List (BitVec 8 × Nat)
  stopped : Bool

inductive TypeEvent where
  | add (mgr : Nat) (prio : Bool)
  | del (type : BitVec 8)
  deriving DecidableEq, Repr

def typeStep (s : TypeRun) : TypeEvent → TypeRun
  | .add mgr prio =>
    match addType mgr prio s.table with
    | some r => { table := r.1, live := s.live ++ [(r.2.1, mgr)], stopped := s.stopped }
    | none => { s with stopped := true }
  | .del type =>
    { s with table := delType type s.table, live := s.live.filter (fun p => p.1 != type) }

def typeEnabled (s : TypeRun) : TypeEvent → Prop
  | .add _ _ => s.stopped = false
  | .del type => s.stopped = false ∧ type ∈ s.live.map Prod.fst

def typeMachine : Machine TypeRun TypeEvent := ⟨typeEnabled, typeStep⟩

def typeRunInit : TypeRun := ⟨⟨fun _ => none, 0, 0⟩, [], false⟩

end Vde
