import Mathlib.Logic.Function.Basic

/-!
# The poll tables of the switch

`fds` is the array given to `poll`, `fdpp` the parallel array of pointers to the records of the
descriptors, and `fdperm` maps a descriptor back to its index. Priority descriptors are kept in
front, and the main loop lets the descriptors used last migrate towards the head.
-/

namespace Vde

open Function

structure PollFd where
  fd : Nat
  events : BitVec 16
  revents : BitVec 16
  deriving DecidableEq

/-- `struct pollplus`; a private data pointer is an address, 0 for `NULL`. -/
structure PollPlus where
  type : BitVec 8
  privateData : Nat
  timestamp : Int
  deriving DecidableEq

/-- The variables of the descriptor management. `pp` is the heap of `pollplus` records, where a
free address holds `none`. -/
structure PollTable where
  nfds : Nat
  nprio : Nat
  maxfds : Nat
  fds : Nat → PollFd
  fdpp : Nat → Nat
  pp : Nat → Option PollPlus
  fdperm : Nat → Int
  fdpermsize : Nat

def isPrio (type : BitVec 8) : Bool := type &&& 0x80#8 != 0#8

def pollInHup : BitVec 16 := 0x0001#16 ||| 0x0010#16

def toShort (n : Nat) : Int := (n : Int).bmod 65536

/-- The tables before the first descriptor is added. The arrays have no elements yet, so their
contents do not matter. -/
def pollTableInit : PollTable where
  nfds := 0
  nprio := 0
  maxfds := 0
  fds := fun _ => ⟨0, 0, 0⟩
  fdpp := fun _ => 0
  pp := fun _ => none
  fdperm := fun _ => 0
  fdpermsize := 0

def PollTable.prioAt (t : PollTable) (i : Nat) : Bool :=
  (t.pp (t.fdpp i)).any (fun r => isPrio r.type)

def PollTable.timestampAt (t : PollTable) (i : Nat) : Int :=
  ((t.pp (t.fdpp i)).map PollPlus.timestamp).getD 0

/-- `add_fd`; `a` is the address `malloc` returns for the new record. -/
def addFd (fd : Nat) (type : BitVec 8) (privateData a : Nat) (t : PollTable) : PollTable :=
  let maxfds := if t.nfds = t.maxfds then (if t.maxfds ≠ 0 then t.maxfds + 16 else 8) else t.maxfds
  let fdpermsize := if t.fdpermsize ≤ fd then ((fd >>> 4) + 1) <<< 4 else t.fdpermsize
  -- a priority descriptor takes the place of the first ordinary one, which moves to the end
  let index := if isPrio type then t.nprio else t.nfds
  let fds := if isPrio type then update t.fds t.nfds (t.fds t.nprio) else t.fds
  let fdpp := if isPrio type then update t.fdpp t.nfds (t.fdpp t.nprio) else t.fdpp
  { nfds := t.nfds + 1
    nprio := if isPrio type then t.nprio + 1 else t.nprio
    maxfds := maxfds
    fds := update fds index { fds index with fd := fd, events := pollInHup }
    fdpp := update fdpp index a
    pp := update t.pp a (some ⟨type, privateData, 0⟩)
    fdperm := update t.fdperm fd (toShort index)
    fdpermsize := fdpermsize }

def findFd (t : PollTable) (fd : Nat) : Option Nat :=
  (List.range t.nfds).find? (fun i => (t.fds i).fd == fd)

def closeGap {α : Type} (x : Nat → α) (i n : Nat) : Nat → α :=
  fun j => if i ≤ j ∧ j < n - 1 then x (j + 1) else x j

/-- The loop `for (; i < nfds; i++) fdperm[fds[i].fd] = i`, with `count` turns left. -/
def renumber (fds : Nat → PollFd) : Nat → Nat → (Nat → Int) → (Nat → Int)
  | _, 0, perm => perm
  | i, count + 1, perm =>
    renumber fds (i + 1) count (update perm (fds i).fd (toShort i))

/-- `remove_fd`. The clean-up of the module that owns the descriptor touches none of the
tables. -/
def removeFd (fd : Nat) (t : PollTable) : PollTable :=
  match findFd t fd with
  | none => t
  | some i =>
    let fds := closeGap t.fds i t.nfds
    { t with
      nfds := t.nfds - 1
      nprio := if t.prioAt i then t.nprio - 1 else t.nprio
      fds := fds
      fdpp := closeGap t.fdpp i t.nfds
      pp := update t.pp (t.fdpp i) none
      fdperm := renumber fds i (t.nfds - i) t.fdperm }

def swapAt {α : Type} (x : Nat → α) (i j : Nat) : Nat → α :=
  update (update x i (x j)) j (x i)

/-- What the main loop does at an idle index (`OPTPOLL`): a descriptor used more recently than
the one before it moves one place forward. -/
def optPoll (i : Nat) (t : PollTable) : PollTable :=
  if i < t.nfds ∧ 0 < i ∧ i ≠ t.nprio ∧ t.timestampAt (i - 1) < t.timestampAt i then
    let fds := swapAt t.fds i (i - 1)
    { t with
      fds := fds
      fdpp := swapAt t.fdpp i (i - 1)
      fdperm := update (update t.fdperm (fds i).fd (toShort i))
        (fds (i - 1)).fd (toShort (i - 1)) }
  else t

/-- What the main loop does at a ready index before it calls the handler. -/
def stampReady (i : Nat) (now : Int) (t : PollTable) : PollTable :=
  let a := t.fdpp i
  { t with pp := update t.pp a ((t.pp a).map (fun r => { r with timestamp := now })) }

def pollResult (revents : Nat → BitVec 16) (t : PollTable) : PollTable :=
  { t with fds := fun i => { t.fds i with revents := revents i } }

def mainloopSetPrivateData (fd privateData : Nat) (t : PollTable) : PollTable :=
  if fd < t.fdpermsize then
    let a := t.fdpp (t.fdperm fd).toNat
    let r := (t.pp a).map (fun r => { r with privateData := privateData })
    { t with pp := update t.pp a r }
  else t

def mainloopPollmask (f : BitVec 16 → BitVec 16) (fd : Nat) (t : PollTable) : PollTable :=
  let i := (t.fdperm fd).toNat
  { t with fds := update t.fds i { t.fds i with events := f (t.fds i).events } }

def mainloopPollmaskAdd (fd : Nat) (events : BitVec 16) : PollTable → PollTable :=
  mainloopPollmask (fun e => e ||| events) fd

def mainloopPollmaskDel (fd : Nat) (events : BitVec 16) : PollTable → PollTable :=
  mainloopPollmask (fun e => e &&& ~~~events) fd

/-! ## A pass of the main loop

After `poll` the table is scanned from its head until as many ready descriptors have been found as
`poll` has reported. The handler of a ready one is called; an idle one may change places with the
one before it.
-/

structure IoCall where
  type : BitVec 8
  fd : Nat
  revents : BitVec 16
  privateData : Nat
  deriving DecidableEq

/-- The call for index `i`; there is none if its record is gone. -/
def ioCall (t : PollTable) (i : Nat) : Option IoCall :=
  (t.pp (t.fdpp i)).map (fun r => ⟨r.type, (t.fds i).fd, (t.fds i).revents, r.privateData⟩)

/-- What a scan has done: the table, the calls of handlers, and the indices that changed places with
the one before them. -/
structure MainScan where
  table : PollTable
  calls : List IoCall
  swaps : List Nat

def optSwaps (i : Nat) (t : PollTable) : Bool :=
  i < t.nfds ∧ 0 < i ∧ i ≠ t.nprio ∧ t.timestampAt (i - 1) < t.timestampAt i

def PollTable.ready (t : PollTable) (i : Nat) : Bool := (t.fds i).revents != 0#16

/-- The scan of `main_loop` from index `i` on with `n` ready descriptors still to be found; it has no
result if it reads behind the descriptors. A handler may do anything with the table; it is given
all calls so far, the last of them its own. -/
def mainScan (handler : List IoCall → PollTable → PollTable) (now : Int) :
    Nat → Nat → Int → MainScan → Option MainScan
  | 0, _, _, _ => none
  | fuel + 1, i, n, s =>
    if 0 < n then
      if i < s.table.nfds then
        if s.table.ready i then do
          let call ← ioCall s.table i
          let calls := s.calls ++ [call]
          let table := handler calls (stampReady i now s.table)
          let s' : MainScan := { s with table := table, calls := calls }
          if table.nfds ≠ s.table.nfds then some s'
          else mainScan handler now fuel (i + 1) (n - 1) s'
        else
          let swaps := if optSwaps i s.table then s.swaps ++ [i] else s.swaps
          mainScan handler now fuel (i + 1) n { s with table := optPoll i s.table, swaps := swaps }
      else none
    else some s

def readyCount (t : PollTable) : Nat := (List.range t.nfds).countP t.ready

def mainPass (handler : List IoCall → PollTable → PollTable) (now : Int) (fuel : Nat)
    (revents : Nat → BitVec 16) (t : PollTable) : Option MainScan :=
  let t := pollResult revents t
  mainScan handler now fuel 0 (readyCount t) ⟨t, [], []⟩

end Vde
