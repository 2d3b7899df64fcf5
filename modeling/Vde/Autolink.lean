import Vde.HashTable
import Vde.Lib.Machine
import Vde.Lib.NextChain

/-!
# vde_autolink

The queue of the scheduled jobs and the table of the links. Both are lists of records on the heap.
-/

namespace Vde.Alink

/-! ## Jobs -/

/-- What a job does. -/
inductive Task where
  | alinkTry
  | alinkCheck
  deriving DecidableEq

/-- `struct job` without its link; `al` is the address of a link. -/
structure Job where
  f : Task
  al : Nat
  time : Int
  deriving DecidableEq

/-- The jobs; `head` is `jq`. -/
abbrev JobHeap := LinkedHeap Job

def removeLoop (al : Nat) : Nat → Nat → Nat → JobHeap → Option JobHeap
  | 0, _, _, _ => none
  | turns + 1, j, pj, s =>
    if j = 0 then some s
    else do
      let job ← s.load j
      let s ← if job.val.al = al then
          (if s.head = j then some { s with head := job.next } else s.setNext pj job.next).bind (·.free j)
        else some s
      let job ← s.load j
      removeLoop al turns job.next j s

def placeLoop (nj : Nat) (s : JobHeap) : Option JobHeap := do
  let (j, pj) ← s.seek (fun j => decide ((s.val j).time > (s.val nj).time)) s.turns s.head s.head
  if j = 0 then some s
  else (if s.head = j then some { s with head := nj } else s.setNext pj nj).bind (·.setNext nj j)

def insertJob (now : Int) (nj : Nat) (f : Task) (al gap : Nat) (s : JobHeap) : Option JobHeap := do
  let s ← removeLoop al s.turns s.head s.head s
  let s ← (s.malloc nj).store nj ⟨⟨f, al, now + gap⟩, 0⟩
  if s.head = 0 then return { s with head := nj }
  else placeLoop nj s

def extractJob (s : JobHeap) : Option (JobHeap × Nat) :=
  (s.load s.head).map fun job => ({ s with head := job.next }, s.head)

inductive JobEvent where
  | insertJob (now : Int) (nj : Nat) (f : Task) (al gap : Nat)
  | extractJob
  | free (j : Nat)

/-- The queue, the last reading of the clock, the records that `extract_job` has returned, and whether a call has had no
result. -/
structure JobRun where
  heap : JobHeap
  clock : Int
  extracted : List Nat
  fault : Bool

def jobStep (s : JobRun) : JobEvent → JobRun
  | .insertJob now nj f al gap =>
    match insertJob now nj f al gap s.heap with
    | some heap => { s with heap := heap, clock := now }
    | none => { s with fault := true }
  | .extractJob =>
    match extractJob s.heap with
    | some (heap, j) => { s with heap := heap, extracted := j :: s.extracted }
    | none => { s with fault := true }
  | .free j =>
    match s.heap.free j with
    | some heap => { s with heap := heap, extracted := s.extracted.filter fun a => a != j }
    | none => { s with fault := true }

/-- The clock does not go back, `malloc` returns a record that is not in use, a job is extracted from a queue that is not
empty and freed after that. -/
def JobEvent.Legal (s : JobRun) : JobEvent → Prop
  | .insertJob now nj _ _ _ => s.clock ≤ now ∧ nj ≠ 0 ∧ nj ∉ s.heap.allocated
  | .extractJob => s.heap.head ≠ 0
  | .free j => j ∈ s.extracted

def jobMachine : Machine JobRun JobEvent := ⟨fun s e => e.Legal s, jobStep⟩

def jobInit (clock : Int) : JobRun := ⟨⟨fun _ => ⟨⟨.alinkTry, 0, 0⟩, 0⟩, [], 0⟩, clock, [], false⟩

/-! ## Links -/

def CHANGEWIRETIME : Int := 8

def SLEEPWIRETIME : Int := 30

structure Alwire where
  addr : Nat
  type : List UInt8
  lastTry : Int
  oldtry : Int
  deriving DecidableEq

/-- `struct autolink` without its link. A host is at its place in the text that `strdup` has copied, and has a list of
wires. -/
structure Autolink where
  name : List UInt8
  hosts : List (Nat × List UInt8)
  portno : Nat
  enabled : Bool
  connhost : Nat
  connwire : Nat
  wires : List (List Alwire)
  deriving DecidableEq

/-- The links; `head` is `alinks`. -/
abbrev LinkHeap := LinkedHeap Autolink

def firstWire : List Alwire → Nat
  | [] => 0
  | w :: _ => w.addr

def wireAt (a : Nat) : List Alwire → Option (Alwire × Option Alwire)
  | [] => none
  | w :: ws => if w.addr = a then some (w, ws.head?) else wireAt a ws

namespace Autolink

def wire (a : Nat) (al : Autolink) : Option (Alwire × Option Alwire) := al.wires.findSome? (wireAt a)

def mark (now : Int) (al : Autolink) : Autolink :=
  { al with wires := al.wires.map fun ws => ws.map fun w =>
      if w.addr = al.connwire then { w with oldtry := w.lastTry, lastTry := now } else w }

/-- `alink_try` turns to the next wire. -/
def move (behind : Option Alwire) (al : Autolink) : Option Autolink :=
  match behind with
  | some w => some { al with connwire := w.addr }
  | none =>
    let connhost := if al.connhost + 1 < al.hosts.length then al.connhost + 1 else 0
    (al.wires[connhost]?).map fun ws => { al with connhost := connhost, connwire := firstWire ws }

def alinkTry (now : Int) (al : Autolink) : Option Autolink := do
  let (w, behind) ← al.wire al.connwire
  if w.lastTry > now - CHANGEWIRETIME then
    let al ← al.move behind
    let (w, _) ← al.wire al.connwire
    if w.oldtry > now - SLEEPWIRETIME then return al
    else return al.mark now
  else return al.mark now

end Autolink

abbrev Outcome := LinkHeap × Errno

def splitArg (arg : List UInt8) : Option (List UInt8 × List UInt8) :=
  let name := arg.takeWhile fun c => c != 32
  let text := (arg.drop name.length).tail
  if name = [] ∨ text = [] then none else some (name, text)

def findAlink (name : List UInt8) (s : LinkHeap) : Option Nat := s.search fun a => (s.val a).name == name

def withAlink (arg : List UInt8) (s : LinkHeap) (f : Nat → List UInt8 → Option Outcome) : Option Outcome :=
  match splitArg arg with
  | none => some (s, .einval)
  | some (name, text) => (findAlink name s).bind fun a => if a = 0 then some (s, .enxio) else f a text

/-- `alinklinkonoff` at the time `now`; `scan` is the conversion `%i` of `sscanf`, which comes before the search. -/
def alinklinkonoff (scan : List UInt8 → Option Int) (now : Int) (arg : List UInt8) (s : LinkHeap) : Option Outcome :=
  if (splitArg arg).any fun r => (scan r.2).isNone then some (s, .einval)
  else withAlink arg s fun a text =>
    let al := s.val a
    if scan text ≠ some 0 then
      if al.enabled then some (s, .ok)
      else do
        let ws ← al.wires[0]?
        let al ← { al with enabled := true, connwire := firstWire ws }.alinkTry now
        (s.setVal a al).map fun s => (s, .ok)
    else if al.enabled then (s.setVal a { al with enabled := false, connwire := 0 }).map fun s => (s, .ok)
    else some (s, .ok)

def delType (type : List UInt8) : List (List Alwire) → Option (List (List Alwire))
  | [] => none
  | ws :: rest =>
    if ws.any fun w => w.type == type then some (ws.eraseP (fun w => w.type == type) :: rest)
    else (delType type rest).map (ws :: ·)

def alinkdeltypelink (arg : List UInt8) (s : LinkHeap) : Option Outcome :=
  withAlink arg s fun a type =>
    let al := s.val a
    if al.enabled then some (s, .einval)
    else do
      let ws ← al.wires[0]?
      if ws = [] then some (s, .einval)
      else
        match delType type al.wires with
        | none => some (s, .einval)
        | some wires => (s.setVal a { al with wires := wires }).map fun s => (s, .ok)

def alinkaddtypelink (avWires : List (List UInt8)) (ptrs : List Nat) (arg : List UInt8) (s : LinkHeap) :
    Option Outcome :=
  withAlink arg s fun a type =>
    let al := s.val a
    if al.enabled then some (s, .einval)
    else if type ∉ avWires then some (s, .enxio)
    else do
      let ws ← al.wires[0]?
      if ws.any fun w => w.type == type then some (s, .einval)
      else
        (s.setVal a { al with wires := al.wires.zipWith (fun ws p => ws ++ [⟨p, type, 0, 0⟩]) ptrs }).map
          fun s => (s, .ok)

/-- `alinkdellink`. Only the host at the start of the copied text can be freed. -/
def alinkdellink (arg : List UInt8) (s : LinkHeap) : Option Outcome := do
  let (cur, prev) ← s.seek (fun a => (s.val a).name == arg) s.turns s.head s.head
  if cur = 0 then some (s, .einval)
  else if (s.val cur).enabled then some (s, .einval)
  else
    (if s.head = cur then some { s with head := s.next cur } else s.setNext prev (s.next cur)).bind fun s' =>
      if (s.val cur).hosts.all fun h => h.1 == 0 then (s'.free cur).map fun s => (s, .ok) else none

/-- The tokens of `strtok` with their places; `token` is what is read of one, up to the place `k`. -/
def strtok (k : Nat) (token : List UInt8) : List UInt8 → List (Nat × List UInt8)
  | [] => if token = [] then [] else [(k - token.length, token)]
  | c :: text =>
    if c = 32 then (if token = [] then [] else [(k - token.length, token)]) ++ strtok (k + 1) [] text
    else strtok (k + 1) (token ++ [c]) text

/-- The link that `alinkaddlink` creates. A port that could not be reserved is the `unsigned int` of `-1`, which is
never negative. -/
def newLink (name text : List UInt8) (port : Option Nat) : Autolink :=
  let hosts := strtok 0 [] text
  ⟨name, hosts, port.getD 4294967295, false, 0, 0, hosts.map fun _ => []⟩

def appendLink (ptr : Nat) (s : LinkHeap) : Option LinkHeap :=
  if s.head = 0 then some { s.malloc ptr with head := ptr }
  else (s.search fun a => s.next a == 0).bind fun last => (s.malloc ptr).setNext last ptr

/-- `alinkaddlink`; `port` is what `port_reserve` returns, and `malloc` returns `ptr`. -/
def alinkaddlink (port : Option Nat) (ptr : Nat) (arg : List UInt8) (s : LinkHeap) : Option Outcome :=
  match splitArg arg with
  | none => some (s, .einval)
  | some (name, text) => do
    let found ← findAlink name s
    if found ≠ 0 then some (s, .einval)
    else
      (appendLink ptr s).bind fun s => (s.store ptr ⟨newLink name text port, 0⟩).map fun s => (s, .ok)

def runTry (now : Int) (a : Nat) (s : LinkHeap) : Option Outcome := do
  let found ← s.search fun b => b == a
  if found ≠ 0 ∧ (s.val found).enabled then
    let al ← (s.val found).alinkTry now
    (s.setVal found al).map fun s => (s, .ok)
  else some (s, .ok)

inductive LinkEvent where
  | alinkaddlink (port : Option Nat) (ptr : Nat) (arg : List UInt8)
  | alinkaddtypelink (avWires : List (List UInt8)) (ptrs : List Nat) (arg : List UInt8)
  | alinkdeltypelink (arg : List UInt8)
  | alinkdellink (arg : List UInt8)
  | alinklinkonoff (now : Int) (arg : List UInt8)
  | alinkTry (now : Int) (al : Nat)

def LinkEvent.outcome (scan : List UInt8 → Option Int) (s : LinkHeap) : LinkEvent → Option Outcome
  | .alinkaddlink port ptr arg => Alink.alinkaddlink port ptr arg s
  | .alinkaddtypelink avWires ptrs arg => Alink.alinkaddtypelink avWires ptrs arg s
  | .alinkdeltypelink arg => Alink.alinkdeltypelink arg s
  | .alinkdellink arg => Alink.alinkdellink arg s
  | .alinklinkonoff now arg => Alink.alinklinkonoff scan now arg s
  | .alinkTry now al => runTry now al s

/-- What `malloc` returns is not in use, and it returns as many wires as there are hosts. -/
def LinkEvent.Legal (s : LinkHeap) : LinkEvent → Prop
  | .alinkaddlink _ ptr _ => ptr ≠ 0 ∧ ptr ∉ s.allocated
  | .alinkaddtypelink _ ptrs arg => ptrs.Nodup ∧ 0 ∉ ptrs ∧
      (∀ a ∈ s.allocated, ∀ ws ∈ (s.val a).wires, ∀ w ∈ ws, w.addr ∉ ptrs) ∧
      ∀ r ∈ splitArg arg, ∀ a ∈ findAlink r.1 s, ptrs.length = (s.val a).hosts.length
  | _ => True

structure LinkRun where
  heap : LinkHeap
  fault : Bool

def linkStep (scan : List UInt8 → Option Int) (s : LinkRun) (e : LinkEvent) : LinkRun :=
  match e.outcome scan s.heap with
  | some (heap, _) => { s with heap := heap }
  | none => { s with fault := true }

def linkMachine (scan : List UInt8 → Option Int) : Machine LinkRun LinkEvent := ⟨fun s e => e.Legal s.heap, linkStep scan⟩

def linkInit : LinkRun := ⟨⟨fun _ => ⟨newLink [] [] none, 0⟩, [], 0⟩, false⟩

end Vde.Alink
