import Vde.Cmdparse

/-!
# The events of libvdemgmt

A client registers a callback for an event and receives its messages, which the switch sends on the management
connection between the answers to commands. A receive machine takes one message from the connection in each of its runs.
-/

namespace Vde.Mgmt

open Cmd

def SKIPHEAD : Nat := 5

def ASYNTAG : Int := 3

def DEBUGADD : List UInt8 := bytes ['d', 'e', 'b', 'u', 'g', '/', 'a', 'd', 'd']

def DEBUGDEL : List UInt8 := bytes ['d', 'e', 'b', 'u', 'g', '/', 'd', 'e', 'l']

/-- `struct asynctab`; the list of the entries stands for the links, and a callback is known by its number. -/
structure Asynctab where
  event : List UInt8
  callback : Nat
  deriving DecidableEq

def atabFind : List Asynctab → List UInt8 → Option Asynctab
  | [], _ => none
  | t :: atab, event => if t.event.isPrefixOf event then some t else atabFind atab event

def atabAdd : List Asynctab → Asynctab → List Asynctab
  | [], new => [new]
  | t :: atab, new => t :: atabAdd atab new

def atabDel : List Asynctab → List UInt8 → List Asynctab
  | [], _ => []
  | t :: atab, event => if t.event.isPrefixOf event then atab else t :: atabDel atab event

/-! ## Commands -/

/-- A call of a callback: the entry, the `tag`, and the place of the data in the output buffer. -/
structure Call where
  entry : Asynctab
  tag : Int
  data : Int
  deriving DecidableEq

/-- The text behind the head of a message in an output buffer. -/
def eventText (buf : List UInt8) : List UInt8 := cString (buf.drop SKIPHEAD)

def sendcmdCalls (atab : List Asynctab) (rv : Int) (outs : List UtmOut) : List Call :=
  outs.filterMap fun p =>
    if p.tag = ASYNTAG then
      (atabFind atab (eventText p.buf)).map fun t => ⟨t, rv, t.event.length + SKIPHEAD + 1⟩
    else none

/-- The table, and the commands and the calls of callbacks so far. -/
structure Vdemgmt where
  atab : List Asynctab
  sent : List (List UInt8)
  calls : List Call

/-- `vdemgmt_sendcmd`, when it comes back: `rv` is the answer to the command, and `outs` what has been received until
then. -/
def sendcmd (conn : Vdemgmt) (cmd : List UInt8) (rv : Int) (outs : List UtmOut) : Vdemgmt :=
  { conn with sent := conn.sent ++ [cmd], calls := conn.calls ++ sendcmdCalls conn.atab rv outs }

/-! ## Registrations -/

/-- What `vdemgmt_asyncreg` finds: whether `asprintf` has memory, the answer to the command with what was received
until then, and whether `malloc` and `strdup` have memory. -/
structure RegFound where
  printed : Bool
  rv : Int
  outs : List UtmOut
  alloc : Bool
  dup : Bool

/-- `vdemgmt_asyncreg`. Without memory for the copy of the event the new entry has a `NULL` event. Then there is no
table left: each search that comes to the entry reads through it, and so does `vdemgmt_close`. -/
def asyncreg (conn : Vdemgmt) (event : List UInt8) (callback : Nat) (found : RegFound) : Int × Option Vdemgmt :=
  if (atabFind conn.atab event).isSome then (-1, some conn)
  else if !found.printed then (-1, some conn)
  else
    let conn := sendcmd conn (DEBUGADD ++ 32 :: event) found.rv found.outs
    if found.rv ≠ 0 then (found.rv, some conn)
    else if !found.alloc then (found.rv, some conn)
    else if !found.dup then (0, none)
    else (0, some { conn with atab := atabAdd conn.atab ⟨event, callback⟩ })

/-- What `vdemgmt_asyncunreg` finds. -/
structure UnregFound where
  printed : Bool
  rv : Int
  outs : List UtmOut

def asyncunreg (conn : Vdemgmt) (event : List UInt8) (found : UnregFound) : Vdemgmt :=
  let conn := if found.printed then sendcmd conn (DEBUGDEL ++ 32 :: event) found.rv found.outs else conn
  { conn with atab := atabDel conn.atab event }

/-- The loop of `vdemgmt_close`, for as many turns as the environment is given for. -/
def closeLoop : List UnregFound → Vdemgmt → Vdemgmt
  | [], conn => conn
  | found :: rest, conn =>
    match conn.atab with
    | [] => conn
    | t :: _ => closeLoop rest (asyncunreg conn t.event found)

/-! ## Messages -/

/-- What a run of a receive machine leaves: its value, the output buffer, the input buffer, and the reads to come. -/
structure Received where
  outtag : Int
  buf : List UInt8
  pbuf : UtmBuf
  reads : List (List UInt8)

abbrev Receive := UtmBuf → List (List UInt8) → Received

/-- The variables of `vdemgmt_asyncrecv`, with the calls of its callbacks; `again` says that its loop goes on. -/
structure AsyncRun where
  pbuf : UtmBuf
  reads : List (List UInt8)
  prevpos : Int
  again : Bool
  calls : List Call

def asyncTurn (recv : Receive) (atab : List Asynctab) (r : AsyncRun) : AsyncRun :=
  let found := recv r.pbuf r.reads
  if found.outtag = -1 then { r with pbuf := found.pbuf, reads := found.reads, again := false }
  else
    let calls :=
      match atabFind atab (eventText found.buf) with
      | none => r.calls
      | some t => r.calls ++ [⟨t, found.outtag, t.event.length + SKIPHEAD + 1 + r.prevpos⟩]
    { pbuf := found.pbuf
      reads := found.reads
      prevpos := found.pbuf.pos
      again := decide (found.pbuf.pos < found.pbuf.len)
      calls := calls }

/-- When the loop has ended, the next turn is the first one of the next `vdemgmt_asyncrecv`. -/
def AsyncRun.enter (r : AsyncRun) : AsyncRun := if r.again then r else { r with prevpos := 0 }

def asyncrecv (recv : Receive) (atab : List Asynctab) : Nat → AsyncRun → AsyncRun
  | 0, r => r
  | turns + 1, r => asyncrecv recv atab turns (asyncTurn recv atab r.enter)

def asyncStart (pbuf : UtmBuf) (reads : List (List UInt8)) : AsyncRun where
  pbuf := pbuf
  reads := reads
  prevpos := 0
  again := true
  calls := []

/-- A message as the switch writes it: the number of the event, a blank, the text that begins with the event, and a
newline. The receive machine knows the numbers below 64. -/
structure Message where
  tag : Nat
  text : List UInt8
  tag_lt : tag < 64
  plain : ∀ c ∈ text, c ≠ 0 ∧ c ≠ 10

/-- `"3%03o "`. -/
def Message.head (m : Message) : List UInt8 :=
  [51, 48, 48 + UInt8.ofNat (m.tag / 8), 48 + UInt8.ofNat (m.tag % 8), 32]

def Message.bytes (m : Message) : List UInt8 := m.head ++ m.text ++ [10]

def readchars : Nat → UtmBuf → List (List UInt8) → UtmBuf × List (List UInt8)
  | 0, pbuf, reads => (pbuf, reads)
  | n + 1, pbuf, reads =>
    if pbuf.len ≤ pbuf.pos then readchars n (readchar pbuf (.read (reads.headD []))).2 reads.tail
    else readchars n (readchar pbuf .timeout).2 reads

def pending (pbuf : UtmBuf) (reads : List (List UInt8)) : List UInt8 :=
  readBytes pbuf.buf pbuf.pos.toNat (pbuf.len - pbuf.pos).toNat ++ reads.flatten

/-! ## The receive machine -/

def asyncrecvProgram : List UtmState :=
  [⟨1, .IN, [10], 100⟩, ⟨2, .IF, [51, 48], 10⟩, ⟨3, .GOTO, [], 100⟩, ⟨10, .COPY, [], 0⟩, ⟨11, .SKIP, [], 2⟩,
    ⟨12, .RVATOI, [], 8⟩, ⟨13, .EXITRV, [], 0⟩, ⟨100, .EXIT, [], -1⟩]

/-- A turn of `utm_run` for which there is memory. -/
def found (poll : PollResult) : Cmd.Finds where
  poll := poll
  alloc := true
  addr := 0
  fresh := fun _ => 0
  string := 0
  outside := []

def needsRead (r : Run) : Bool := r.status.head?.map UtmState.command == some .IN && r.inbuf.len ≤ r.inbuf.pos

def utmTurns (prog : List UtmState) : Nat → Run → List (List UInt8) → Run × List (List UInt8)
  | 0, r, reads => (r, reads)
  | turns + 1, r, reads =>
    if r.ended.isSome then (r, reads)
    else if needsRead r then utmTurns prog turns (runStep prog r (found (.read (reads.headD [])))) reads.tail
    else utmTurns prog turns (runStep prog r (found .timeout)) reads

def asyncrecvRc : Receive := fun pbuf reads =>
  let r := utmTurns asyncrecvProgram ((pending pbuf reads).length + 8) (runStart asyncrecvProgram pbuf []) reads
  { outtag :=
      match r.1.ended with
      | some (.ret rv) => rv
      | _ => -1
    buf := r.1.out.buf
    pbuf := r.1.inbuf
    reads := r.2 }

end Vde.Mgmt
