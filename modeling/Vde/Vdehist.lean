import Vde.Dns
import Vde.Lib.Bytes

/-!
# libvdehist

The line editor of the terminals of vde: `vdehist_term_to_mgmt` takes what was read from a terminal byte by byte, edits
the line, completes it, recalls earlier lines and sends a whole line to the management socket. A text that ends with a
zero byte is the list of the bytes before it, so `strlen` is the length of the list.
-/

namespace Vde.Hist

def BUFSIZE : Nat := 1024
def HISTORYSIZE : Nat := 32

def HIST_COMMAND : UInt8 := 0
def HIST_NOCMD : UInt8 := 1
def HIST_PASSWDFLAG : UInt8 := 128

def bytes (s : List Char) : List UInt8 := s.map fun c => UInt8.ofNat c.toNat

/-! ## Completion -/

/-- `commonprefix`. One of the two texts has `maxlen` bytes or more, so the loop stops at the end of the other. -/
def commonPrefix : List UInt8 → List UInt8 → Nat → Nat
  | x :: xs, y :: ys, maxlen + 1 => if x = y then commonPrefix xs ys maxlen + 1 else 0
  | _, _, _ => 0

def strncmpEq (x y : List UInt8) (n : Nat) : Bool := x.take n == y.take n

structure TabScan where
  nmatches : Nat
  found : List UInt8
  len : Int

/-- A turn of the loop. The length of a command is stored in an `int`. -/
def tabScan (linebuf : List UInt8) (bufindex : Nat) (t : TabScan) (s : List UInt8) : TabScan :=
  if strncmpEq linebuf s bufindex then
    if t.nmatches = 0 then ⟨1, s, toInt32 s.length⟩
    else ⟨t.nmatches + 1, t.found, commonPrefix t.found s t.len.toNat⟩
  else t

def tabMatches (commandlist : List (List UInt8)) (linebuf : List UInt8) (bufindex : Nat) : TabScan :=
  commandlist.foldl (tabScan linebuf bufindex) ⟨0, [], 0⟩

def tabInsert (t : TabScan) (linebuf : List UInt8) (alreadymatch maxlength : Nat) : List UInt8 × Int :=
  let len := t.len.toNat
  let moved := linebuf.take alreadymatch ++ (t.found.take len).drop alreadymatch ++ linebuf.drop alreadymatch
  if t.nmatches = 1 ∧ moved[len]? ≠ some 32 ∧ moved.length + 1 < maxlength then
    (moved.take len ++ 32 :: moved.drop len, len + 1)
  else (moved, len)

/-- The line is completed by what the commands that begin with it have in common. -/
def tabexpand (commandlist : Option (List (List UInt8))) (linebuf : List UInt8) (bufindex : Int) (maxlength : Nat) :
    List UInt8 × Int :=
  match commandlist with
  | none => (linebuf, bufindex)
  | some commands =>
    if bufindex ≤ 0 then (linebuf, bufindex)
    else
      let t := tabMatches commands linebuf bufindex.toNat
      if t.len ≤ 0 then (linebuf, bufindex)
      else
        let alreadymatch := commonPrefix linebuf t.found t.len.toNat
        if (t.len.toNat - alreadymatch) + linebuf.length < maxlength then tabInsert t linebuf alreadymatch maxlength
        else (linebuf, bufindex)

def showexpand (commandlist : Option (List (List UInt8))) (linebuf : List UInt8) (bufindex : Int) : List UInt8 :=
  match commandlist with
  | none => []
  | some commands =>
    if bufindex ≤ 0 then []
    else
      let matched := commands.filter fun s => strncmpEq linebuf s bufindex.toNat
      if 1 < matched.length then matched.flatMap (fun s => s ++ [32]) ++ [13, 10] else []

/-! ## State -/

/-- `struct vdehiststat` without what `vdehist_mgmt_to_term` keeps for itself, and the static `commandlist`. The
places of `history` from `HISTORYSIZE` on are not part of the array. -/
structure HistStat where
  status : UInt8
  echo : Bool
  telnetprotocol : Bool
  edited : Bool
  lastchar : UInt8
  linebuf : List UInt8
  bufindex : Int
  history : Nat → Option (List UInt8)
  histindex : Int
  mgmtfd : Int
  commandlist : Option (List (List UInt8))

inductive Write where
  | term (bytes : List UInt8)
  | mgmt (bytes : List UInt8)

structure Login where
  status : UInt8
  mgmtfd : Int
  cmd : Option (List UInt8)
  out : List Write

/-- The prompt, the function behind `vdehist_logincmd`, and the list that `vdehist_create_commandlist` makes of
the answer at a descriptor. -/
structure HistEnv where
  prompt : List UInt8
  logincmd : HistStat → Login
  createCommandlist : Int → Option (List (List UInt8))

def vdehistNew (mgmtfd : Int) (commandlist : Option (List (List UInt8))) : HistStat where
  status := if mgmtfd < 0 then HIST_NOCMD else HIST_COMMAND
  echo := true
  telnetprotocol := false
  edited := false
  lastchar := 0
  linebuf := []
  bufindex := 0
  history := fun _ => none
  histindex := 0
  mgmtfd := mgmtfd
  commandlist := commandlist

def eraseLine (env : HistEnv) (st : HistStat) (promptToo : Bool) : Write :=
  let extra := if promptToo then env.prompt.length else 0
  let size := st.linebuf.length + extra
  .term (List.replicate (st.bufindex + extra).toNat 8 ++ List.replicate size 32 ++ List.replicate size 8)

def redrawLine (env : HistEnv) (st : HistStat) (promptToo : Bool) : Write :=
  .term ((if promptToo then env.prompt else []) ++ st.linebuf ++
    List.replicate (st.linebuf.length - st.bufindex).toNat 8)

/-! ## History -/

def putHistory (st : HistStat) : HistStat :=
  { st with history := Function.update st.history st.histindex.toNat (some st.linebuf) }

/-- The entry at an index. There is none in front of the array or behind it. -/
def historyAt (st : HistStat) (histindex : Int) : Option (List UInt8) :=
  if 0 ≤ histindex ∧ histindex < HISTORYSIZE then st.history histindex.toNat else none

def historyIndex (change : Int) (st : HistStat) : Int :=
  let histindex := st.histindex + change
  let histindex := if histindex < 0 then 0 else histindex
  let histindex := if (HISTORYSIZE : Int) ≤ histindex then (HISTORYSIZE : Int) - 1 else histindex
  if historyAt st histindex = none then histindex - 1 else histindex

/-- `get_history`; `none` is a copy from a null pointer or from outside the array. -/
def getHistory (change : Int) (st : HistStat) : Option HistStat :=
  let histindex := historyIndex change st
  (historyAt st histindex).map fun line =>
    { st with histindex := histindex, linebuf := line, bufindex := line.length }

def shiftHistory (st : HistStat) : HistStat :=
  { st with history := fun i => if i = 0 then none else if i < HISTORYSIZE then st.history (i - 1) else st.history i }

/-! ## Lines -/

structure Done where
  rv : Int
  st : HistStat
  out : List Write

def logoutText : List UInt8 := bytes ['l', 'o', 'g', 'o', 'u', 't']
def shutdownText : List UInt8 := bytes ['s', 'h', 'u', 't', 'd', 'o', 'w', 'n']
def pluginAddText : List UInt8 := bytes ['p', 'l', 'u', 'g', 'i', 'n', '/', 'a', 'd', 'd']
def pluginDelText : List UInt8 := bytes ['p', 'l', 'u', 'g', 'i', 'n', '/', 'd', 'e', 'l']

def skipBlanks (cmd : List UInt8) : List UInt8 := cmd.dropWhile fun c => c == 32 || c == 9

def sendcmd (env : HistEnv) (st : HistStat) (cmd : List UInt8) : Done :=
  let cmd := skipBlanks cmd
  let line : Write := .mgmt (st.linebuf.take st.bufindex.toNat)
  if logoutText.isPrefixOf cmd then ⟨1, st, []⟩
  else if shutdownText.isPrefixOf cmd then ⟨2, st, [line]⟩
  else
    { rv := 0
      st :=
        { st with
          commandlist :=
            if pluginAddText.isPrefixOf cmd ∨ pluginDelText.isPrefixOf cmd then none else st.commandlist }
      out := (if cmd = [] then [] else [line]) ++ [.term [13, 10], .term env.prompt] }

/-- A line entered is a command, or the login or the password in front of the session. -/
def histSendcmd (env : HistEnv) (st : HistStat) : Done :=
  if st.status = HIST_COMMAND then sendcmd env st st.linebuf
  else
    let login := env.logincmd st
    let st := { st with status := login.status, mgmtfd := login.mgmtfd }
    let st :=
      if st.commandlist = none ∧ 0 ≤ st.mgmtfd then { st with commandlist := env.createCommandlist st.mgmtfd }
      else st
    match login.cmd with
    | none => ⟨0, st, login.out⟩
    | some cmd =>
      let sent := sendcmd env st cmd
      { sent with out := login.out ++ sent.out }

/-! ## Telnet -/

def WILL : UInt8 := 251
def WONT : UInt8 := 252
def DO : UInt8 := 253
def DONT : UInt8 := 254
def TELOPT_ECHO : UInt8 := 1
def TELOPT_SGA : UInt8 := 3
def TELOPT_TTYPE : UInt8 := 24

def telnetOptionSend3 (action object : UInt8) : Write := .term [255, action, object]

/-- `telnet_options` for the two bytes behind the 255. -/
def telnetOptions (st : HistStat) (action object : UInt8) : HistStat × List Write :=
  let hello : List Write := if st.telnetprotocol then [] else [telnetOptionSend3 WILL TELOPT_ECHO]
  let st := if st.telnetprotocol then st else { st with telnetprotocol := true, echo := false }
  if action = DO ∧ object = TELOPT_ECHO then ({ st with echo := true }, hello)
  else if action = WILL ∧ object = TELOPT_ECHO then
    (st, hello ++ [telnetOptionSend3 DONT TELOPT_ECHO, telnetOptionSend3 WILL TELOPT_ECHO])
  else if action = DO ∧ object = TELOPT_SGA then (st, hello ++ [telnetOptionSend3 WILL TELOPT_SGA])
  else if action = WILL ∧ object = TELOPT_TTYPE then (st, hello ++ [telnetOptionSend3 DONT TELOPT_TTYPE])
  else if action = WILL then (st, hello ++ [telnetOptionSend3 DONT object])
  else if action = DO then (st, hello ++ [telnetOptionSend3 WONT object])
  else (st, hello)

/-! ## Keys -/

def HistStat.echoes (st : HistStat) : Bool := st.echo && st.status &&& HIST_PASSWDFLAG == 0

def recallLine (env : HistEnv) (change : Int) (st : HistStat) : Option (HistStat × List Write) :=
  (getHistory change (putHistory st)).map fun st' => (st', [eraseLine env st false, redrawLine env st' false])

/-- The keys that send an escape sequence; `none` is a copy of a line that is not there. -/
def arrow (env : HistEnv) (dir : UInt8) (st : HistStat) : Option (HistStat × List Write) :=
  if dir = 65 then recallLine env 1 st
  else if dir = 66 then recallLine env (-1) st
  else if dir = 67 then
    if st.bufindex < st.linebuf.length then some ({ st with bufindex := st.bufindex + 1 }, [.term [27, 91, 67]])
    else some (st, [])
  else if dir = 68 then
    if 0 < st.bufindex then some ({ st with bufindex := st.bufindex - 1 }, [.term [27, 91, 68]])
    else some (st, [])
  else some (st, [])

def tab (env : HistEnv) (st : HistStat) : HistStat × List Write :=
  if st.lastchar = 9 then
    (st, [eraseLine env st true, .term (showexpand st.commandlist st.linebuf st.bufindex), redrawLine env st true])
  else
    let r := tabexpand st.commandlist st.linebuf st.bufindex BUFSIZE
    let st' := { st with linebuf := r.1, bufindex := r.2 }
    (st', [eraseLine env st false, redrawLine env st' false])

/-- The control keys. The case of ctrl-E has no `break`. -/
def ctrl (env : HistEnv) (c : UInt8) (st : HistStat) : HistStat × List Write :=
  if c = 3 then ({ st with bufindex := 0, linebuf := [] }, [eraseLine env st false])
  else if c = 12 then (st, [eraseLine env st true, redrawLine env st true])
  else if c = 1 then
    let st' := { st with bufindex := 0 }
    (st', [eraseLine env st false, redrawLine env st' false])
  else if c = 5 then
    let st' := { st with bufindex := st.linebuf.length }
    let r := tab env st'
    (r.1, [eraseLine env st false, redrawLine env st' false] ++ r.2)
  else if c = 9 then tab env st
  else (st, [])

def backspace (st : HistStat) : HistStat × List Write :=
  if 0 < st.bufindex then
    let st' := { st with bufindex := st.bufindex - 1, linebuf := st.linebuf.eraseIdx (st.bufindex - 1).toNat }
    (st', if st.echoes then [.term (if st.edited then [8, 27, 91, 80] else [8, 32, 8])] else [])
  else (st, [])

def keepLine (st : HistStat) : HistStat :=
  if st.status = HIST_COMMAND then
    let st := putHistory { st with histindex := 0 }
    if 0 < st.linebuf.length then shiftHistory st else st
  else st

def newline (env : HistEnv) (st : HistStat) : Done :=
  let st := keepLine st
  let sent := histSendcmd env { st with bufindex := st.linebuf.length }
  if sent.rv ≠ 0 then sent
  else { sent with st := { sent.st with bufindex := 0, edited := false, histindex := 0, linebuf := [] } }

def insert (c : UInt8) (st : HistStat) : HistStat :=
  let bufindex := st.bufindex.toNat
  { st with
    linebuf := st.linebuf.take bufindex ++ c :: st.linebuf.drop bufindex
    bufindex := st.bufindex + 1 }

/-- What a byte does that begins no sequence of bytes. -/
def termKey (env : HistEnv) (c : UInt8) (st : HistStat) : Done :=
  if c < 32 ∧ c ≠ 10 ∧ c ≠ 13 then
    if c = 4 then ⟨1, st, []⟩
    else ⟨0, (ctrl env c st).1, (ctrl env c st).2⟩
  else if c = 127 then ⟨0, (backspace st).1, (backspace st).2⟩
  else
    let echo : List Write :=
      if st.echoes then (if st.edited ∧ 32 ≤ c then [.term [27, 91, 64]] else []) ++ [.term [c]] else []
    if c = 13 then ⟨0, st, echo⟩
    else if c = 10 then
      let sent := newline env st
      { sent with out := echo ++ sent.out }
    else ⟨0, insert c st, echo⟩

/-! ## Reads -/

structure Input where
  read : List UInt8
  rest : Nat → UInt8

def Input.byte (buf : Input) (i : Nat) : UInt8 := buf.read.getD i (buf.rest i)

/-- A turn of the loop of `vdehist_term_to_mgmt`: the next index, the result that ends the loop if it is not 0, the
state, what was written, the last index of `buf` that was looked at, and whether a line was copied that is not there. -/
structure Turn where
  next : Nat
  rv : Int
  st : HistStat
  out : List Write
  looked : Nat
  fault : Bool

/-- The body of the loop for the byte `c` at `i`. The last statement reads `buf` at the new index, after an arrow at
the byte behind its sequence. -/
def turnAt (env : HistEnv) (buf : Input) (i : Nat) (c : UInt8) (st : HistStat) : Turn :=
  if c = 255 ∧ buf.byte (i + 1) ≠ 255 then
    let r := telnetOptions st (buf.byte (i + 1)) (buf.byte (i + 2))
    ⟨i + 3, 0, { r.1 with lastchar := buf.byte (i + 2) }, r.2, i + 2, false⟩
  else if c = 27 then
    if buf.byte (i + 1) = 91 ∧ st.status = HIST_COMMAND then
      match arrow env (buf.byte (i + 2)) { st with edited := true } with
      | none => ⟨i + 4, 0, st, [], i + 2, true⟩
      | some (st', out) => ⟨i + 4, 0, { st' with lastchar := buf.byte (i + 3) }, out, i + 3, false⟩
    else ⟨i + 3, 0, { st with lastchar := buf.byte (i + 2) }, [], i + 2, false⟩
  else
    let looked := if c = 255 then i + 1 else i
    let r := termKey env c st
    if r.rv ≠ 0 then ⟨i + 1, r.rv, r.st, r.out, looked, false⟩
    else ⟨i + 1, 0, { r.st with lastchar := c }, r.out, looked, false⟩

def termTurn (env : HistEnv) (buf : Input) (i : Nat) (st : HistStat) : Turn :=
  let i := if buf.byte i = 255 ∧ buf.byte (i + 1) = 255 then i + 1 else i
  turnAt env buf i (if buf.byte i = 0 then 10 else buf.byte i) st

def termLoop (env : HistEnv) (buf : Input) : Nat → Nat → HistStat → Done
  | 0, _, st => ⟨0, st, []⟩
  | turns + 1, i, st =>
    if i < buf.read.length ∧ st.linebuf.length < BUFSIZE then
      let t := termTurn env buf i st
      if t.rv ≠ 0 ∨ t.fault then ⟨t.rv, t.st, t.out⟩
      else
        let rest := termLoop env buf turns t.next t.st
        { rest with out := t.out ++ rest.out }
    else ⟨0, st, []⟩

def vdehistTermToMgmt (env : HistEnv) (buf : Input) (st : HistStat) : Done :=
  if buf.read = [] then ⟨1, st, []⟩ else termLoop env buf buf.read.length 0 st

/-! ## Output of the switch -/

/-- What `vdehist_mgmt_to_term` keeps in `struct vdehiststat`; `fault` says that it has written outside of `buf` or of
`vlinebuf`. -/
structure MgmtStat where
  vindata : Bool
  vlinebuf : Block UInt8
  vbufindex : Int
  fault : Bool

/-- These parts in `vdehist_new`; `fresh` is what the memory held before. -/
def mgmtStatNew (fresh : Nat → UInt8) : MgmtStat where
  vindata := false
  vlinebuf := ⟨BUFSIZE + 1, Function.update fresh 0 0⟩
  vbufindex := 0
  fault := false

def MgmtStat.put (m : MgmtStat) (i : Int) (c : UInt8) : MgmtStat :=
  if 0 ≤ i then
    match m.vlinebuf.store i.toNat c with
    | none => { m with fault := true }
    | some vlinebuf => { m with vlinebuf := vlinebuf }
  else { m with fault := true }

def isDigit (c : UInt8) : Bool := 48 ≤ c && c ≤ 57

def fourDigits (s : List UInt8) : Bool :=
  isDigit (s.getD 0 0) && isDigit (s.getD 1 0) && isDigit (s.getD 2 0) && isDigit (s.getD 3 0)

/-- The loop that looks for the number of a message, and stops at the end of the text. -/
def messageIn : List UInt8 → List UInt8
  | [] => []
  | c :: s => if c ≠ 0 ∧ fourDigits (c :: s) = false then messageIn s else c :: s

def dbgText : List UInt8 := bytes ['*', '*', ' ', 'D', 'B', 'G', ' ', 'M', 'S', 'G', ':', ' ']

/-- What is done with a message: whether data begins, and what is written. -/
def messageOutput (message : List UInt8) : Bool × List Write :=
  if [48, 48, 48, 48].isPrefixOf message then (true, [])
  else if isDigit (message.getD 1 0) && isDigit (message.getD 2 0) && isDigit (message.getD 3 0) then
    if message.getD 0 0 = 49 then (false, [.term (cString (message.drop 5))])
    else if message.getD 0 0 = 51 then (false, [.term dbgText, .term (cString (message.drop 5))])
    else (false, [])
  else (false, [])

def MgmtStat.endLine (m : MgmtStat) : MgmtStat :=
  let m := m.put (m.vbufindex - 1) 13
  let m := m.put m.vbufindex 10
  let m := m.put (m.vbufindex + 1) 0
  { m with vbufindex := m.vbufindex + 1 }

def MgmtStat.printLine (m : MgmtStat) : MgmtStat × List Write :=
  let text := readBytes m.vlinebuf.elems 0 m.vlinebuf.size
  let r :=
    if m.vindata then
      if [46, 13].isPrefixOf text then (false, []) else (true, [.term (text.take m.vbufindex.toNat)])
    else messageOutput (messageIn text)
  ({ m with vindata := r.1, vbufindex := 0 }, r.2)

/-- The body of the loop over the bytes that were read. -/
def mgmtByte (m : MgmtStat) (c : UInt8) : MgmtStat × List Write :=
  let m := { m.put m.vbufindex c with vbufindex := m.vbufindex + 1 }
  if c = 10 then m.endLine.printLine else (m, [])

def mgmtBytes : MgmtStat → List UInt8 → MgmtStat × List Write
  | m, [] => (m, [])
  | m, c :: data => ((mgmtBytes (mgmtByte m c).1 data).1, (mgmtByte m c).2 ++ (mgmtBytes (mgmtByte m c).1 data).2)

def mgmtReads : MgmtStat → List (List UInt8) → MgmtStat × List Write
  | m, [] => (m, [])
  | m, data :: reads =>
    ((mgmtReads (mgmtBytes m data).1 reads).1, (mgmtBytes m data).2 ++ (mgmtReads (mgmtBytes m data).1 reads).2)

/-! ## The list of the commands -/

/-- `struct vh_readln`: what is left of `readbuf`, and the reads that return bytes, up to one that fails. -/
structure VhReadln where
  readbuf : List UInt8
  reads : List (List UInt8)

def VhReadln.next (vlb : VhReadln) : Option (UInt8 × VhReadln) :=
  match vlb.readbuf, vlb.reads with
  | c :: readbuf, reads => some (c, ⟨readbuf, reads⟩)
  | [], (c :: readbuf) :: reads => some (c, ⟨readbuf, reads⟩)
  | [], _ => none

/-- `vdehist_readln` with room for so many bytes. The prompt at the end of a read ends the text. -/
def vdehistReadln : Nat → List UInt8 → VhReadln → Option (List UInt8) × VhReadln
  | 0, linebuf, vlb => (some linebuf, vlb)
  | room + 1, linebuf, vlb =>
    match vlb.next with
    | none => (none, vlb)
    | some (c, vlb) =>
      if c = 32 ∧ linebuf.getLast? = some 36 ∧ vlb.readbuf = [] then (none, vlb)
      else if c = 10 then (some (linebuf ++ [c]), vlb)
      else vdehistReadln room (linebuf ++ [c]) vlb

def dashes : List UInt8 := List.replicate 12 45

/-- The loop of `vdehist_create_commandlist`; `body` is `CC_BODY`. A command is left out when the next one has it and a
slash in front: then it is the header of a menu. -/
def commandlistLoop : Nat → Bool → Option (List UInt8) → VhReadln → List (List UInt8) × VhReadln
  | 0, _, lastcommand, vlb => (lastcommand.toList, vlb)
  | turns + 1, body, lastcommand, vlb =>
    match vdehistReadln (BUFSIZE - 1) [] vlb with
    | (none, vlb) => (lastcommand.toList, vlb)
    | (some linebuf, vlb) =>
      if body = false then commandlistLoop turns (dashes.isPrefixOf linebuf) lastcommand vlb
      else if [46, 10].isPrefixOf linebuf then (lastcommand.toList, vlb)
      else
        let token := linebuf.takeWhile fun c => c ≠ 32 ∧ c ≠ 0
        let rest := commandlistLoop turns true (some token) vlb
        match lastcommand with
        | none => rest
        | some last => if (last ++ [47]).isPrefixOf token then rest else (last :: rest.1, rest.2)

/-- `vdehist_create_commandlist` behind the request for help: the list, and the reads that it has not made. It has its own
buffer, and what is left in that is lost. -/
def createCommandlist (reads : List (List UInt8)) : List (List UInt8) × List (List UInt8) :=
  let r := commandlistLoop (reads.flatten.length + 1) false none ⟨[], reads⟩
  (r.1.mergeSort, r.2.reads)

/-! ## A call -/

/-- A call of `vdehist_mgmt_to_term`: the line editor, the reads that return bytes, the result of the last of the loop,
which is not positive, and the reads of `vdehist_create_commandlist`. -/
structure MgmtCall where
  st : HistStat
  reads : List (List UInt8)
  last : Int
  listReads : List (List UInt8)

def MgmtCall.first (call : MgmtCall) : Int :=
  match call.reads with
  | [] => call.last
  | data :: _ => data.length

def MgmtStat.zeroBuf (m : MgmtStat) (n : Int) : MgmtStat :=
  if 0 ≤ n ∧ n < BUFSIZE + 1 then m else { m with fault := true }

def MgmtCall.loops (call : MgmtCall) (m : MgmtStat) : MgmtStat × List Write :=
  if call.st.mgmtfd ≠ 0 then mgmtReads (m.zeroBuf call.first) call.reads else (m, [])

abbrev HistStat.MakesList (st : HistStat) : Prop := st.commandlist = none ∧ 0 ≤ st.mgmtfd

def helpText : List UInt8 := bytes ['h', 'e', 'l', 'p', '\n']

def vdehistMgmtToTerm (env : HistEnv) (m : MgmtStat) (call : MgmtCall) : HistStat × MgmtStat × List Write :=
  let st := call.st
  let st' := if st.MakesList then { st with commandlist := some (createCommandlist call.listReads).1 } else st
  let help := if st.MakesList then [Write.mgmt helpText] else []
  (st', (call.loops m).1, eraseLine env st true :: (call.loops m).2 ++ help ++ [redrawLine env st' true])

end Vde.Hist
