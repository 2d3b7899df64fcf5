import Vde.Dns
import Vde.Lib.Bytes

/-!
# The parsing machines of libvdemgmt

A machine is a text file with one numbered state on each line. `utm_alloc` reads it into a list that is sorted by the
numbers, and `utm_run` goes from state to state: it reads from the management socket, writes to it, and copies parts of
what it has read to its output. A text that ends with a zero byte is the list of the bytes before it.
-/

namespace Vde.Cmd

def BUFSIZE : Nat := 256

inductive Command where
  | ERR | IN | THROW | SEND | SHIFT | IF | GOTO | COPY | EXIT | EXITRV | SKIP | IFARG | RVATOI | OUTSHIFT | OUTTAG
  deriving DecidableEq, Repr

def bytes (s : List Char) : List UInt8 := s.map fun c => UInt8.ofNat c.toNat

def commandname : List (List UInt8 × Command) :=
  [([], .ERR), (bytes ['I', 'N'], .IN), (bytes ['T', 'H', 'R', 'O', 'W'], .THROW), (bytes ['S', 'E', 'N', 'D'], .SEND),
    (bytes ['S', 'H', 'I', 'F', 'T'], .SHIFT), (bytes ['I', 'F'], .IF), (bytes ['G', 'O', 'T', 'O'], .GOTO),
    (bytes ['C', 'O', 'P', 'Y'], .COPY), (bytes ['E', 'X', 'I', 'T'], .EXIT),
    (bytes ['E', 'X', 'I', 'T', 'R', 'V'], .EXITRV), (bytes ['S', 'K', 'I', 'P'], .SKIP),
    (bytes ['I', 'F', 'A', 'R', 'G'], .IFARG), (bytes ['R', 'V', 'A', 'T', 'O', 'I'], .RVATOI),
    (bytes ['O', 'U', 'T', 'S', 'H', 'I', 'F', 'T'], .OUTSHIFT), (bytes ['O', 'U', 'T', 'T', 'A', 'G'], .OUTTAG)]

/-- `struct utmstate`; the list of the states stands for the links. -/
structure UtmState where
  num : Int
  command : Command
  string : List UInt8
  nextnum : Int
  deriving DecidableEq

def utmsadd (this : UtmState) : List UtmState → List UtmState
  | [] => [this]
  | s :: rest => if this.num < s.num then this :: s :: rest else s :: utmsadd this rest

def searchcommand (name : List UInt8) : Command := ((commandname.find? fun p => p.1 = name).map Prod.snd).getD .ERR

/-! ## Texts -/

def isBlank (c : UInt8) : Bool := c == 32 || c == 9

def blankskip (s : List UInt8) : List UInt8 := s.dropWhile isBlank

def inField (c : UInt8) : Bool := !isBlank c && c != 10

def isSpace (c : UInt8) : Bool := c == 32 || (9 ≤ c && c ≤ 13)

def isDigit (c : UInt8) : Bool := 48 ≤ c && c ≤ 57

def digitValue (c : UInt8) : Nat :=
  if isDigit c then c.toNat - 48
  else if 97 ≤ c ∧ c ≤ 122 then c.toNat - 87
  else if 65 ≤ c ∧ c ≤ 90 then c.toNat - 55
  else 36

def readDigits (base : Nat) : List UInt8 → Nat → Nat
  | c :: s, n => if digitValue c < base then readDigits base s (n * base + digitValue c) else n
  | [], n => n

def hexMark (s : List UInt8) : Bool :=
  s.headD 0 == 48 && ((s.drop 1).headD 0 == 120 || (s.drop 1).headD 0 == 88) && digitValue ((s.drop 2).headD 0) < 16

/-- `strtol`; a number that is too large becomes the largest, or the smallest. -/
def strtol (s : List UInt8) (base : Nat) : Int :=
  let number (s : List UInt8) : Nat := readDigits base (if base = 16 ∧ hexMark s then s.drop 2 else s) 0
  match s.dropWhile isSpace with
  | 45 :: rest => max (-2 ^ 63) (-(number rest : Int))
  | 43 :: rest => min (number rest) (2 ^ 63 - 1)
  | rest => min (number rest) (2 ^ 63 - 1)

def atoi (s : List UInt8) : Int := toInt32 (strtol s 10)

/-! ## Loading -/

/-- The calls of `fgets`: a line ends behind a newline, or is cut when the buffer is full. -/
def fgets : List UInt8 → List UInt8 → List (List UInt8)
  | [], buf => if buf = [] then [] else [buf]
  | c :: rest, buf =>
    if c = 10 ∨ buf.length + 2 = BUFSIZE then (buf ++ [c]) :: fgets rest [] else fgets rest (buf ++ [c])

/-- The byte that stands for an escaped one. -/
def unescape (c : UInt8) : UInt8 := if c = 110 then 10 else if c = 116 then 9 else if c = 102 then 12 else c

/-- A string behind its opening quote, and what is behind the closing one. -/
def quoted : List UInt8 → List UInt8 × List UInt8
  | [] => ([], [])
  | 92 :: c :: rest => (unescape c :: (quoted rest).1, (quoted rest).2)
  | c :: rest => if c = 39 then ([], rest) else (c :: (quoted rest).1, (quoted rest).2)

/-- The arguments of a state: a string that may be missing, and a number. -/
def arguments (s : List UInt8) : List UInt8 × Int :=
  match blankskip s with
  | 39 :: rest => ((quoted rest).1, atoi (blankskip (quoted rest).2))
  | rest => ([], atoi rest)

def stateOf (line : List UInt8) : Option UtmState :=
  let s := blankskip (cString line)
  let field := blankskip (s.dropWhile inField)
  let command := searchcommand (field.takeWhile inField)
  if 0 < atoi s ∧ command ≠ .ERR then
    let args := arguments (field.dropWhile inField)
    some { num := atoi s, command := command, string := args.1, nextnum := args.2 }
  else none

def timeoutText : List UInt8 := bytes ['T', 'I', 'M', 'E', 'O', 'U', 'T']

def TIMEOUT : Int := 10000

structure Utm where
  timeout : Int
  head : List UtmState

def addLine (utm : Utm) (line : List UInt8) : Utm :=
  let s := blankskip (cString line)
  if 0 < atoi s then
    match stateOf line with
    | none => utm
    | some new => { utm with head := utmsadd new utm.head }
  -- behind a line that ends with the word an earlier line is still in the buffer; it is not read here
  else if timeoutText.isPrefixOf s then { utm with timeout := atoi (s.drop 8) }
  else utm

def utmAlloc (conf : List UInt8) : Utm := (fgets conf []).foldl addLine ⟨TIMEOUT, []⟩

def sgoto (head : List UtmState) (nextnum : Int) : List UtmState := head.dropWhile fun s => s.num ≠ nextnum

/-! ## Reading -/

structure UtmBuf where
  buf : Mem
  len : Int
  pos : Int

inductive PollResult where
  | timeout
  | read (data : List UInt8)
  | error

/-- `readchar`: the byte, if there is one. After an error of `read` the first byte of the buffer is taken. -/
def readchar (inbuf : UtmBuf) (found : PollResult) : Option UInt8 × UtmBuf :=
  if inbuf.len ≤ inbuf.pos then
    match found with
    | .timeout => (none, inbuf)
    | .error => (some (inbuf.buf 0), { inbuf with len := -1, pos := 1 })
    | .read data =>
      if data = [] then (none, { inbuf with len := 0 })
      else
        let buf := memcpy inbuf.buf 0 data
        (some (buf 0), ⟨buf, data.length, 1⟩)
  else (some (inbuf.buf inbuf.pos.toNat), { inbuf with pos := inbuf.pos + 1 })

/-! ## Arguments -/

/-- `argv` after some shifts; `argc` is negative when there were more shifts than arguments. -/
structure Args where
  argv : List (List UInt8)
  shifted : Nat

namespace Args

def argc (args : Args) : Int := args.argv.length - args.shifted

def get (args : Args) (i : Int) : Option (List UInt8) :=
  if 0 ≤ args.shifted + i then args.argv[(args.shifted + i).toNat]? else none

def all (args : Args) : List UInt8 := List.intercalate [32] (args.argv.drop args.shifted)

end Args

/-- The loop of `SEND` from a byte on; `prev` is the byte in front. There is no result when it looks behind the end of
the string or at an argument that is not there. -/
def sendLoop (args : Args) : Nat → Option UInt8 → List UInt8 → Option (List UInt8)
  | 0, _, _ => some []
  | _ + 1, _, [] => some []
  | turns + 1, prev, c :: t =>
    if c = 36 ∧ prev ≠ some 92 then
      if t.headD 0 = 42 ∨ t.headD 0 = 48 then
        (sendLoop args turns t.head? t.tail).map fun text => args.all ++ text
      else
        let num := atoi t
        let arg := if num < args.argc then args.get num else some []
        match arg, t.dropWhile isDigit with
        | some arg, next :: t => (sendLoop args turns (some next) t).map fun text => arg ++ text
        | _, _ => none
    else (sendLoop args turns (some c) t).map fun text => c :: text

def sendText (args : Args) (string : List UInt8) : Option (List UInt8) := sendLoop args string.length none string

/-! ## Running -/

/-- `struct utm_out`, without the link. -/
structure UtmOut where
  buf : List UInt8
  tag : Int
  deriving DecidableEq

/-- How `utm_run` ends: with a value, or with the process when there is no memory. -/
inductive Ending where
  | ret (rv : Int)
  | exit
  deriving DecidableEq

/-- The variables of `utm_run`. `status` is the rest of the list from the current state on, `linebuf` the block with its
address, `outs` the output buffers before the current one, `reading` says that the loop of an `IN` state is not over,
and `fault` that memory was read which is not there. -/
structure Run where
  status : List UtmState
  linebuf : Block UInt8
  addr : Int
  len : Nat
  curr : Int
  linebufsize : Nat
  rv : Int
  args : Args
  inbuf : UtmBuf
  outs : List UtmOut
  out : UtmOut
  written : List (List UInt8)
  reading : Bool
  fault : Bool
  ended : Option Ending

/-- What a step finds: what `poll` and `read` return, whether there is memory, where a new `linebuf` is and what was in
it, where the string of the state is, and the text at a cursor that is outside of `linebuf`. -/
structure Finds where
  poll : PollResult
  alloc : Bool
  addr : Int
  fresh : Nat → UInt8
  string : Int
  outside : List UInt8

def runStart (prog : List UtmState) (inbuf : UtmBuf) (argv : List (List UInt8)) : Run where
  status := prog
  linebuf := ⟨0, fun _ => 0⟩
  addr := 0
  len := 0
  curr := 0
  linebufsize := 0
  rv := -1
  args := ⟨argv, 0⟩
  inbuf := inbuf
  outs := []
  out := ⟨[], 0⟩
  written := []
  reading := false
  fault := false
  ended := none

namespace Run

def hasLine (r : Run) : Bool := r.linebuf.size ≠ 0

def textAt (r : Run) (i : Nat) : List UInt8 := cString (readBytes r.linebuf.elems i (r.linebuf.size - i))

def text (r : Run) (finds : Finds) : List UInt8 :=
  if 0 ≤ r.curr ∧ r.curr < r.linebuf.size then r.textAt r.curr.toNat else finds.outside

def put (r : Run) (i : Nat) (c : UInt8) : Run :=
  match r.linebuf.store i c with
  | none => { r with fault := true }
  | some linebuf => { r with linebuf := linebuf }

/-- `linebuf` with room for another byte; its size is an `int`. -/
def grow (r : Run) (finds : Finds) : Option Run :=
  if r.len = r.linebufsize then
    if finds.alloc ∧ r.linebufsize + BUFSIZE < 2 ^ 31 then
      some
        { r with
          linebuf := r.linebuf.realloc (r.linebufsize + BUFSIZE + 1) finds.fresh
          addr := finds.addr
          linebufsize := r.linebufsize + BUFSIZE }
    else none
  else some r

def endsWith (r : Run) (pattern : List UInt8) : Bool :=
  pattern.length ≤ r.len && readBytes r.linebuf.elems (r.len - pattern.length) pattern.length == pattern

/-- A turn of the loop of `IN`. -/
def input (prog : List UtmState) (r : Run) (s : UtmState) (next : List UtmState) (finds : Finds) : Run :=
  match r.grow finds with
  | none => { r with ended := some .exit }
  | some r =>
    match readchar r.inbuf finds.poll with
    | (none, inbuf) =>
      let r := { r with inbuf := inbuf }.put r.len 0
      { r with reading := false, status := sgoto prog s.nextnum }
    | (some c, inbuf) =>
      let r := { r with inbuf := inbuf }.put r.len c
      let r := { r with len := r.len + 1 }
      if r.endsWith s.string then { r.put r.len 0 with reading := false, status := next }
      else { r with reading := true }

/-- `SKIP` with `linebuf`. The difference is the one of the pointers to the end of the string of the state and to
`linebuf`. -/
def skip (r : Run) (s : UtmState) (finds : Finds) : Run :=
  let curr :=
    if s.string ≠ [] ∧ (strstr (r.textAt 0) s.string).isSome then toInt32 (finds.string + s.string.length - r.addr)
    else toInt32 (r.curr + s.nextnum)
  { r with curr := if (r.len : Int) < curr then r.len else curr }

def rvatoi (r : Run) (s : UtmState) (finds : Finds) : Int :=
  if !r.hasLine then -1
  else if s.nextnum ≤ 0 then toInt32 (strtol (r.text finds) 10)
  else if 2 ≤ s.nextnum ∧ s.nextnum ≤ 36 then toInt32 (strtol (r.text finds) s.nextnum.toNat)
  else -1

end Run

/-- One state of a program. After a state that needs no input the run goes on with the next one. -/
def runState (prog : List UtmState) (r : Run) (s : UtmState) (next : List UtmState) (finds : Finds) : Run :=
  match s.command with
  | .ERR => { r with ended := some (.ret (-1)) }
  | .IN => r.input prog s next finds
  | .THROW =>
    let r := if r.hasLine then r.put 0 0 else r
    { r with curr := 0, len := 0, status := next }
  | .SEND =>
    match sendText r.args s.string with
    | none => { r with fault := true, status := next }
    | some text => { r with written := r.written ++ [text], status := next }
  | .SHIFT => { r with args := { r.args with shifted := r.args.shifted + 1 }, status := next }
  | .IF =>
    { r with
      status := if r.hasLine && s.string.isPrefixOf (r.text finds) then sgoto prog s.nextnum else next }
  | .GOTO => { r with status := sgoto prog s.nextnum }
  | .COPY =>
    if r.hasLine then
      if finds.alloc then { r with out := { r.out with buf := r.out.buf ++ r.text finds ++ [0] }, status := next }
      else { r with ended := some .exit }
    else { r with status := next }
  | .EXIT => { r with rv := s.nextnum, ended := some (.ret s.nextnum) }
  | .EXITRV => { r with ended := some (.ret r.rv) }
  | .SKIP => { if r.hasLine then r.skip s finds else r with status := next }
  | .IFARG => { r with status := if 0 ≤ r.args.argc then sgoto prog s.nextnum else next }
  | .RVATOI => { r with rv := r.rvatoi s finds, status := next }
  | .OUTSHIFT =>
    if finds.alloc then { r with outs := r.outs ++ [r.out], out := ⟨[], 0⟩, status := next }
    else { r with ended := some .exit }
  | .OUTTAG => { r with out := { r.out with tag := s.nextnum }, status := next }

def runStep (prog : List UtmState) (r : Run) (finds : Finds) : Run :=
  match r.status with
  | [] => { r with fault := true }
  | s :: next => runState prog r s next finds

end Vde.Cmd
