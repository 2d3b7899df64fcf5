import Vde.Cmdparse
import Vde.Lib.Machine
import Vde.Lib.NextChain

/-!
# The management commands of vde_switch

Tables of commands are linked into one list when they are registered. A plugin registers its table when its library is
loaded, and takes it out before the library is unmapped. A line is for the first command whose path it begins with.
-/

namespace Vde

/-- `struct comlist`, without the texts for `help`. -/
structure ComList where
  path : List UInt8
  doit : Option Nat
  type : UInt8

def WITHFILE : UInt8 := 0x40

def WITHFD : UInt8 := 0x80

/-- The argument of a command: `NOARG`, `INTARG`, `STRARG`. -/
inductive CmdArg where
  | none
  | int (n : Int)
  | str (s : List UInt8)
  deriving DecidableEq, Repr

/-- A call of `doit`, with a file and a descriptor if the type has the flags. -/
structure CmdCall where
  doit : Nat
  file : Bool
  fd : Option Int
  arg : CmdArg
  deriving DecidableEq, Repr

/-- The lines that `handle_cmd` prints itself. -/
inductive Reply where
  | dataBegin
  | dataEnd
  | success
  | error (rv : Int)
  deriving DecidableEq, Repr

structure CmdHandled where
  call : Option CmdCall
  replies : List Reply
  rv : Int
  deriving DecidableEq, Repr

def ENOSYS : Int := 38

def commandArg (type : UInt8) (s : List UInt8) : Option CmdArg :=
  match type.toNat with
  | 0 => some .none
  | 1 => some (.int (Cmd.atoi s))
  | 2 => some (.str s)
  | _ => none

def isBlank (c : UInt8) : Bool := c == 32 || c == 9

/-- The branches over the type. The three `switch` statements differ in the flags that they mask out. -/
def ComList.run (p : ComList) (doit : Nat) (returns : CmdCall → Int) (fd : Int) (s : List UInt8) : CmdHandled :=
  let withFile := p.type &&& WITHFILE != 0
  let withFd := p.type &&& WITHFD != 0
  if withFd ∧ fd < 0 then ⟨none, [], 9⟩
  else
    let arg := commandArg (p.type &&& ~~~(WITHFILE ||| WITHFD)) s
    let call := arg.map fun arg => ⟨doit, withFile, if withFd then some fd else none, arg⟩
    ⟨call, if withFile then [.dataBegin, .dataEnd] else [], (call.map returns).getD ENOSYS⟩

/-- `handle_cmd` on a command that has been found, or none, and the line without the blanks at its start. -/
def handleFound (returns : CmdCall → Int) (fd : Int) (inbuf : List UInt8) (p : Option ComList) : CmdHandled :=
  let h : CmdHandled := (p.bind fun p => p.doit.map fun doit =>
    p.run doit returns fd ((inbuf.drop p.path.length).dropWhile isBlank)).getD ⟨none, [], ENOSYS⟩
  { h with replies := h.replies ++ if h.rv = 0 then [.success] else if 0 < h.rv then [.error h.rv] else [] }

def ComList.takes (inbuf : List UInt8) (p : ComList) : Bool := p.doit.isSome && p.path.isPrefixOf inbuf

/-- `handle_cmd`; `none` if it leaves the mapped memory. -/
def handleCmd (returns : CmdCall → Int) (fd : Int) (inbuf : List UInt8) (clh : TailList ComList) :
    Option CmdHandled :=
  let inbuf := inbuf.dropWhile isBlank
  if inbuf = [] ∨ inbuf.head? = some 35 then some ⟨none, [], ENOSYS⟩
  else (clh.heap.search fun a => (clh.heap.val a).takes inbuf).map fun a =>
    handleFound returns fd inbuf (if a = 0 then none else some (clh.heap.val a))

def addcl (cl : List Nat) (s : TailList ComList) : Option (TailList ComList) := cl.foldlM (fun s a => s.append a) s

def delcl (cl : List Nat) (s : TailList ComList) : Option (TailList ComList) := cl.foldlM (fun s a => s.remove a) s

/-! ## Plugins -/

/-- The table of commands of a plugin, and where it is mapped. -/
structure Library where
  cl : Nat
  commands : List ComList

def Library.entries (lib : Library) : List Nat := List.range' lib.cl lib.commands.length

/-- `dlopen` maps the library, and its constructor calls `ADDCL`. -/
def dlopen (lib : Library) (s : TailList ComList) : Option (TailList ComList) :=
  addcl lib.entries ⟨s.heap.map lib.cl lib.commands, s.tail⟩

/-- `dlclose`: the destructor calls `DELCL`, and the library is unmapped. -/
def dlclose (lib : Library) (s : TailList ComList) : Option (TailList ComList) :=
  (delcl lib.entries s).map fun s => ⟨s.heap.unmap lib.entries, s.tail⟩

/-- `clh`, `clt` and the memory, unless a pointer has left it, and the libraries that are loaded. -/
structure ComRun where
  clh : Option (TailList ComList)
  libs : List Library

inductive PluginEvent where
  | add (lib : Library)
  -- the library at place `k` of those that are loaded
  | del (k : Nat)

def pluginStep (s : ComRun) : PluginEvent → ComRun
  | .add lib => ⟨s.clh.bind (dlopen lib), s.libs ++ [lib]⟩
  | .del k => ⟨s.libs[k]?.bind fun lib => s.clh.bind (dlclose lib), s.libs.eraseIdx k⟩

/-- A library is mapped where nothing else is. -/
def pluginEnabled (cl : List Nat) (s : ComRun) : PluginEvent → Prop
  | .add lib => lib.cl ≠ 0 ∧ ∀ a ∈ lib.entries, a ∉ cl ++ s.libs.flatMap Library.entries
  | .del k => k < s.libs.length

def pluginMachine (cl : List Nat) : Machine ComRun PluginEvent := ⟨pluginEnabled cl, pluginStep⟩

/-- The switch after the start: the modules have called `ADDCL` for their tables, whose elements are at `cl`. -/
def pluginStart (memory : LinkedHeap ComList) (cl : List Nat) : ComRun :=
  ⟨addcl cl ⟨{ memory with head := 0 }, none⟩, []⟩

end Vde
