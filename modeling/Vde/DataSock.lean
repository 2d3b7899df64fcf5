import Vde.PollTable
import Vde.Port

/-!
# The data sockets

A client connects to the control socket of the switch, asks for a port on that control connection
and gets a data socket for its packets. The endpoint belongs to the control connection: when the
client hangs up the endpoint is closed. The main loop finds it through the private data of the
control descriptor, and `port.c` through the port and the number of that descriptor.
-/

namespace Vde

/-- A control connection that is open, with its descriptor. The number tells the connections
apart: descriptors are used again. -/
structure Conn where
  id : Nat
  fd : Nat
  deriving DecidableEq

/-- `struct endpoint` at its address, with the connection through which it was created. -/
structure DsEndpoint where
  addr : Nat
  port : Nat
  fdCtl : Nat
  fdData : Nat
  conn : Nat
  deriving DecidableEq

def DsEndpoint.toEndpoint (e : DsEndpoint) : Endpoint := ⟨e.port, e.fdCtl, e.fdData⟩

/-- The state of the module. `eps` are the endpoints of all ports, the newest first; `conns` the
open control connections, of `nconns` that there have been; and `hung` those whose client has hung
up. -/
structure DataSock where
  wdType : BitVec 8
  dataType : BitVec 8
  sw : Switch
  poll : PollTable
  eps : List DsEndpoint
  conns : List Conn
  nconns : Nat
  hung : List Nat

namespace DataSock

def ep (s : DataSock) (addr : Nat) : Option DsEndpoint := s.eps.find? (fun e => e.addr == addr)

def connOf (s : DataSock) (fd : Nat) : Nat := ((s.conns.find? (fun k => k.fd == fd)).map Conn.id).getD 0

def removeFd (fd : Nat) (s : DataSock) : DataSock :=
  match findFd s.poll fd with
  | none => s
  | some _ =>
    { s with
      poll := Vde.removeFd fd s.poll
      conns := s.conns.filter (fun k => k.fd != fd) }

def delep (fdCtl fdData : Nat) (s : DataSock) : DataSock := (s.removeFd fdData).removeFd fdCtl

def closes (portno fdCtl : Int) (e : DsEndpoint) : Bool := (e.port : Int) == portno && (e.fdCtl : Int) == fdCtl

/-- `close_ep_port_fd`: the first endpoint of the port with that control descriptor is unlinked and
its descriptors are removed. -/
def closeEpPortFd (portno fdCtl : Int) (s : DataSock) : DataSock :=
  match Vde.closeEpPortFd portno fdCtl s.sw with
  | (.ok, sw) =>
    match s.eps.find? (closes portno fdCtl) with
    | none => { s with sw := sw }
    | some e => delep e.fdCtl e.fdData { s with sw := sw, eps := s.eps.eraseP (closes portno fdCtl) }
  | (_, sw) => { s with sw := sw }

/-- `close_ep`. A pointer to an endpoint that is gone leads nowhere. -/
def closeEp (addr : Nat) (s : DataSock) : DataSock :=
  match s.ep addr with
  | none => { s with sw := s.sw.crash }
  | some e => s.closeEpPortFd e.port e.fdCtl

end DataSock

/-- What the system calls of `new_port_v1_v3` return: whether the client's socket has a name, may be
used and by whom it is owned; the new descriptor and what can fail afterwards; and the memory for
the endpoint and for the record of its descriptor. -/
structure NewPortCalls where
  named : Bool
  access : Bool
  owner : BitVec 32
  socket : Option Nat
  nonblock : Bool
  connect : Bool
  bind : Bool
  chown : Bool
  write : Bool
  addr : Nat
  record : Nat
  deriving DecidableEq

def NewPortCalls.user (c : NewPortCalls) : BitVec 32 := if c.named then c.owner else noId

def portRequest (typePort : BitVec 32) : Option Int :=
  if typePort &&& 0xff#32 = 0#32 then some (typePort.sshiftRight 8).toInt
  else if typePort &&& 0xff#32 = 1#32 then some (-1)
  else none

def NewPortCalls.fdData (c : NewPortCalls) : Option Nat :=
  if c.named && !c.access then none
  else
    match c.socket with
    | none => none
    | some fdData => if !c.nonblock then none else if !c.connect then none else some fdData

variable (belongs : BitVec 32 → BitVec 32 → Bool)

/-- The endpoint is set up at its port, and its data descriptor is polled. -/
def newEndpoint (fdCtl fdData : Nat) (request : Int) (c : NewPortCalls) (s : DataSock) :
    Option Nat × DataSock :=
  match setupEp belongs request fdCtl fdData c.user s.sw with
  | (.ok, sw) =>
    if sw.trap then (none, { s with sw := sw })
    else
      let ep : DsEndpoint := ⟨c.addr, allocIndex request s.sw, fdCtl, fdData, s.connOf fdCtl⟩
      let s := { s with
        sw := sw
        eps := ep :: s.eps
        poll := addFd fdData s.dataType c.addr c.record s.poll }
      if !c.bind then (none, s.closeEp c.addr)
      else if !c.chown then (none, s.closeEp c.addr)
      else if !c.write then (none, s.closeEp c.addr)
      else (some c.addr, s)
  -- the data descriptor stays open, and the connection too
  | (_, sw) => (none, { s with sw := sw })

def newPortV1V3 (fdCtl : Nat) (typePort : BitVec 32) (c : NewPortCalls) (s : DataSock) :
    Option Nat × DataSock :=
  match portRequest typePort with
  | none => (none, s.removeFd fdCtl)
  | some request =>
    match c.fdData with
    | none => (none, s.removeFd fdCtl)
    | some fdData => newEndpoint belongs fdCtl fdData request c s

/-- The words of a request that are read. `struct request_v1` has its type where `struct request_v3`
has the version. -/
structure Request where
  magic : BitVec 32
  version : BitVec 32
  type : BitVec 32
  deriving DecidableEq

def switchMagic : BitVec 32 := 0xfeedface#32

def Request.typePort (r : Request) : Option (BitVec 32) :=
  if r.magic = switchMagic then
    if r.version = 3#32 then some r.type
    else if 2#32 < r.version ∨ r.version = 2#32 then none
    else some r.version
  else none

inductive WdRead where
  | error
  | again
  | eof
  | request (r : Request) (c : NewPortCalls)
  deriving DecidableEq

def storeEndpoint (fd : Nat) (r : Option Nat × DataSock) : DataSock :=
  match r.1 with
  | none => r.2
  | some ep => { r.2 with poll := mainloopSetPrivateData fd ep r.2.poll }

def handleWd (fd ep : Nat) (s : DataSock) : WdRead → DataSock
  | .error => s.removeFd fd
  | .again => s
  | .eof => if ep ≠ 0 then s.closeEp ep else s.removeFd fd
  | .request r c =>
    match r.typePort with
    | none => s.removeFd fd
    | some typePort => storeEndpoint fd (newPortV1V3 belongs fd typePort c s)

/-- `handle_io` for the control socket, where `accept` returns `new`; `a` is the address of its
record. -/
def handleCtl (new a : Nat) (s : DataSock) : DataSock :=
  { s with
    poll := addFd new s.wdType 0 a s.poll
    conns := ⟨s.nconns, new⟩ :: s.conns
    nconns := s.nconns + 1 }

/-- The module with the descriptors that it has got from the system and not closed. -/
structure OpenSock where
  sock : DataSock
  opened : List Nat

namespace OpenSock

def close (fd : Nat) (s : OpenSock) : OpenSock := { s with opened := s.opened.erase fd }

def removeFd (fd : Nat) (s : OpenSock) : OpenSock :=
  match findFd s.sock.poll fd with
  | none => s
  | some _ => close fd { s with sock := s.sock.removeFd fd }

def delep (fdCtl fdData : Nat) (s : OpenSock) : OpenSock := (s.removeFd fdData).removeFd fdCtl

def closeEpPortFd (portno fdCtl : Int) (s : OpenSock) : OpenSock :=
  match Vde.closeEpPortFd portno fdCtl s.sock.sw with
  | (.ok, sw) =>
    match s.sock.eps.find? (DataSock.closes portno fdCtl) with
    | none => { s with sock := { s.sock with sw := sw } }
    | some e =>
      let eps := s.sock.eps.eraseP (DataSock.closes portno fdCtl)
      delep e.fdCtl e.fdData { s with sock := { s.sock with sw := sw, eps := eps } }
  | (_, sw) => { s with sock := { s.sock with sw := sw } }

def closeEp (addr : Nat) (s : OpenSock) : OpenSock :=
  match s.sock.ep addr with
  | none => { s with sock := { s.sock with sw := s.sock.sw.crash } }
  | some e => s.closeEpPortFd e.port e.fdCtl

end OpenSock

/-- `newEndpoint` with the descriptors that are open; `mem` says whether there is memory for the endpoint. -/
def newEndpointOpen (mem : Bool) (fdCtl fdData : Nat) (request : Int) (c : NewPortCalls) (s : OpenSock) :
    Option Nat × OpenSock :=
  match setupEpMem belongs mem request fdCtl fdData c.user s.sock.sw with
  | (.ok, sw) =>
    if sw.trap then (none, { s with sock := { s.sock with sw := sw } })
    else
      let ep : DsEndpoint := ⟨c.addr, allocIndex request s.sock.sw, fdCtl, fdData, s.sock.connOf fdCtl⟩
      let s := { s with
        sock := { s.sock with
          sw := sw
          eps := ep :: s.sock.eps
          poll := addFd fdData s.sock.dataType c.addr c.record s.sock.poll } }
      if !c.bind then (none, s.closeEp c.addr)
      else if !c.chown then (none, s.closeEp c.addr)
      else if !c.write then (none, s.closeEp c.addr)
      else (some c.addr, s)
  | (_, sw) => (none, { s with sock := { s.sock with sw := sw } })

def newPortV1V3Open (mem : Bool) (fdCtl : Nat) (typePort : BitVec 32) (c : NewPortCalls) (s : OpenSock) :
    Option Nat × OpenSock :=
  match portRequest typePort with
  | none => (none, s.removeFd fdCtl)
  | some request =>
    if c.named && !c.access then (none, s.removeFd fdCtl)
    else
      match c.socket with
      | none => (none, s.removeFd fdCtl)
      | some fdData =>
        let s := { s with opened := fdData :: s.opened }
        if !c.nonblock then (none, (s.close fdData).removeFd fdCtl)
        else if !c.connect then (none, (s.close fdData).removeFd fdCtl)
        else newEndpointOpen belongs mem fdCtl fdData request c s

end Vde
