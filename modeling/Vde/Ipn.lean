import Mathlib.Logic.Function.Basic

/-!
# Inter process networking

The kernel module: networks, the nodes that are bound and connected to them, and the table of the
ports of each network. Nodes and networks are known by their addresses. Whether a
`down_interruptible` gets its semaphore is up to the caller; the calls themselves follow each other,
since `ipn_glob_mutex` and `ipnn_mutex` keep them apart.
-/

namespace Vde.Ipn

open Function

/-! ## Error numbers and constants -/

def EPERM : Int := 1
def ENOENT : Int := 2
def ENOMEM : Int := 12
def EACCES : Int := 13
def EEXIST : Int := 17
def EINVAL : Int := 22
def EROFS : Int := 30
def EPROTO : Int := 71
def EPROTONOSUPPORT : Int := 93
def EOPNOTSUPP : Int := 95
def EADDRINUSE : Int := 98
def EADDRNOTAVAIL : Int := 99
def ECONNRESET : Int := 104
def EISCONN : Int := 106
def ENOTCONN : Int := 107
def ECONNREFUSED : Int := 111
def ERESTARTSYS : Int := 512

def RCV_SHUTDOWN : BitVec 8 := 1
def SEND_SHUTDOWN : BitVec 8 := 2
def RCV_SHUTDOWN_NO_OOB : BitVec 8 := 4
def SHUTDOWN_XMASK : BitVec 8 := 7

def IPN_ANY : Nat := 0
def IPN_BROADCAST : Int := 1
def IPN_MAX_PROTO : Int := 4
def IPN_PORTNO_ANY : Int := -1
def IPN_DESCRLEN : Nat := 128

def IPN_FLAG_EXCL : Nat := 2
def IPN_FLAG_TERMINATED : Nat := 0x1000

def IPN_SO_PREBIND : BitVec 32 := 0x80
def IPN_SO_PORT : BitVec 32 := 0
def IPN_SO_DESCR : BitVec 32 := 1
def IPN_SO_CHANGE_NUMNODES : BitVec 32 := 2
def IPN_SO_HANDLE_OOB : BitVec 32 := 3
def IPN_SO_MTU : BitVec 32 := 0x80
def IPN_SO_NUMNODES : BitVec 32 := 0x81
def IPN_SO_MSGPOOLSIZE : BitVec 32 := 0x82
def IPN_SO_FLAGS : BitVec 32 := 0x83
def IPN_SO_MODE : BitVec 32 := 0x84

def u16 (v : Int) : Nat := (v % 65536).toNat

/-! ## Nodes and networks -/

structure PreBindParms where
  maxports : Nat
  flags : Nat
  msgpoolsize : Nat
  mtu : Nat
  mode : Nat

def stdBindParms : PreBindParms :=
  { maxports := 64, flags := 0, msgpoolsize := 8, mtu := 1514, mode := 0o777 }

inductive SockState where
  | unconnected
  | connected
  deriving DecidableEq

/-- `struct ipn_node`, with the state of its socket; the node of a character device has none. Of the
flags only `IPN_NODEFLAG_BOUND` matters here. A `closed` node is one that nothing refers to any more. -/
structure Node where
  protocol : Nat
  bound : Bool
  shutdown : BitVec 8
  portno : Int
  netdev : Bool
  ipn : Option Nat
  pbp : Option PreBindParms
  sock : Option SockState
  closed : Bool

/-- `struct ipn_network`; `chrdev` tells whether a registered device is persistent. -/
structure Network where
  protocol : Nat
  flags : Nat
  maxports : Nat
  connport : Nat → Option Nat
  connectqueue : List Nat
  unconnectqueue : List Nat
  refcnt : Int
  chrdev : Option Bool

/-- A fault is an index at or above `maxports` in `connport`, or the use of a network that has been freed
or of a pointer that is not one. -/
structure State where
  nodes : Nat → Option Node
  nets : Nat → Option Network
  fault : Bool

namespace State

def setNode (s : State) (n : Nat) (node : Node) : State :=
  { s with nodes := update s.nodes n (some node) }

def setNet (s : State) (k : Nat) (w : Network) : State :=
  { s with nets := update s.nets k (some w) }

def freeNode (s : State) (n : Nat) : State := { s with nodes := update s.nodes n none }

def freeNet (s : State) (k : Nat) : State := { s with nets := update s.nets k none }

def wild (s : State) : State := { s with fault := true }

section

variable (s : State) (n k : Nat) (node : Node) (w : Network)

@[simp] lemma setNode_nodes : (s.setNode n node).nodes = update s.nodes n (some node) := rfl
@[simp] lemma setNode_nets : (s.setNode n node).nets = s.nets := rfl
@[simp] lemma setNode_fault : (s.setNode n node).fault = s.fault := rfl
@[simp] lemma setNet_nodes : (s.setNet k w).nodes = s.nodes := rfl
@[simp] lemma setNet_nets : (s.setNet k w).nets = update s.nets k (some w) := rfl
@[simp] lemma setNet_fault : (s.setNet k w).fault = s.fault := rfl
@[simp] lemma freeNode_nodes : (s.freeNode n).nodes = update s.nodes n none := rfl
@[simp] lemma freeNode_nets : (s.freeNode n).nets = s.nets := rfl
@[simp] lemma freeNode_fault : (s.freeNode n).fault = s.fault := rfl
@[simp] lemma freeNet_nodes : (s.freeNet k).nodes = s.nodes := rfl
@[simp] lemma freeNet_nets : (s.freeNet k).nets = update s.nets k none := rfl
@[simp] lemma freeNet_fault : (s.freeNet k).fault = s.fault := rfl

end

def net (s : State) (k : Nat) (f : Network → Int × State) : Int × State :=
  match s.nets k with
  | none => (0, s.wild)
  | some w => f w

end State

namespace Network

def store (w : Network) (p : Int) (v : Option Nat) : Option Network :=
  if 0 ≤ p ∧ p < w.maxports then some { w with connport := update w.connport p.toNat v } else none

/-- `list_del(&ipn_node->nodelist)`, in whichever queue the node is. -/
def listDel (w : Network) (n : Nat) : Network :=
  { w with connectqueue := w.connectqueue.erase n, unconnectqueue := w.unconnectqueue.erase n }

def terminated (w : Network) : Bool := w.flags &&& IPN_FLAG_TERMINATED != 0

end Network

def ipnNodeCreate : Node :=
  { protocol := 0, bound := false, shutdown := RCV_SHUTDOWN_NO_OOB, portno := IPN_PORTNO_ANY, netdev := false,
    ipn := none, pbp := none, sock := none, closed := false }

/-- `ipn_create`; `registered` tells whether the table has the protocol. -/
def ipnCreate (s : State) (n : Nat) (protocol : Int) (registered : Bool) : Int × State :=
  let protocol := if 0 < protocol then protocol - 1 else IPN_BROADCAST - 1
  if protocol < 0 ∨ IPN_MAX_PROTO ≤ protocol ∨ !registered then (-EPROTONOSUPPORT, s)
  else (0, s.setNode n { ipnNodeCreate with protocol := protocol.toNat, sock := some .unconnected })

def ipnIsPersistentChrdev (w : Network) : Bool := w.chrdev.getD false

/-! ## Release -/

def ipnTerminateNode (s : State) (n : Nat) (node : Node) (netLock : Bool) : Int × State :=
  match node.ipn with
  | none => (0, s.setNode n { node with pbp := none })
  | some k => s.net k fun w =>
    if !netLock then (-ERESTARTSYS, s)
    else
      match (if 0 ≤ node.portno then w.store node.portno none else some w) with
      | none => (0, s.wild)
      | some w =>
        let w := w.listDel n
        let w := { w with refcnt := w.refcnt - 1 }
        let s := s.setNode n { node with ipn := none, shutdown := SHUTDOWN_XMASK, pbp := none }
        if w.refcnt = 0 ∧ !ipnIsPersistentChrdev w then (0, s.freeNet k) else (0, s.setNet k w)

def ipnNodeRelease (s : State) (n : Nat) (node : Node) (lock netLock : Bool) : Int × State :=
  if !lock then (-ERESTARTSYS, s)
  else
    let (rv, s) := ipnTerminateNode s n node netLock
    if rv = 0 then (0, s.freeNode n) else (rv, s)

def ipnRelease (s : State) (n : Nat) (node : Node) (lock netLock : Bool) : Int × State :=
  let (rv, s) := ipnNodeRelease s n node lock netLock
  if rv = 0 then (0, s) else (rv, s.setNode n { node with closed := true })

/-! ## Bind -/

def ipnNodeBind (s : State) (n : Nat) (node : Node) (ipnn : Option Nat) : Int × State :=
  match ipnn with
  | none => (-ENOENT, s)
  | some k =>
    if node.ipn.isSome then (-EISCONN, s)
    else s.net k fun w =>
      let w := { w with refcnt := w.refcnt + 1, unconnectqueue := w.unconnectqueue ++ [n] }
      (0, (s.setNet k w).setNode n { node with ipn := some k, bound := true })

/-- What the lookup of the name finds: nothing, and a new network cannot be made; nothing, and a network
is made; or an inode, with the outcome of `inode_permission` and the address of its network. -/
inductive BindPath where
  | failed (err : Int)
  | created (k : Nat)
  | found (permission : Int) (isSock : Bool) (k : Nat)

def newNetwork (protocol : Nat) (parms : PreBindParms) : Network :=
  { protocol := protocol, flags := parms.flags, maxports := parms.maxports, connport := fun _ => none,
    connectqueue := [], unconnectqueue := [], refcnt := 0, chrdev := none }

def ipnBind (s : State) (n : Nat) (node : Node) (lock registered : Bool) (path : BindPath) : Int × State :=
  if !lock then (-ERESTARTSYS, s)
  else if node.sock ≠ some .unconnected ∨ node.ipn.isSome then (-EISCONN, s)
  else if IPN_MAX_PROTO ≤ (node.protocol : Int) ∨ !registered then (-EPROTONOSUPPORT, s)
  else
    match path with
    | .failed err => (err, s)
    | .created k =>
      let s := s.setNet k (newNetwork node.protocol (node.pbp.getD stdBindParms))
      (0, (ipnNodeBind s n { node with pbp := none } (some k)).2)
    | .found permission isSock k =>
      -- parms is still as it was initialised
      if stdBindParms.flags &&& IPN_FLAG_EXCL ≠ 0 then (-EEXIST, s)
      else if permission ≠ 0 then (permission, s)
      else if !isSock then (-ECONNREFUSED, s)
      else
        match s.nets k with
        | none => (-ECONNREFUSED, s)
        | some w =>
          if w.terminated ∨ w.flags &&& IPN_FLAG_EXCL ≠ 0 then (-ECONNREFUSED, s)
          else (0, (ipnNodeBind s n { node with pbp := none } (some k)).2)

/-! ## Connect -/

def ipnNewport (w : Network) : Int :=
  match (List.range w.maxports).find? (fun i => (w.connport i).isNone) with
  | none => -1
  | some i => i

/-- What the lookup of the name finds: an error, or an inode with the outcomes of `inode_permission`. -/
inductive ConnectPath where
  | failed (err : Int)
  | found (mayRead mayWrite : Int) (isSock : Bool) (k : Nat)

/-- The part of a node that is shut down for want of permissions. -/
def mustshutdown (rcv send : Bool) : BitVec 8 :=
  (if rcv then RCV_SHUTDOWN else 0) ||| (if send then SEND_SHUTDOWN else 0)

/-- The part of `ipn_connect` for unbound nodes: the network, or an error; the node changes in both cases. -/
def ipnConnectPath (s : State) (node : Node) : ConnectPath → Except Int Nat × Node
  | .failed err => (.error err, node)
  | .found mayRead mayWrite isSock k =>
    if mayRead ≠ 0 ∧ mayRead ≠ -EACCES ∧ mayRead ≠ -EROFS then (.error mayRead, node)
    else if mayWrite ≠ 0 ∧ mayWrite ≠ -EACCES then (.error mayWrite, node)
    else
      let shutdown := mustshutdown (mayRead != 0) (mayWrite != 0) ||| node.shutdown
      if shutdown = SHUTDOWN_XMASK then (.error (-EACCES), node)
      else
        let node := { node with shutdown := shutdown }
        if !isSock then (.error (-ECONNREFUSED), node)
        else
          match s.nets k with
          | none => (.error (-ECONNREFUSED), node)
          | some w =>
            if w.terminated then (.error (-ECONNREFUSED), node)
            else if node.protocol = IPN_ANY then (.ok k, { node with protocol := w.protocol, ipn := some k })
            else if w.protocol ≠ node.protocol then (.error (-EPROTO), node)
            else (.ok k, { node with ipn := some k })

def ipnConnectAt (s : State) (n : Nat) (node : Node) (previousipnn : Option Nat) (k : Nat) (netLock : Bool) :
    Int × State :=
  s.net k fun w =>
    if !netLock then (-ERESTARTSYS, s.setNode n node)
    else
      let portno := ipnNewport w
      if 0 ≤ portno ∧ portno < w.maxports then
        match w.store portno (some n) with
        | none => (0, s.wild)
        | some w =>
          let w := if !node.bound then { w with refcnt := w.refcnt + 1 } else w.listDel n
          let w := { w with connectqueue := w.connectqueue ++ [n] }
          (0, (s.setNet k w).setNode n { node with sock := some .connected, portno := portno })
      else (-EADDRNOTAVAIL, s.setNode n { node with ipn := previousipnn })

def ipnConnect (s : State) (n : Nat) (node : Node) (lock netLock : Bool) (path : ConnectPath) : Int × State :=
  if node.sock ≠ some .unconnected then (EISCONN, s)
  else if !lock then (-ERESTARTSYS, s)
  else
    match node.ipn with
    | some k => ipnConnectAt s n node (some k) k netLock
    | none =>
      match ipnConnectPath s node path with
      | (.error err, node) => (err, s.setNode n node)
      | (.ok k, node) => ipnConnectAt s n node none k netLock

/-- The way out of `ipn_node_create_connect`: the new node is released. No file refers to it. -/
def ipnNodeGiveUp (s : State) (n : Nat) (node : Node) (lock netLock : Bool) (err : Int) : Int × State :=
  let node := { node with closed := true }
  (err, (ipnNodeRelease (s.setNode n node) n node lock netLock).2)

/-- The semaphores that `ipn_node_create_connect` waits for, its own and those of the release. -/
structure OpenLocks where
  lock : Bool
  netLock : Bool
  releaseLock : Bool
  releaseNetLock : Bool

def ipnNodeCreateConnect (s : State) (n k : Nat) (locks : OpenLocks) : Int × State :=
  let node := ipnNodeCreate
  if !locks.lock then ipnNodeGiveUp s n node locks.releaseLock locks.releaseNetLock (-ERESTARTSYS)
  else s.net k fun w =>
    let node := { node with ipn := some k, protocol := w.protocol }
    if !locks.netLock then ipnNodeGiveUp s n node locks.releaseLock locks.releaseNetLock (-ERESTARTSYS)
    else
      let portno := ipnNewport w
      if 0 ≤ portno ∧ portno < w.maxports then
        match w.store portno (some n) with
        | none => (0, s.wild)
        | some w =>
          let w := if !node.bound then { w.listDel n with refcnt := w.refcnt + 1 } else w
          let w := { w with connectqueue := w.connectqueue ++ [n] }
          (0, (s.setNet k w).setNode n { node with portno := portno })
      else ipnNodeGiveUp s n { node with ipn := none } locks.releaseLock locks.releaseNetLock (-EADDRNOTAVAIL)

/-- `ipn_chrdev_open` on a device of the network `k`. `modeRead` and `modeWrite` are the mode of the file, `alloc`
tells whether there is memory for a node, and `stale` whether the variable `ipn_node` happens to be other
than NULL: nothing stores a pointer in it when the open fails. -/
def ipnChrdevOpen (s : State) (n k : Nat) (modeRead modeWrite : Bool) (mayRead mayWrite : Int) (alloc : Bool)
    (locks : OpenLocks) (stale : Bool) : Int × State :=
  let rcv := !modeRead || mayRead == -EACCES || mayRead == -EROFS
  let send := !modeWrite || mayWrite == -EACCES
  if rcv && send then (-EACCES, s)
  else if !alloc then (0, s.wild)
  else
    let (err, s) := ipnNodeCreateConnect s n k locks
    if err = 0 then
      match s.nodes n with
      | none => (0, s.wild)
      | some node => (0, s.setNode n { node with shutdown := mustshutdown rcv send })
    else if stale then (err, s.wild)
    else (err, s)

/-- The part of `ipn_connect_netdev` that finds a port for the device; `activate` is the outcome of
`ipn_netdev_activate`. -/
def ipnNetdevPort (s : State) (n : Nat) (node : Node) (k : Nat) (w : Network) (activate : Int) : Int × State :=
  let portno := ipnNewport w
  if 0 ≤ portno ∧ portno < w.maxports then
    match w.store portno (some n) with
    | none => (0, s.wild)
    | some w =>
      if activate ≠ 0 then
        match w.store portno none with
        | none => (0, s.wild)
        | some w => (activate, (s.setNet k w).setNode n { node with netdev := false, portno := -1 })
      else
        let w := w.listDel n
        let w := { w with connectqueue := w.connectqueue ++ [n] }
        (0, (s.setNet k w).setNode n { node with sock := some .connected, netdev := true, portno := portno })
  else (-EADDRNOTAVAIL, s.setNode n { node with netdev := false })

def ipnConnectNetdev (s : State) (n : Nat) (node : Node) (capable lock netLock alloc : Bool) (activate : Int) :
    Int × State :=
  if !capable then (-EPERM, s)
  else if node.sock ≠ some .unconnected then (-EISCONN, s)
  else
    match node.ipn with
    | none => (-ENOTCONN, s)
    | some k =>
      if !lock then (-ERESTARTSYS, s)
      else s.net k fun w =>
        if !netLock then (-ERESTARTSYS, s)
        else if !alloc then (-EINVAL, s.setNode n { node with netdev := false })
        else ipnNetdevPort s n node k w activate

/-! ## Ioctl -/

/-- The requests for connected or bound sockets. `ret` is what the registration of the device region, the
memory and the device itself come to. -/
inductive NetIoctl where
  | connNetdev (capable lock netLock alloc : Bool) (activate : Int)
  | registerChrdev (capable netLock : Bool) (ret : Int)
  | unregisterChrdev (netLock : Bool)
  | chrdevPersist (arg : Bool)

inductive Ioctl where
  | joinChrdev (capable lock : Bool) (k : Nat)
  | net (req : NetIoctl)

def ipnFindChrdev (s : State) (k : Nat) : Option Nat :=
  match s.nets k with
  | none => none
  | some w => if w.chrdev.isSome then some k else none

/-- The second part of `ipn_ioctl`, with `ipn_register_chrdev`, `ipn_deregister_chrdev` and
`ipn_chrdev_persistence`. -/
def ipnNetIoctl (s : State) (n : Nat) (node : Node) (k : Nat) (w : Network) : NetIoctl → Int × State
  | .connNetdev capable lock netLock alloc activate => ipnConnectNetdev s n node capable lock netLock alloc activate
  | .registerChrdev capable netLock ret =>
    if !netLock then (-ERESTARTSYS, s)
    else if !capable then (-EPERM, s)
    else if w.chrdev.isSome then (-EADDRINUSE, s)
    else if ret ≠ 0 then (ret, s)
    else (0, s.setNet k { w with chrdev := some false })
  | .unregisterChrdev netLock =>
    if !netLock then (-ERESTARTSYS, s)
    else if w.chrdev.isNone then (EINVAL, s)
    else (0, s.setNet k { w with chrdev := none })
  | .chrdevPersist arg =>
    if w.chrdev.isNone then (EINVAL, s) else (0, s.setNet k { w with chrdev := some arg })

def ipnIoctl (s : State) (n : Nat) (node : Node) (req : Ioctl) : Int × State :=
  if node.shutdown = SHUTDOWN_XMASK then (-ECONNRESET, s)
  else
    match req with
    | .joinChrdev capable lock k =>
      if !capable then (-EPERM, s)
      else if node.ipn.isSome then (-EISCONN, s)
      else if !lock then (-ERESTARTSYS, s)
      else ipnNodeBind s n node (ipnFindChrdev s k)
    | .net req =>
      match node.ipn with
      | none => (-ENOTCONN, s)
      | some k => s.net k fun w =>
        if w.terminated then (-ENOTCONN, s) else ipnNetIoctl s n node k w req

/-! ## Shutdown and options -/

def ipnShutdown (s : State) (n : Nat) (node : Node) (mode : Int) (netLock : Bool) : Int × State :=
  let mode := BitVec.ofInt 8 (mode + 1) &&& (RCV_SHUTDOWN ||| SEND_SHUTDOWN)
  let s' := s.setNode n { node with shutdown := node.shutdown ||| mode }
  match node.ipn with
  | none => (0, s')
  | some k => s.net k fun _ => if !netLock then (-ERESTARTSYS, s) else (0, s')

/-- `ipn_netresize`. The size in the network is an `unsigned short`. -/
def ipnNetresize (s : State) (k : Nat) (newsize : Int) (netLock alloc : Bool) : Int × State :=
  s.net k fun w =>
    if !netLock then (-ERESTARTSYS, s)
    else
      let oldsize := w.maxports
      if newsize = oldsize then (0, s)
      else if newsize < oldsize ∧ ∃ i < oldsize, newsize.toNat ≤ i ∧ (w.connport i).isSome then (-EADDRINUSE, s)
      else if !alloc then (-ENOMEM, s)
      else
        let m := if newsize < oldsize then newsize.toNat else oldsize
        (0, s.setNet k { w with
          connport := fun p => if p < m then w.connport p else none
          maxports := u16 newsize })

/-- The `switch` of `ipn_setsockopt`, for an option of the node; `pbp` is there for the options with
`IPN_SO_PREBIND`. -/
def ipnSockoptVal (s : State) (n : Nat) (node : Node) (optname : BitVec 32) (val : Int) (netLock alloc : Bool) :
    Int × State :=
  let setParms (f : PreBindParms → PreBindParms) : Int × State := (0, s.setNode n { node with pbp := node.pbp.map f })
  if optname = IPN_SO_PORT then
    if node.sock = some .unconnected then (0, s.setNode n { node with portno := val }) else (-EISCONN, s)
  else if optname = IPN_SO_CHANGE_NUMNODES then
    if node.bound then
      if val ≤ 0 then (-EINVAL, s)
      else
        match node.ipn with
        | none => (0, s.wild)
        | some k => ipnNetresize s k val netLock alloc
    else (0, s)
  else if optname = IPN_SO_HANDLE_OOB then
    let shutdown := if val ≠ 0 then node.shutdown &&& ~~~RCV_SHUTDOWN_NO_OOB
      else node.shutdown ||| RCV_SHUTDOWN_NO_OOB
    (0, s.setNode n { node with shutdown := shutdown })
  else if optname = IPN_SO_MTU then
    if val ≤ 0 then (-EINVAL, s.setNode n node) else setParms fun p => { p with mtu := u16 val }
  else if optname = IPN_SO_NUMNODES then
    if val ≤ 0 then (-EINVAL, s.setNode n node) else setParms fun p => { p with maxports := u16 val }
  else if optname = IPN_SO_MSGPOOLSIZE then
    if val ≤ 0 then (-EINVAL, s.setNode n node) else setParms fun p => { p with msgpoolsize := u16 val }
  else if optname = IPN_SO_FLAGS then setParms fun p => { p with flags := u16 val }
  else if optname = IPN_SO_MODE then setParms fun p => { p with mode := u16 val }
  else (0, s.setNode n node)

/-- `ipn_setsockopt`; `pbpAlloc` and `alloc` tell whether there is memory for the parameters and for a new
table. -/
def ipnSetsockopt (s : State) (n : Nat) (node : Node) (level : Int) (optname : BitVec 32)
    (optlen : Nat) (val : Int) (netLock pbpAlloc alloc : Bool) : Int × State :=
  if node.shutdown = SHUTDOWN_XMASK then (-ECONNRESET, s)
  else if level ≠ 0 ∧ level ≠ node.protocol + 1 then (-EPROTONOSUPPORT, s)
  else if 0 < level then
    match node.ipn with
    | none => (-EOPNOTSUPP, s)
    -- no protocol has options of its own
    | some k => s.net k fun _ => if !netLock then (-ERESTARTSYS, s) else (-EOPNOTSUPP, s)
  else if optname = IPN_SO_DESCR then
    if IPN_DESCRLEN < optlen then (-EINVAL, s) else (0, s)
  else if optlen < 4 then (-EINVAL, s)
  else if optname &&& IPN_SO_PREBIND ≠ 0 ∧ node.ipn.isSome then (-EISCONN, s)
  else if optname &&& IPN_SO_PREBIND ≠ 0 ∧ node.pbp.isNone then
    if !pbpAlloc then (-ENOMEM, s)
    else ipnSockoptVal s n { node with pbp := some stdBindParms } optname val netLock alloc
  else ipnSockoptVal s n node optname val netLock alloc

end Vde.Ipn
