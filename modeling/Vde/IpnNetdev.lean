import Vde.Proofs.IpnPorts

/-!
# Network devices of IPN

A node that has a network device can be made persistent: it stays when its file is closed, until the
persistence is cleared or another socket joins the device.
-/

namespace Vde.Ipn

open Function

def ENODEV : Int := 19

structure DevState where
  ipn : State
  persist : Nat → Bool
  inUse : Nat → Bool

namespace DevState

def created (d : DevState) (n : Nat) : DevState :=
  { d with persist := update d.persist n false, inUse := update d.inUse n true }

/-- A part of the code that does not touch the flags. -/
def lift (d : DevState) (r : Int × State) : Int × DevState := (r.1, { d with ipn := r.2 })

end DevState

def ipnReleaseNode (d : DevState) (n : Nat) (node : Node) (lock netLock : Bool) : Int × DevState :=
  if lock && d.persist n then
    (0, { d with ipn := d.ipn.setNode n { node with closed := true }, inUse := update d.inUse n false })
  else d.lift (ipnRelease d.ipn n node lock netLock)

def ipnSetpersistNode (d : DevState) (n : Nat) (node : Node) (persist netLock : Bool) : Int × DevState :=
  if persist then (0, { d with persist := update d.persist n true })
  else
    let d := { d with persist := update d.persist n false }
    if d.inUse n then (0, d)
    else
      let (rv, s) := ipnTerminateNode d.ipn n node netLock
      if rv = 0 then (0, { d with ipn := s.freeNode n }) else (rv, { d with ipn := s })

def ipnSetpersist (d : DevState) (n : Nat) (node : Node) (persist lock netLock : Bool) : Int × DevState :=
  if !node.netdev then (-ENODEV, d)
  else if !lock then (-ERESTARTSYS, d)
  else ipnSetpersistNode d n node persist netLock

/-- `ipn_setpersist_netdev`; `dev` is the node of the device that is found. -/
def ipnSetpersistNetdev (d : DevState) (dev : Option Nat) (value capable lock netLock : Bool) : Int × DevState :=
  if !capable then (-EPERM, d)
  else if !lock then (-ERESTARTSYS, d)
  else
    match dev with
    | none => (-EADDRNOTAVAIL, d)
    | some m =>
      match d.ipn.nodes m with
      | none => (-EADDRNOTAVAIL, d)
      | some node => (0, (ipnSetpersistNode d m node value netLock).2)

/-- `ipn_join_netdev`. The socket of `n` gets the node `m`, and `n` is freed. A node with two sockets is
followed no further. -/
def ipnJoinNetdev (d : DevState) (n : Nat) (node : Node) (k : Nat) (w : Network) (lock netLock : Bool)
    (dev : Option Nat) : Int × DevState :=
  if node.sock ≠ some .unconnected then (-EISCONN, d)
  else if !lock then (-ERESTARTSYS, d)
  else if !netLock then (-ERESTARTSYS, d)
  else
    match dev with
    | none => (-EADDRNOTAVAIL, d)
    | some m =>
      match d.ipn.nodes m with
      | none => (-EADDRNOTAVAIL, d)
      | some joined =>
        if ∃ i < w.maxports, w.connport i = some m then
          let s := d.ipn.setNode m { joined with sock := node.sock, closed := false }
          let s := (s.setNet k { w with refcnt := w.refcnt - 1 }).freeNode n
          (0, { d with
            ipn := if joined.closed then s else s.wild
            inUse := update d.inUse m true })
        else (-EPERM, d)

inductive DevIoctl where
  | setpersistNetdev (value capable lock netLock : Bool) (dev : Option Nat)
  | joinNetdev (lock netLock : Bool) (dev : Option Nat)
  | setpersist (arg lock netLock : Bool)

def ipnDevIoctl (d : DevState) (n : Nat) (node : Node) (req : DevIoctl) : Int × DevState :=
  if node.shutdown = SHUTDOWN_XMASK then (-ECONNRESET, d)
  else
    match req with
    | .setpersistNetdev value capable lock netLock dev => ipnSetpersistNetdev d dev value capable lock netLock
    | .joinNetdev lock netLock dev =>
      match node.ipn with
      | none => (-ENOTCONN, d)
      | some k =>
        match d.ipn.nets k with
        | none => (0, { d with ipn := d.ipn.wild })
        | some w => if w.terminated then (-ENOTCONN, d) else ipnJoinNetdev d n node k w lock netLock dev
    | .setpersist arg lock netLock =>
      match node.ipn with
      | none => (-ENOTCONN, d)
      | some k =>
        match d.ipn.nets k with
        | none => (0, { d with ipn := d.ipn.wild })
        | some w => if w.terminated then (-ENOTCONN, d) else ipnSetpersist d n node arg lock netLock

/-! ## Runs -/

/-- A call; the devices add theirs to those of the sockets. -/
inductive DevEvent where
  | call (e : IpnEvent)
  | ioctl (n : Nat) (req : DevIoctl)

def devStep (d : DevState) : DevEvent → DevState
  | .call (.release n lock netLock) =>
    match d.ipn.nodes n with
    | none => d
    | some node => (ipnReleaseNode d n node lock netLock).2
  | .call (.socket n protocol registered) => { d.created n with ipn := ipnStep d.ipn (.socket n protocol registered) }
  | .call (.chrdevOpen n k modeRead modeWrite mayRead mayWrite alloc locks stale) =>
    { d.created n with ipn := ipnStep d.ipn (.chrdevOpen n k modeRead modeWrite mayRead mayWrite alloc locks stale) }
  | .call e => { d with ipn := ipnStep d.ipn e }
  | .ioctl n req =>
    match d.ipn.nodes n with
    | none => d
    | some node => (ipnDevIoctl d n node req).2

def DevIoctl.Legal (s : State) : DevIoctl → Prop
  | .setpersistNetdev _ _ _ _ dev | .joinNetdev _ _ dev =>
    ∀ m, dev = some m → ∃ node, s.nodes m = some node ∧ node.netdev = true
  | .setpersist _ _ _ => True

def DevEvent.Legal (s : State) : DevEvent → Prop
  | .call e => e.Legal s
  | .ioctl n req => s.HasSocket n ∧ req.Legal s

def devMachine : Machine DevState DevEvent where
  enabled d e := d.ipn.fault = false ∧ e.Legal d.ipn
  step := devStep

def devInit : DevState := { ipn := ipnInit, persist := fun _ => false, inUse := fun _ => false }

end Vde.Ipn
