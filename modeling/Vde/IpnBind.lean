import Vde.Ipn

/-!
# The resources of `ipn_bind`

Behind the lookup of its name `ipn_bind` makes a new network or joins one. A new network takes a reference of the module,
one of the message cache for its `mtu` and one of its protocol, and goes into `ipn_network_table`; a ladder of labels
gives back what was taken when a step fails.
-/

namespace Vde.Ipn

def IPN_FLAG_FLEXMTU : Nat := 4

/-- `struct ipn_msgbuf`. The cache is what `kmem_cache_create` returned. -/
structure MsgBuf where
  mtu : Nat
  refcnt : Int
  cache : Option Nat

/-- `ipn_msgbuf_get`: the cache, and the list `ipn_msgbufh` after the call; `alloc` tells whether there is memory for a
new element and `created` what `kmem_cache_create` returns. -/
def ipnMsgbufGet (mtu : Nat) (alloc : Bool) (created : Option Nat) : List MsgBuf → Option Nat × List MsgBuf
  | [] => if alloc then (created, [{ mtu := mtu, refcnt := 1, cache := created }]) else (none, [])
  | b :: rest =>
    if mtu = b.mtu then (b.cache, { b with refcnt := b.refcnt + 1 } :: rest)
    else
      let (cache, rest) := ipnMsgbufGet mtu alloc created rest
      (cache, b :: rest)

/-- What the binds of all nodes share: the counts of the protocols, the message caches, the references of the module
and `ipn_network_table`. -/
structure BindWorld where
  refcnt : Nat → Int
  msgbufs : List MsgBuf
  moduleRefs : Int
  table : Nat → List Nat

/-- What the system answers while a network is made: `kern_path_create`, `mnt_want_write`, `vfs_mknod`, the network and
its table of ports, `try_module_get`, the two allocations of `ipn_msgbuf_get` and `ipn_p_newnet`. `bucket` is the
place of the inode in `ipn_network_table`. -/
structure BindEnv where
  create : Int
  wantWrite : Int
  mknod : Int
  network : Option Nat
  connport : Bool
  moduleGet : Bool
  msgbuf : Bool
  cache : Option Nat
  newnet : Int
  bucket : Nat

inductive BindLookup where
  | missing (e : BindEnv)
  | found (permission : Int) (isSock : Bool) (net : Option (Nat × Network))

def outMknodUnlock (err : Int) : Int := if err = -EEXIST then -EADDRINUSE else err

/-- The label `out_mknod_dput_putmodule`. -/
def BindWorld.putModule (g : BindWorld) : BindWorld := { g with moduleRefs := g.moduleRefs - 1 }

def takeCache (parms : PreBindParms) (e : BindEnv) (g : BindWorld) : Bool × BindWorld :=
  if parms.flags &&& IPN_FLAG_FLEXMTU ≠ 0 then (true, g)
  else
    let (cache, msgbufs) := ipnMsgbufGet parms.mtu e.msgbuf e.cache g.msgbufs
    (cache.isSome, { g with msgbufs := msgbufs })

/-- The ladder of `ipn_bind` for a name that is new: what a failed step gives back is what its label says. -/
def ipnBindNew (g : BindWorld) (node : Node) (e : BindEnv) : Int × BindWorld × Node :=
  if e.create ≠ 0 then (outMknodUnlock e.create, g, node)
  else if e.wantWrite ≠ 0 then (outMknodUnlock e.wantWrite, g, node)
  else if e.mknod ≠ 0 then (outMknodUnlock e.mknod, g, node)
  else
    let parms := node.pbp.getD stdBindParms
    match e.network with
    | none => (-ENOMEM, g, node)
    | some k =>
      if !e.connport then (-ENOMEM, g, node)
      else if !e.moduleGet then (-EINVAL, g, node)
      else
        let g := { g with moduleRefs := g.moduleRefs + 1 }
        let (ok, g) := takeCache parms e g
        if !ok then (-ENOMEM, g.putModule, node)
        else
          let g := { g with refcnt := Function.update g.refcnt node.protocol (g.refcnt node.protocol + 1) }
          if e.newnet ≠ 0 then (outMknodUnlock e.newnet, g.putModule, node)
          else
            let g := { g with table := Function.update g.table e.bucket (k :: g.table e.bucket) }
            (0, g, { node with pbp := none, ipn := some k, bound := true })

def ipnBindJoin (g : BindWorld) (node : Node) (permission : Int) (isSock : Bool) (net : Option (Nat × Network)) :
    Int × BindWorld × Node :=
  -- parms is still as it was initialised
  if stdBindParms.flags &&& IPN_FLAG_EXCL ≠ 0 then (-EEXIST, g, node)
  else if permission ≠ 0 then (permission, g, node)
  else if !isSock then (-ECONNREFUSED, g, node)
  else
    match net with
    | none => (-ECONNREFUSED, g, node)
    | some (k, w) =>
      if w.flags &&& IPN_FLAG_TERMINATED ≠ 0 ∨ w.flags &&& IPN_FLAG_EXCL ≠ 0 then (-ECONNREFUSED, g, node)
      else (0, g, { node with pbp := none, ipn := some k, bound := true })

def ipnBindFile (g : BindWorld) (node : Node) : BindLookup → Int × BindWorld × Node
  | .missing e => ipnBindNew g node e
  | .found permission isSock net => ipnBindJoin g node permission isSock net

end Vde.Ipn
