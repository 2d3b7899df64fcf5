import Vde.Ipn
import Vde.IpnHash
import Vde.Lib.Bytes

/-!
# The kernel switch

The protocol of IPN networks that forwards Ethernet frames. Each of its networks has a table of addresses, which
learns the port of the sender of a frame and forgets a port when its node goes.
-/

namespace Vde.Ipn

def IPN_VDESWITCH : Nat := 2

def isBroadcast (data : Mem) (off : Nat) : Bool := data off &&& 1 == 1

def ethKey (data : Mem) (off : Nat) : HashKey :=
  let word (i : Nat) : BitVec 16 := (data i).toBitVec.setWidth 16 ||| ((data (i + 1)).toBitVec.setWidth 16) <<< 8
  { key0 := word off, key1 := word (off + 2), key2 := word (off + 4), vlan := 0 }

def ipnKvdeLearn (jiffies64 : BitVec 64) (alloc : Option Nat) (portno : Int) (data : Mem) (h : IpnHash) : IpnHash :=
  if !isBroadcast data 6 then ipnHashAdd jiffies64 alloc (ethKey data 6) portno h else h

/-- `ipn_kvde_switch_handlemsg` for a message of the node `n`: the nodes for which it calls `ipn_proto_sendmsg`,
which does nothing for an empty slot, and the table. -/
def ipnKvdeSwitchHandlemsg (jiffies64 : BitVec 64) (alloc : Option Nat) (n : Nat) (portno : Int) (w : Network)
    (data : Mem) (len : Nat) (h : IpnHash) : List Nat × IpnHash :=
  if len < 14 then ([], h)
  else
    let h := ipnKvdeLearn jiffies64 alloc portno data h
    let port := ipnHashFind (ethKey data 0) h
    if isBroadcast data 0 ∨ port < 0 then (w.connectqueue.filter (· != n), h)
    else ((w.connport port.toNat).toList, h)

/-- The networks, and the tables of those that use the switch, which are in `proto_private`. -/
structure KvdeState where
  ipn : State
  hash : Nat → Option IpnHash
  now : Nat

def terminateDelport (node : Node) (lock netLock : Bool) : Option (Nat × Int) :=
  match node.ipn with
  | none => none
  | some k => if lock ∧ netLock ∧ 0 ≤ node.portno then some (k, node.portno) else none

def netdevDelport (s : State) (node : Node) : NetIoctl → Option (Nat × Int)
  | .connNetdev capable lock netLock alloc activate =>
    match node.ipn with
    | none => none
    | some k =>
      match s.nets k with
      | none => none
      | some w =>
        let portno := ipnNewport w
        if node.shutdown ≠ SHUTDOWN_XMASK ∧ ¬w.terminated ∧ capable ∧ node.sock = some .unconnected ∧ lock ∧ netLock ∧
          alloc ∧ 0 ≤ portno ∧ portno < w.maxports ∧ activate ≠ 0 then some (k, portno) else none
  | _ => none

namespace KvdeState

def onHash (s : KvdeState) (k : Nat) (f : IpnHash → IpnHash) : KvdeState :=
  { s with hash := Function.update s.hash k ((s.hash k).map f) }

@[simp] lemma onHash_self (s : KvdeState) (k : Nat) (f : IpnHash → IpnHash) :
    (s.onHash k f).hash k = (s.hash k).map f := Function.update_self ..

@[simp] lemma onHash_ne (s : KvdeState) {j k : Nat} (h : j ≠ k) (f : IpnHash → IpnHash) :
    (s.onHash k f).hash j = s.hash j := Function.update_of_ne h ..

/-- A new network of the protocol gets its table. Nothing tests what `ipn_hash_new` returns: without memory there is no
table, and whatever uses it follows a null pointer. -/
def netHash (hz : BitVec 64) (alloc : Bool) (before after : Option Network) (h : Option IpnHash) : Option IpnHash :=
  match before, after with
  | _, none => none
  | some _, some _ => h
  | none, some w => if w.protocol + 1 = IPN_VDESWITCH then ipnHashNew hz 256 30 alloc else none

/-- After a call on a node: the table forgets the port that went, and goes or comes with its network. -/
def afterCall (hz : BitVec 64) (alloc : Bool) (s : KvdeState) (ipn : State) (gone : Option (Nat × Int)) : KvdeState :=
  let s' := match gone with
    | none => s
    | some (k, port) => s.onHash k (ipnHashFlushPort port)
  { s' with ipn := ipn, hash := fun k => netHash hz alloc (s.ipn.nets k) (ipn.nets k) (s'.hash k) }

@[simp] lemma afterCall_now (hz : BitVec 64) (alloc : Bool) (s : KvdeState) (ipn : State)
    (gone : Option (Nat × Int)) : (s.afterCall hz alloc ipn gone).now = s.now := by
  cases gone with
  | none => rfl
  | some _ => rfl

def afterFrame (s : KvdeState) (n : Nat) (data : Mem) (len t : Nat) (alloc : Option Nat) : KvdeState :=
  match s.ipn.nodes n with
  | none => s
  | some node =>
    match node.ipn with
    | none => s
    | some k =>
      match s.ipn.nets k with
      | none => s
      | some w =>
        { s.onHash k (fun h =>
            (ipnKvdeSwitchHandlemsg (BitVec.ofNat 64 t) alloc n node.portno w data len h).2) with now := t }

def afterTimer (s : KvdeState) (k t : Nat) : KvdeState :=
  { s.onHash k (ipnHashTimerExpired (BitVec.ofNat 64 t)) with now := t }

end KvdeState

end Vde.Ipn
