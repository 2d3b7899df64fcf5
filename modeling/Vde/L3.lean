import Vde.Lib.NetOrder
import Vde.Lib.Machine

/-!
# vde_l3

A small router between switches. A packet that is not for the router itself is forwarded: `ip_send`
looks for the interface of the destination, or of a gateway, and hands the packet to the queueing
policy of that interface. Addresses of interfaces and routes are kept in host order, those of the
ARP table in network order.
-/

namespace Vde.L3

open Function

/-- `struct vde_buff`; the queues are lists. A packet fits into the 1550 bytes that `main` allocates. -/
structure Buff where
  data : Mem
  len : Nat
  room : len ≤ 1550

namespace Buff

/-- The fields of `struct iphdr`, which begins at offset 14. -/
def ttl (vdb : Buff) : UInt8 := vdb.data 22
def check (vdb : Buff) : BitVec 16 := load16 vdb.data 24
def saddr (vdb : Buff) : BitVec 32 := load32 vdb.data 26
def daddr (vdb : Buff) : BitVec 32 := load32 vdb.data 30

end Buff

abbrev Mac := Vector UInt8 6

def macAt (mem : Mem) (off : Nat) : Mac := Vector.ofFn (fun i => mem (off + i))

inductive Policy where
  | ufifo
  | pfifo
  | bfifo
  | tbf
  deriving DecidableEq, Repr

/-- `tc_priv`, sixteen words that each policy reads as a structure of its own. -/
abbrev TcPriv := Nat → BitVec 32

/-- The words of `struct tc_pfifo` and `struct tc_bfifo`, and the first ones of `struct tc_tbf`. -/
def qlenAt : Nat := 0
def limitAt : Nat := 1
def droppedAt : Nat := 2

/-- The other words of `struct tc_tbf`. The times take four words each. -/
def latencyAt : Nat := 2
def rateAt : Nat := 3
def tbfDroppedAt : Nat := 4
def mtuAt : Nat := 5
def bytesOutAt : Nat := 6
def deltaAt : Nat := 8
def lastOutAt : Nat := 12

/-- Two words read as a number of 64 bits. -/
def wide (priv : TcPriv) (i : Nat) : Int := (priv (i + 1) ++ priv i : BitVec 64).toInt

def storeWide (priv : TcPriv) (i : Nat) (x : Int) : TcPriv :=
  let bits := BitVec.ofInt 64 x
  update (update priv i (bits.extractLsb' 0 32)) (i + 1) (bits.extractLsb' 32 32)

structure Time where
  sec : Int
  usec : Int
  deriving DecidableEq, Repr

def timeAt (priv : TcPriv) (i : Nat) : Time := ⟨wide priv i, wide priv (i + 2)⟩

def storeTime (priv : TcPriv) (i : Nat) (t : Time) : TcPriv :=
  storeWide (storeWide priv i t.sec) (i + 2) t.usec

def addT (x y : Time) : Time :=
  ⟨x.sec + y.sec + (x.usec + y.usec).tdiv 1000000, (x.usec + y.usec).tmod 1000000⟩

def Time.before (x y : Time) : Bool := x.sec < y.sec || (x.sec == y.sec && x.usec < y.usec)

/-- `struct vde_iface`. `policy` stands for the four function pointers that `set_interface_policy`
stores together. -/
structure Iface where
  id : BitVec 8
  mac : Mac
  ipaddr : BitVec 32
  nm : BitVec 32
  qOut : List Buff
  policyName : Policy
  policy : Policy
  tcPriv : TcPriv

/-! ## Queueing -/

def ufifoEnqueue (vdb : Buff) (vif : Iface) : Iface := { vif with qOut := vif.qOut ++ [vdb] }

/-- The branch of a full queue, which counts the packet at a word of the private data. -/
def dropAt (i : Nat) (vif : Iface) : Iface :=
  { vif with tcPriv := update vif.tcPriv i (vif.tcPriv i + 1) }

def pfifoEnqueue (vdb : Buff) (vif : Iface) : Bool × Iface :=
  let priv := vif.tcPriv
  if priv qlenAt < priv limitAt then
    (true, ufifoEnqueue vdb { vif with tcPriv := update priv qlenAt (priv qlenAt + 1) })
  else (false, dropAt droppedAt vif)

/-- `bfifo_enqueue`; the sum is one of 64 bits. -/
def bfifoEnqueue (vdb : Buff) (vif : Iface) : Bool × Iface :=
  let priv := vif.tcPriv
  if (priv qlenAt).toNat + vdb.len < (priv limitAt).toNat then
    (true, ufifoEnqueue vdb
      { vif with tcPriv := update priv qlenAt (priv qlenAt + BitVec.ofNat 32 vdb.len) })
  else (false, dropAt droppedAt vif)

/-- The private data after a packet larger than any before; `none` is a division by zero. -/
def tbfGrow (vdb : Buff) (priv : TcPriv) : Option TcPriv :=
  let mtu := BitVec.ofNat 32 vdb.len
  let rate := priv rateAt
  let latency := priv latencyAt
  if rate = 0 ∨ latency ≠ 0 ∧ mtu = 0 then none
  else
    let priv := update priv mtuAt mtu
    let priv := storeWide priv (deltaAt + 2) ((1000000 * mtu) / rate).toNat
    some (if latency ≠ 0 then update priv limitAt (rate / mtu * latency) else priv)

def tbfEnqueue (vdb : Buff) (vif : Iface) : Option (Bool × Iface) :=
  let priv := vif.tcPriv
  if priv qlenAt < priv limitAt then
    let priv := update priv qlenAt (priv qlenAt + BitVec.ofNat 32 vdb.len)
    if (priv mtuAt).toNat < vdb.len then
      (tbfGrow vdb priv).map (fun priv => (true, ufifoEnqueue vdb { vif with tcPriv := priv }))
    else some (true, ufifoEnqueue vdb { vif with tcPriv := priv })
  else some (false, dropAt tbfDroppedAt vif)

/-- A call through the pointer `enqueue`: whether the packet was taken, and the interface. -/
def enqueue (vdb : Buff) (vif : Iface) : Option (Bool × Iface) :=
  match vif.policy with
  | .ufifo => some (true, ufifoEnqueue vdb vif)
  | .pfifo => some (pfifoEnqueue vdb vif)
  | .bfifo => some (bfifoEnqueue vdb vif)
  | .tbf => tbfEnqueue vdb vif

/-- What a call through the pointer `dequeue` does: the interface after it, the packets handed to
`raw_send`, and whether it reads through a null pointer or does not end. -/
structure Dequeued where
  vif : Iface
  sent : List Buff
  fault : Bool

def ufifoDequeue (vif : Iface) : Dequeued :=
  match vif.qOut with
  | [] => ⟨vif, [], true⟩
  | vdb :: rest => ⟨{ vif with qOut := rest }, [vdb], false⟩

def pfifoDequeue (vif : Iface) : Dequeued :=
  let d := ufifoDequeue vif
  let priv := d.vif.tcPriv
  if 0 < priv qlenAt then
    { d with vif := { d.vif with tcPriv := update priv qlenAt (priv qlenAt - 1) } }
  else d

/-- `bfifo_dequeue`. The length taken off is that of the packet which is first after the call of
`ufifo_dequeue`. -/
def bfifoDequeue (vif : Iface) : Dequeued :=
  let d := ufifoDequeue vif
  let priv := d.vif.tcPriv
  if 0 < priv qlenAt then
    match d.vif.qOut with
    | [] => { d with fault := true }
    | vdb :: _ =>
      { d with
        vif := { d.vif with
          tcPriv := update priv qlenAt (priv qlenAt - BitVec.ofNat 32 vdb.len) } }
  else d

def tbfWhen (vif : Iface) : Time := addT (timeAt vif.tcPriv lastOutAt) (timeAt vif.tcPriv deltaAt)

def tbfSpend (now : Time) (priv : TcPriv) : TcPriv :=
  if priv bytesOutAt < priv mtuAt then priv
  else
    update (storeTime priv lastOutAt now) bytesOutAt (priv bytesOutAt % priv mtuAt)

/-- `tbf_dequeue`. With an `mtu` of zero its loop does not end. -/
def tbfDequeue (now : Time) (vif : Iface) : Dequeued :=
  if now.before (tbfWhen vif) then ⟨vif, [], false⟩
  else match vif.qOut with
    | [] => ⟨vif, [], true⟩
    | vdb :: rest =>
      let out := BitVec.ofNat 32 vdb.len
      let priv := update vif.tcPriv bytesOutAt out
      let priv := update priv qlenAt (priv qlenAt - out)
      if priv mtuAt = 0 then ⟨{ vif with qOut := rest, tcPriv := priv }, [vdb], true⟩
      else ⟨{ vif with qOut := rest, tcPriv := tbfSpend now priv }, [vdb], false⟩

def dequeue (now : Time) (vif : Iface) : Dequeued :=
  match vif.policy with
  | .ufifo => ufifoDequeue vif
  | .pfifo => pfifoDequeue vif
  | .bfifo => bfifoDequeue vif
  | .tbf => tbfDequeue now vif

/-! ## Tables -/

structure Route where
  network : BitVec 32
  nm : BitVec 32
  gw : BitVec 32
  deriving DecidableEq, Repr

structure ArpEntry where
  mac : Mac
  ipaddr : BitVec 32
  deriving DecidableEq, Repr

/-- `struct vde_router`. Routes and ARP entries come from `malloc`, and nobody sets their `next` when they
are appended: `routeWild` and `arpWild` say that the pointer at the end of the table is not null, and `garbage` what
the blocks that are appended later have there. `modloop` is set when the last element of `modlist` points
to itself. `queued` and `sent` are histories, newest first: packets taken by the queue of an interface, and
packets handed to `raw_send` by the ARP functions. Interfaces are named by their place in the list. -/
structure Router where
  interfaces : List Iface
  routeTable : List Route
  routeWild : Bool
  arpTable : List ArpEntry
  arpWild : Bool
  garbage : Nat → Bool
  modlist : List Policy
  modloop : Bool
  defaultGw : BitVec 32
  queued : List (Nat × Buff)
  sent : List (Nat × Buff)

def firstIface (p : Iface → Bool) : List Iface → Nat → Option (Nat × Iface)
  | [], _ => none
  | vif :: rest, i => if p vif then some (i, vif) else firstIface p rest (i + 1)

lemma firstIface_spec {p : Iface → Bool} {vif : Iface} :
    ∀ {l : List Iface} {k i : Nat}, firstIface p l k = some (i, vif) → p vif = true ∧ k ≤ i ∧ l[i - k]? = some vif
  | [], _, _, h => by cases h
  | v :: rest, k, i, h => by
    rw [firstIface] at h
    by_cases hp : p v = true
    · rw [if_pos hp] at h
      cases h
      exact ⟨hp, Nat.le_refl _, by simp⟩
    rw [if_neg hp] at h
    have ⟨hvif, hle, hget⟩ := firstIface_spec h
    refine ⟨hvif, by omega, ?_⟩
    rw [show i - k = i - (k + 1) + 1 by omega, List.getElem?_cons_succ]
    exact hget

lemma firstIface_none {p : Iface → Bool} :
    ∀ {l : List Iface} {k : Nat}, firstIface p l k = none → ∀ vif ∈ l, p vif = false
  | [], _, _, vif, hvif => by cases hvif
  | v :: rest, k, h, vif, hvif => by
    rw [firstIface] at h
    by_cases hp : p v = true
    · rw [if_pos hp] at h
      cases h
    rw [if_neg hp] at h
    rcases List.mem_cons.mp hvif with heq | hmem
    · rw [heq]
      exact Bool.eq_false_iff.mpr hp
    · exact firstIface_none h vif hmem

def getIfaceByIpaddr (r : Router) (addr : BitVec 32) : Option (Nat × Iface) :=
  firstIface (fun vif => vif.ipaddr == addr) r.interfaces 0

/-- The test of `is_neightbor`. -/
def Iface.onNetwork (vif : Iface) (addr : BitVec 32) : Bool := vif.ipaddr &&& vif.nm == addr &&& vif.nm

def isNeightbor (r : Router) (addr : BitVec 32) : Option (Nat × Iface) :=
  firstIface (fun vif => vif.onNetwork addr) r.interfaces 0

/-- The first test of `get_gateway`. -/
def Route.matches (vdr : Route) (addr : BitVec 32) : Bool := vdr.network &&& vdr.nm == addr &&& vdr.nm

def gatewayLoop (addr : BitVec 32) : List Route → BitVec 32 × BitVec 32 → BitVec 32 × BitVec 32
  | [], best => best
  | vdr :: rest, best =>
    if vdr.matches addr ∧ best.2 < vdr.nm then gatewayLoop addr rest (vdr.gw, vdr.nm)
    else gatewayLoop addr rest best

/-- `get_gateway`, which looks at every route, for a table that ends. -/
def getGateway (r : Router) (addr : BitVec 32) : BitVec 32 :=
  let res := (gatewayLoop addr r.routeTable (0, 0)).1
  if res = 0 then r.defaultGw else res

/-- `get_arp_entry`. Where there is no entry, it goes through the last `next`. -/
def getArpEntry (r : Router) (ipaddr : BitVec 32) : Option ArpEntry :=
  r.arpTable.find? (fun a => a.ipaddr == ipaddr)

/-- `add_route` for a block just allocated; the recursion goes through the last `next`. -/
def addRoute (r : Router) (vdr : Route) : Option Router :=
  if r.routeWild then none
  else some { r with
    routeTable := r.routeTable ++ [vdr], routeWild := r.garbage 0, garbage := fun i => r.garbage (i + 1) }

/-- `add_arp_entry` for a block just allocated. -/
def addArpEntry (r : Router) (ae : ArpEntry) : Option Router :=
  if r.arpWild then none
  else some { r with
    arpTable := r.arpTable ++ [ae], arpWild := r.garbage 0, garbage := fun i => r.garbage (i + 1) }

/-! ## Sending -/

def etherBroadcast : List UInt8 := List.replicate 6 0xFF

def arpRequest (oif : Iface) (tgt : BitVec 32) : Buff :=
  let data := memcpy (fun _ => 0) 0
    (etherBroadcast ++ oif.mac.toList ++ [0x08, 0x06, 0, 1, 0x08, 0x00, 6, 4, 0, 1] ++ oif.mac.toList ++
      bytes32 (ntohl oif.ipaddr) ++ List.replicate 6 0 ++ bytes32 (ntohl tgt))
  { data := data, len := 60, room := by decide }

/-- What a function that sends or handles a packet comes to: its return value and the router, the call
of `ip_input`, or a fault, through a null interface, in a division by zero, or through a `next` that nobody
has set. -/
inductive Result where
  | done (ret : Int) (r : Router)
  | input (r : Router) (vdb : Buff)
  | nullIface
  | divZero
  | wild

/-- The common part of `neightbor_send` and `gateway_send`: the packet goes to the queue of the interface
`vif`, at place `i`, for the Ethernet address of `hop`, or the address is asked for. The packet of which
`memset` clears an address in the second case is not used again. -/
def hopSend (r : Router) (i : Nat) (vif : Iface) (hop : BitVec 32) (vdb : Buff) : Result :=
  match getArpEntry r (ntohl hop) with
  | some ae =>
    let vdb := { vdb with data := memcpy (memcpy vdb.data 6 vif.mac.toList) 0 ae.mac.toList }
    match enqueue vdb vif with
    | none => .divZero
    | some (taken, vif) =>
      .done (if taken then 1 else 0) { r with
        interfaces := r.interfaces.set i vif
        queued := if taken then (i, vdb) :: r.queued else r.queued }
  | none => if r.arpWild then .wild else .done 0 { r with sent := (i, arpRequest vif hop) :: r.sent }

def neightborSend (r : Router) (oif : Nat × Iface) (vdb : Buff) : Result :=
  hopSend r oif.1 oif.2 (ntohl vdb.daddr) vdb

def gatewaySend (r : Router) (vdb : Buff) (gw : BitVec 32) : Result :=
  match isNeightbor r gw with
  | none => .nullIface
  | some oif => hopSend r oif.1 oif.2 gw vdb

def ipSend (r : Router) (vdb : Buff) : Result :=
  match isNeightbor r (ntohl vdb.daddr) with
  | some oif => neightborSend r oif vdb
  | none =>
    if r.routeWild then .wild
    else
      let gateway := getGateway r (ntohl vdb.daddr)
      if gateway ≠ 0 then gatewaySend r vdb gateway else .done (-1) r

/-- `iph->ttl--; iph->check++`. -/
def decrementTtl (vdb : Buff) : Buff :=
  let data := store8 vdb.data 22 (vdb.ttl - 1)
  { vdb with data := store16 data 24 (load16 data 24 + 1) }

def ipForward (r : Router) (vdb : Buff) : Result :=
  let vdb := decrementTtl vdb
  if vdb.ttl < 1 then .done (-1) r else ipSend r vdb

/-- The first part of `parse_ip`. Both the search and the append go through the last `next`. -/
def learnArp (r : Router) (vdb : Buff) : Option Router :=
  match getArpEntry r vdb.saddr with
  | some _ => some r
  | none => addArpEntry r ⟨macAt vdb.data 6, vdb.saddr⟩

def parseIp (r : Router) (vdb : Buff) : Result :=
  match learnArp r vdb with
  | none => .wild
  | some r =>
    match getIfaceByIpaddr r (ntohl vdb.daddr) with
    | some _ => .input r vdb
    | none => ipForward r vdb

/-! ## ARP -/

def arpReplyTo (oif : Iface) (vdb : Buff) : Buff :=
  let old := vdb.data
  let data := memcpy old 0 (readBytes old 6 6 ++ oif.mac.toList)
  let data := store16 data 20 (ntohs 2)
  let data := memcpy data 22 (oif.mac.toList ++ readBytes old 38 4 ++ readBytes old 22 6 ++ readBytes old 28 4)
  { vdb with data := data }

/-- `parse_arp`. No query is ever pending. -/
def parseArp (r : Router) (vdb : Buff) : Result :=
  match getIfaceByIpaddr r (ntohl (load32 vdb.data 38)) with
  | none => .done (-1) r
  | some (i, vif) =>
    match addArpEntry r ⟨macAt vdb.data 22, load32 vdb.data 28⟩ with
    | none => .wild
    | some r =>
      if ntohs (load16 vdb.data 20) = 1 then .done 0 { r with sent := (i, arpReplyTo vif vdb) :: r.sent }
      else .done (-1) r

end Vde.L3
