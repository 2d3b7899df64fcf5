import Mathlib.Algebra.Ring.Int.Defs
import Vde.Lib.NetOrder
import Vde.Lib.Machine

/-!
# vde_router: routes and addresses

The routing table is a list, searched from its head for the first route whose network contains
an address. `vder_route_add` keeps it ordered by netmask and metric. An address given to an
interface brings a route to its network with it, with metric 1 and no gateway.

Addresses and netmasks are words in network order. Interfaces are named by their numbers.
-/

namespace Vde

inductive RouterErrno where
  | ehostunreach
  | eexist
  | eaddrinuse
  | enoent
  | einval
  | enomem
  deriving DecidableEq, Repr

/-- What a function returns, and the value it leaves in `errno` if it sets it. -/
structure CallResult where
  ret : Int
  errno : Option RouterErrno
  deriving DecidableEq, Repr

structure Route where
  destAddr : BitVec 32
  netmask : BitVec 32
  gateway : BitVec 32
  metric : BitVec 16
  iface : Nat
  deriving DecidableEq, Repr

/-- `struct vder_ip4address`. -/
structure Ip4Address where
  address : BitVec 32
  netmask : BitVec 32
  deriving DecidableEq, Repr

def Route.covers (ro : Route) (address : BitVec 32) : Bool :=
  ntohl address &&& ntohl ro.netmask == ntohl ro.destAddr

def vderGetRoute (table : List Route) (address : BitVec 32) : Option Route :=
  table.find? (fun cur => cur.covers address)

def Route.goesBefore (ro cur : Route) : Bool :=
  ntohl cur.netmask < ntohl ro.netmask || (cur.netmask == ro.netmask && cur.metric < ro.metric)

/-- A route goes behind those with a longer netmask, and behind those with the same netmask and a metric not above its own. -/
def insertRoute (ro : Route) : List Route → List Route
  | [] => [ro]
  | cur :: rest => if ro.goesBefore cur then ro :: cur :: rest else cur :: insertRoute ro rest

def Route.sameKey (cur ro : Route) : Bool :=
  cur.destAddr == ro.destAddr && cur.netmask == ro.netmask && cur.metric == ro.metric

/-- `vder_route_add`; `alloc` is what `malloc` does. The variable `ret` keeps its first value, -1,
when the table is empty. -/
def vderRouteAdd (alloc : Bool) (address netmask gateway : BitVec 32) (metric : BitVec 16)
    (dst : Option Nat) (table : List Route) : CallResult × List Route :=
  if alloc = false then (⟨-1, some .enomem⟩, table)
  else
    match dst.or ((vderGetRoute table gateway).map Route.iface) with
    | none => (⟨-1, some .ehostunreach⟩, table)
    | some iface =>
      let ro : Route :=
        { destAddr := ntohl (ntohl address &&& ntohl netmask), netmask := netmask, gateway := gateway
          metric := metric, iface := iface }
      if table.any (fun cur => cur.sameKey ro) then (⟨-1, some .eexist⟩, table)
      else if table.isEmpty then (⟨-1, none⟩, [ro])
      else (⟨0, none⟩, insertRoute ro table)

def Route.isFor (cur : Route) (address netmask : BitVec 32) (metric : Int) : Bool :=
  cur.destAddr == address && cur.netmask == netmask && (cur.metric.toNat : Int) == metric

def vderRouteDel (address netmask : BitVec 32) (metric : Int) (table : List Route) :
    CallResult × List Route :=
  if table.any (fun cur => cur.isFor address netmask metric) then
    (⟨0, none⟩, table.eraseP (fun cur => cur.isFor address netmask metric))
  else (⟨-1, none⟩, table)

structure Router where
  routingTable : List Route
  addressList : Nat → List Ip4Address

def dhcpPlaceholder : BitVec 32 := BitVec.allOnes 32

def vderIfaceAddressAdd (alloc allocRoute : Bool) (iface : Nat) (addr netmask : BitVec 32) (s : Router) :
    CallResult × Router :=
  if alloc = false then (⟨-1, some .einval⟩, s)
  else if (s.addressList iface).any (fun cur => cur.address == addr) then (⟨-1, some .eaddrinuse⟩, s)
  else
    let addressList := fun i =>
      if i = iface then ⟨addr, netmask⟩ :: s.addressList iface else s.addressList i
    if addr = dhcpPlaceholder then (⟨0, none⟩, { s with addressList := addressList })
    else
      (⟨0, none⟩,
        { routingTable := (vderRouteAdd allocRoute addr netmask 0 1 (some iface) s.routingTable).2
          addressList := addressList })

/-- The loop of `vder_iface_address_del`: the netmask that it finds and the list that it leaves. It reads the `next` of
an entry that it has just freed, which is a fault. -/
def addressDelLoop (addr : BitVec 32) : List Ip4Address → Option (BitVec 32 × List Ip4Address)
  | [] => some (0, [])
  | cur :: rest =>
    if cur.address = addr then none
    else (addressDelLoop addr rest).map (fun found => (found.1, cur :: found.2))

def vderIfaceAddressDel (iface : Nat) (addr : BitVec 32) (s : Router) : Option (CallResult × Router) :=
  (addressDelLoop addr (s.addressList iface)).map fun (netmask, list) =>
    let addressList := fun i => if i = iface then list else s.addressList i
    if netmask = 0 then (⟨-1, some .enoent⟩, { s with addressList := addressList })
    else
      (⟨0, none⟩,
        { routingTable := (vderRouteDel (addr &&& netmask) netmask 1 s.routingTable).2
          addressList := addressList })

inductive AddressEvent where
  | add (alloc allocRoute : Bool) (iface : Nat) (addr netmask : BitVec 32)
  | del (iface : Nat) (addr : BitVec 32)

/-- The router after a call, if it does not fault. -/
def addressStep (s : Router) : AddressEvent → Option Router
  | .add alloc allocRoute iface addr netmask => some (vderIfaceAddressAdd alloc allocRoute iface addr netmask s).2
  | .del iface addr => (vderIfaceAddressDel iface addr s).map Prod.snd

inductive RouteEvent where
  | add (alloc : Bool) (address netmask gateway : BitVec 32) (metric : BitVec 16) (dst : Option Nat)
  | del (address netmask : BitVec 32) (metric : Int)
  | address (e : AddressEvent)

def routeStep (s : Router) : RouteEvent → Option Router
  | .add alloc address netmask gateway metric dst =>
    some { s with routingTable := (vderRouteAdd alloc address netmask gateway metric dst s.routingTable).2 }
  | .del address netmask metric =>
    some { s with routingTable := (vderRouteDel address netmask metric s.routingTable).2 }
  | .address e => addressStep s e

def routerStart : Router := { routingTable := [], addressList := fun _ => [] }

end Vde
