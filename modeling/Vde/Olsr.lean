import Vde.Router
import Vde.Lib.Fuel

/-!
# vde_router: OLSR

The hosts that are known form a tree: the local interfaces, their neighbours under them, and under each
host those that are reached through it. An entry points to its gateway, to the first of its children and
to the next child of its gateway. The messages of a datagram add entries to the tree or move them.

Pointers are numbers: the `n`th call of `malloc` returns `n`, if `alloc n` says that there is memory. A
null pointer and memory that is freed cannot be read, and neither can bytes behind the end of a datagram.
The walks take fuel, as nothing in the code makes them end.
-/

namespace Vde

def OLSRMSG_HELLO : UInt8 := 0xc9
def OLSRMSG_MID : UInt8 := 0x03
def OLSRMSG_TC : UInt8 := 0xca
def OLSRLINK_SYMMETRIC : UInt8 := 0x06
def OLSRLINK_UNKNOWN : UInt8 := 0x08
def OLSRLINK_MPR : UInt8 := 0x0a
def OLSR_MSG_INTERVAL : Int := 2000
def DGRAM_MAX_SIZE : Nat := 1800
def HOST_NETMASK : BitVec 32 := BitVec.allOnes 32

def fresher (a b : BitVec 16) : Bool := b < a || decide ((b.toNat : Int) - a.toNat > 32768)

inductive OlsrFault where
  | hang
  | badPointer
  | readOutside
  | writeOutside
  deriving DecidableEq, Repr

/-- `struct olsr_route_entry`, as `memset` leaves it. -/
structure OlsrEntry where
  next : Option Nat := none
  timeLeft : Int := 0
  destination : BitVec 32 := 0
  gateway : Option Nat := none
  iface : Option Nat := none
  metric : BitVec 16 := 0
  linkType : UInt8 := 0
  children : Option Nat := none
  ansn : BitVec 16 := 0
  lq : UInt8 := 0
  nlq : UInt8 := 0
  advertisedTc : Option (List UInt8) := none
  deriving DecidableEq

abbrev OlsrHeap := Nat → Option OlsrEntry

/-- The variables of the protocol, the tables of the router, and what was sent. -/
structure Olsr where
  entries : OlsrHeap
  mallocs : Nat
  localInterfaces : Option Nat
  myAnsn : BitVec 16
  freshAnsn : BitVec 16
  pktCounter : BitVec 16
  ifaces : List Nat
  router : Router
  arpQueries : List (Nat × BitVec 32)
  sent : List (Nat × List UInt8)

structure Dgram where
  mem : Mem
  len : Nat

section Memory

def OlsrHeap.read (h : OlsrHeap) (p : Nat) : Except OlsrFault OlsrEntry :=
  match h p with
  | some e => .ok e
  | none => .error .badPointer

def Olsr.modify (s : Olsr) (p : Nat) (f : OlsrEntry → OlsrEntry) : Except OlsrFault Olsr := do
  let e ← s.entries.read p
  pure { s with entries := Function.update s.entries p (some (f e)) }

def Olsr.free (s : Olsr) : Option Nat → Except OlsrFault Olsr
  | none => .ok s
  | some p => do
    let _ ← s.entries.read p
    pure { s with entries := Function.update s.entries p none }

/-- `malloc` of an entry, and the `memset` after it. -/
def Olsr.malloc (alloc : Nat → Bool) (s : Olsr) : Option Nat × Olsr :=
  let s' := { s with mallocs := s.mallocs + 1 }
  if alloc s.mallocs then
    (some s.mallocs, { s' with entries := Function.update s.entries s.mallocs (some {}) })
  else (none, s')

def Dgram.get8 (d : Dgram) (off : Nat) : Except OlsrFault UInt8 :=
  if off < d.len then .ok (d.mem off) else .error .readOutside

def Dgram.get16 (d : Dgram) (off : Nat) : Except OlsrFault (BitVec 16) :=
  if off + 2 ≤ d.len then .ok (load16 d.mem off) else .error .readOutside

def Dgram.get32 (d : Dgram) (off : Nat) : Except OlsrFault (BitVec 32) :=
  if off + 4 ≤ d.len then .ok (load32 d.mem off) else .error .readOutside

def Dgram.set8 (d : Dgram) (off : Nat) (x : UInt8) : Except OlsrFault Dgram :=
  if off < d.len then .ok { d with mem := store8 d.mem off x } else .error .writeOutside

def Dgram.getBytes (d : Dgram) (off n : Nat) : Except OlsrFault (List UInt8) :=
  if off + n ≤ d.len then .ok (readBytes d.mem off n) else .error .readOutside

end Memory

section Walks

variable (h : OlsrHeap)

def ethentryLoop (vif : Option Nat) : Nat → Option Nat → Except OlsrFault (Option Nat)
  | 0, _ => .error .hang
  | _ + 1, none => .ok none
  | n + 1, some cur => do
    let e ← h.read cur
    if e.iface = vif then pure (some cur) else ethentryLoop vif n e.next

def getNextHop : Nat → Option Nat → Except OlsrFault (Option Nat)
  | 0, _ => .error .hang
  | _ + 1, none => .ok none
  | n + 1, some hop => do
    let e ← h.read hop
    if e.metric.toNat ≤ 1 then pure (some hop) else getNextHop n e.gateway

def getRouteByAddress (ip : BitVec 32) : Nat → Option Nat → Except OlsrFault (Option Nat)
  | 0, _ => .error .hang
  | _ + 1, none => .ok none
  | n + 1, some lst => do
    let e ← h.read lst
    if e.destination = ip then pure (some lst)
    else
      match ← getRouteByAddress ip n e.children with
      | some found => pure (some found)
      | none => getRouteByAddress ip n e.next

def findPrev (r : Nat) : Nat → Option Nat → Option Nat → Except OlsrFault (Option (Option Nat))
  | 0, _, _ => .error .hang
  | _ + 1, _, none => .ok none
  | n + 1, prev, some cur =>
    if cur = r then .ok (some prev)
    else do
      let e ← h.read cur
      findPrev r n (some cur) e.next

end Walks

def olsrGetEthentry (s : Olsr) (vif : Option Nat) (n : Nat) : Except OlsrFault (Option Nat) :=
  ethentryLoop s.entries vif n s.localInterfaces

def Olsr.routeAdd (alloc : Nat → Bool) (s : Olsr) (destination nexthop : BitVec 32) (metric : BitVec 16) : Olsr :=
  let table := (vderRouteAdd (alloc s.mallocs) destination HOST_NETMASK nexthop metric none
    s.router.routingTable).2
  { s with mallocs := s.mallocs + 1, router := { s.router with routingTable := table } }

def Olsr.routeDel (s : Olsr) (destination : BitVec 32) (metric : BitVec 16) : Olsr :=
  let table := (vderRouteDel destination HOST_NETMASK metric.toNat s.router.routingTable).2
  { s with router := { s.router with routingTable := table } }

def addRoute (alloc : Nat → Bool) (n : Nat) (el : Nat) (s : Olsr) : Except OlsrFault Olsr := do
  match ← getNextHop s.entries n (some el) with
  | none => .error .badPointer
  | some nexthop =>
    let eh ← s.entries.read nexthop
    let e ← s.entries.read el
    let s := s.routeAdd alloc e.destination eh.destination e.metric
    s.modify el (fun e => { e with linkType := OLSRLINK_MPR })

def addToGateway (alloc : Nat → Bool) (n : Nat) (el g : Nat) (s : Olsr) : Except OlsrFault Olsr := do
  let eg ← s.entries.read g
  let s ← s.modify el (fun e => { e with next := eg.children })
  let s ← s.modify g (fun e => { e with children := some el })
  addRoute alloc n el s

def addToIface (n : Nat) (el : Nat) (vif : Option Nat) (s : Olsr) : Except OlsrFault Olsr := do
  let ei ← olsrGetEthentry s vif n
  let s ← s.modify el (fun e => { e with linkType := OLSRLINK_SYMMETRIC })
  match ei with
  | none => pure s
  | some p =>
    let ep ← s.entries.read p
    let s ← s.modify el (fun e => { e with next := ep.children })
    s.modify p (fun e => { e with children := some el })

def olsrRouteAdd (alloc : Nat → Bool) (n : Nat) (el : Nat) (s : Olsr) : Except OlsrFault Olsr := do
  let myAnsn := if fresher s.freshAnsn s.myAnsn then s.freshAnsn + 1 else s.myAnsn + 1
  let s := { s with myAnsn := myAnsn }
  let e ← s.entries.read el
  match e.gateway with
  | some g => addToGateway alloc n el g s
  | none => if e.iface.isSome then addToIface n el e.iface s else pure s

def delList (n : Nat) (e : OlsrEntry) (s : Olsr) : Except OlsrFault (Option Nat) :=
  match e.gateway with
  | some g => do
    let eg ← s.entries.read g
    pure eg.children
  | none => if e.iface.isSome then olsrGetEthentry s e.iface n else pure s.localInterfaces

def delLink (e : OlsrEntry) (prev : Option Nat) (s : Olsr) : Except OlsrFault Olsr :=
  match e.gateway with
  | none => pure s
  | some g =>
    let s := s.routeDel e.destination e.metric
    match prev with
    | none => s.modify g (fun eg => { eg with children := e.next })
    | some q => s.modify q (fun eq => { eq with next := e.next })

mutual

/-- The entry is taken out of its list, and then those below it are deleted. -/
def olsrRouteDel : Nat → Nat → Olsr → Except OlsrFault Olsr
  | 0, _, _ => .error .hang
  | n + 1, r, s => do
    let myAnsn := if fresher s.freshAnsn s.myAnsn then s.freshAnsn + 1 else s.myAnsn
    let s := { s with myAnsn := myAnsn }
    let e ← s.entries.read r
    let lst ← delList n e s
    match ← findPrev s.entries r n none lst with
    | none => pure s
    | some prev =>
      let s ← delLink e prev s
      delChildren n r s

/-- The inner loop of `olsr_route_del`. It frees what stands in `r->children` after the call, the next
child. -/
def delChildren : Nat → Nat → Olsr → Except OlsrFault Olsr
  | 0, _, _ => .error .hang
  | n + 1, r, s => do
    let e ← s.entries.read r
    match e.children with
    | none => pure s
    | some c =>
      let s ← olsrRouteDel n c s
      let e ← s.entries.read r
      let s ← s.free e.children
      delChildren n r s

end

def arpStorm (addr : BitVec 32) (s : Olsr) : Olsr :=
  { s with arpQueries := s.arpQueries ++ s.ifaces.map (fun i => (i, addr)) }

/-- `olsr2seconds`; the floating point product is exact. -/
def olsr2seconds (olsr : UInt8) : Int := ((16 + olsr.toNat / 16) * 2 ^ (olsr.toNat % 16) / 256 : Nat)

section Handlers

variable (alloc : Nat → Bool) (d : Dgram) (base : Nat)

/-- A turn of the loop of `recv_mid`; `base` is the offset of its `buffer`. -/
def midTurn (len : Int) (origin : Nat) (n : Nat) : Nat × Olsr → Except OlsrFault ((Nat × Olsr) ⊕ Olsr)
  | (parsed, s) =>
    if len ≤ parsed then .ok (.inr s)
    else do
      let address ← d.get32 (base + parsed)
      match ← getRouteByAddress s.entries address n s.localInterfaces with
      | none =>
        match s.malloc alloc with
        | (none, s) => pure (.inr s)
        | (some e, s) =>
          let eo ← s.entries.read origin
          let s ← s.modify e (fun _ =>
            { timeLeft := OLSR_MSG_INTERVAL * 4, destination := address, gateway := some origin
              iface := eo.iface, metric := eo.metric + 1, lq := eo.lq, nlq := eo.nlq })
          let s ← olsrRouteAdd alloc n e s
          pure (.inl (parsed + 4, arpStorm address s))
      | some e =>
        let ee ← s.entries.read e
        let eo ← s.entries.read origin
        if ee.metric.toNat > eo.metric.toNat + 1 then
          let s ← olsrRouteDel n e s
          let eo ← s.entries.read origin
          let s ← s.modify e (fun x => { x with metric := eo.metric, gateway := some origin })
          let s ← olsrRouteAdd alloc n e s
          pure (.inl (parsed + 4, s))
        else pure (.inl (parsed + 4, s))

def recvMid (n : Nat) (len : Int) (origin : Nat) (s : Olsr) : Except OlsrFault Olsr :=
  if len % 4 ≠ 0 then .ok s
  else runLoop .hang (midTurn alloc d base len origin) n (0, s)

/-- A turn of the loop of `recv_hello`. The size of the link is always that of the first one. -/
def helloTurn (len : Int) (origin : Nat) (n : Nat) : Nat × Olsr → Except OlsrFault ((Nat × Olsr) ⊕ Olsr)
  | (parsed, s) =>
    if len ≤ parsed then .ok (.inr s)
    else do
      let size ← d.get16 (base + 2)
      let next := parsed + (ntohs size).toNat
      let addr ← d.get32 (base + parsed + 4)
      match ← getRouteByAddress s.entries addr n s.localInterfaces with
      | none =>
        match s.malloc alloc with
        | (none, s) => pure (.inr s)
        | (some e, s) =>
          let eo ← s.entries.read origin
          let lq ← d.get8 (base + parsed + 8)
          let nlq ← d.get8 (base + parsed + 9)
          let s ← s.modify e (fun _ =>
            { timeLeft := OLSR_MSG_INTERVAL * 4, destination := addr, gateway := some origin
              iface := eo.iface, metric := eo.metric + 1, linkType := OLSRLINK_UNKNOWN
              lq := min eo.lq lq, nlq := min eo.nlq nlq })
          let s ← olsrRouteAdd alloc n e s
          pure (.inl (next, arpStorm addr s))
      | some e =>
        let ee ← s.entries.read e
        let eo ← s.entries.read origin
        if ee.gateway ≠ some origin ∧ ee.metric.toNat > eo.metric.toNat + 1 then
          let s ← olsrRouteDel n e s
          let eo ← s.entries.read origin
          let s ← s.modify e (fun x => { x with metric := eo.metric + 1, gateway := some origin })
          let s ← olsrRouteAdd alloc n e s
          pure (.inl (next, s))
        else pure (.inl (next, s))

def recvHello (n : Nat) (len : Int) (origin : Option Nat) (s : Olsr) : Except OlsrFault Olsr :=
  match origin with
  | none => .ok s
  | some origin => runLoop .hang (helloTurn alloc d base len origin) n (0, s)

def OlsrEntry.placedUnder (x : OlsrEntry) (e : Nat) (ee : OlsrEntry) (lq nlq : UInt8) : OlsrEntry :=
  { x with
    linkType := OLSRLINK_UNKNOWN, iface := ee.iface, gateway := some e, metric := ee.metric + 1
    lq := lq, nlq := nlq, timeLeft := ee.timeLeft }

def placeUnder (n : Nat) (off : Nat) (e rt : Nat) (s : Olsr) : Except OlsrFault Olsr := do
  let ee ← s.entries.read e
  let lq ← d.get8 (off + 4)
  let nlq ← d.get8 (off + 5)
  let s ← s.modify rt (fun x => x.placedUnder e ee lq nlq)
  olsrRouteAdd alloc n rt s

/-- The condition for a record to move the entry `x` under `e`; the record is read only if the metrics do
not decide. -/
def tcMoves (off : Nat) (ee x : OlsrEntry) : Except OlsrFault Bool :=
  if x.metric.toNat > ee.metric.toNat + 1 then .ok true
  else do
    let nlq ← d.get8 (off + 5)
    pure (decide (x.nlq < nlq))

def tcTurn (size : Int) (e : Nat) (n : Nat) : Nat × Olsr → Except OlsrFault ((Nat × Olsr) ⊕ Olsr)
  | (parsed, s) =>
    if size ≤ parsed then .ok (.inr s)
    else do
      let addr ← d.get32 (base + parsed)
      match ← getRouteByAddress s.entries addr n s.localInterfaces with
      | none =>
        match s.malloc alloc with
        | (none, _) => .error .badPointer
        | (some rt, s) =>
          let s ← s.modify rt (fun x => { x with destination := addr })
          let s ← placeUnder alloc d n (base + parsed) e rt s
          pure (.inl (parsed + 8, s))
      | some rt =>
        let x ← s.entries.read rt
        let ee ← s.entries.read e
        if x.gateway = some e then
          let s ← s.modify rt (fun x => { x with timeLeft := ee.timeLeft })
          pure (.inl (parsed + 8, s))
        else if ← tcMoves d (base + parsed) ee x then
          let s ← olsrRouteDel n rt s
          let s ← placeUnder alloc d n (base + parsed) e rt s
          pure (.inl (parsed + 8, s))
        else pure (.inl (parsed + 8, s))

def OlsrEntry.keptTc (e : OlsrEntry) (newAnsn : BitVec 16) : Option (List UInt8) :=
  if fresher newAnsn e.ansn then none else e.advertisedTc

/-- The first part of `reconsider_topology`: nothing if the topology is known already. A negative `size`
is more than `malloc` has, and without memory `memcpy` writes to a null pointer. -/
def advertise (size : Int) (e : Nat) (s : Olsr) : Except OlsrFault (Olsr × Bool) := do
  let ansn ← d.get16 base
  let newAnsn := ntohs ansn
  let ee ← s.entries.read e
  let freshAnsn := if fresher newAnsn s.freshAnsn then newAnsn else s.freshAnsn
  let s := { s with freshAnsn := freshAnsn }
  if (ee.keptTc newAnsn).isSome then pure (s, false)
  else if size < 0 ∨ alloc s.mallocs = false then .error .badPointer
  else
    let tc ← d.getBytes base size.toNat
    let s := { s with mallocs := s.mallocs + 1 }
    let s ← s.modify e (fun x => { x with advertisedTc := some tc, ansn := newAnsn })
    pure (s, true)

/-- `reconsider_topology`; whether it returns 1. -/
def reconsiderTopology (n : Nat) (size : Int) (e : Nat) (s : Olsr) : Except OlsrFault (Olsr × Bool) := do
  match ← advertise alloc d base size e s with
  | (s, false) => pure (s, false)
  | (s, true) =>
    let s ← runLoop .hang (tcTurn alloc d base size e) n (4, s)
    pure (s, true)

def reposition (n : Nat) (origin : Nat) (s : Olsr) : Except OlsrFault Olsr := do
  let eo ← s.entries.read origin
  match ← olsrGetEthentry s eo.iface n with
  | none => pure s
  | some ancestor =>
    if eo.metric.toNat > 1 then
      let s ← olsrRouteDel n origin s
      let s ← s.modify origin (fun x => { x with gateway := some ancestor, metric := 1 })
      olsrRouteAdd alloc n origin s
    else pure s

end Handlers

/-- The local variables of `olsr_recv`. `outmsg` is what the forwarding buffer holds behind its header. -/
structure OlsrRecv where
  olsr : Olsr
  dgram : Dgram
  parsed : Nat
  outmsg : List UInt8

/-- `sizeof(struct olsrhdr)` and what is copied. -/
def OlsrRecv.outsize (r : OlsrRecv) : Nat := 4 + r.outmsg.length

def OlsrRecv.size (r : OlsrRecv) : Nat := (ntohs (load16 r.dgram.mem (r.parsed + 2))).toNat

def OlsrRecv.msgSize (r : OlsrRecv) : Except OlsrFault Nat := do
  let size ← r.dgram.get16 (r.parsed + 2)
  pure (ntohs size).toNat

/-- The `switch` on the type of the message; nothing for an unknown type. -/
def olsrHandle (alloc : Nat → Bool) (n : Nat) (origin : Nat) (r : OlsrRecv) :
    Except OlsrFault (Option OlsrRecv) := do
  let type ← r.dgram.get8 r.parsed
  if type = OLSRMSG_HELLO then
    let s ← reposition alloc n origin r.olsr
    let size ← r.msgSize
    let s ← recvHello alloc r.dgram (r.parsed + 16) n ((size : Int) - 16) (some origin) s
    let d ← r.dgram.set8 (r.parsed + 8) 0
    pure (some { r with olsr := s, dgram := d })
  else if type = OLSRMSG_MID then
    let size ← r.msgSize
    let s ← recvMid alloc r.dgram (r.parsed + 12) n ((size : Int) - 12) origin r.olsr
    pure (some { r with olsr := s })
  else if type = OLSRMSG_TC then
    let size ← r.msgSize
    match ← reconsiderTopology alloc r.dgram (r.parsed + 12) n ((size : Int) - 12) origin r.olsr with
    | (s, false) =>
      let d ← r.dgram.set8 (r.parsed + 8) 0
      pure (some { r with olsr := s, dgram := d })
    | (s, true) =>
      let eo ← s.entries.read origin
      let d ← r.dgram.set8 (r.parsed + 9) (UInt8.ofNat eo.metric.toNat)
      pure (some { r with olsr := s, dgram := d })
  else pure none

/-- The copy of a message to the forwarding buffer, and the step to the next one. -/
def copyMsg (copied : Bool) (r : OlsrRecv) : Except OlsrFault OlsrRecv := do
  let size ← r.msgSize
  if copied then
    let msg ← r.dgram.getBytes r.parsed size
    if r.outsize + size ≤ DGRAM_MAX_SIZE then
      pure { r with outmsg := r.outmsg ++ msg, parsed := r.parsed + size }
    else .error .writeOutside
  else pure { r with parsed := r.parsed + size }

/-- The end of a turn: the message is copied unless its time to live, now lowered by one, is zero. -/
def olsrForward (r : OlsrRecv) : Except OlsrFault OlsrRecv := do
  let ttl ← r.dgram.get8 (r.parsed + 8)
  let d ← r.dgram.set8 (r.parsed + 8) (ttl - 1)
  copyMsg (decide (ttl - 1 > 0)) { r with dgram := d }

def heardFrom (origin : Nat) (r : OlsrRecv) : Except OlsrFault OlsrRecv := do
  let vtime ← r.dgram.get8 (r.parsed + 1)
  let s ← r.olsr.modify origin (fun e => { e with linkType := OLSRLINK_MPR, timeLeft := olsr2seconds vtime })
  pure { r with olsr := s }

/-- A turn of the message loop; with an unknown type the call returns and nothing is forwarded. -/
def msgTurn (alloc : Nat → Bool) (n : Nat) (r : OlsrRecv) :
    Except OlsrFault (OlsrRecv ⊕ (OlsrRecv × Bool)) :=
  if r.dgram.len ≤ r.parsed then .ok (.inr (r, true))
  else do
    let orig ← r.dgram.get32 (r.parsed + 4)
    match ← getRouteByAddress r.olsr.entries orig n r.olsr.localInterfaces with
    | none =>
      let size ← r.msgSize
      pure (.inl { r with olsr := arpStorm orig r.olsr, parsed := r.parsed + size })
    | some origin =>
      let r ← heardFrom origin r
      match ← olsrHandle alloc n origin r with
      | none => pure (.inr (r, false))
      | some r =>
        let r ← olsrForward r
        pure (.inl r)

def olsrSend (r : OlsrRecv) : Olsr :=
  let s := r.olsr
  if r.outmsg = [] then s
  else
    let out := bytes16 (ntohs (BitVec.ofNat 16 r.outsize)) ++ bytes16 (ntohs s.pktCounter) ++ r.outmsg
    let vifs := s.ifaces.filter (fun vif => ¬(s.router.addressList vif).isEmpty)
    { s with pktCounter := s.pktCounter + 1, sent := s.sent ++ vifs.map (fun vif => (vif, out)) }

def recvStart (d : Dgram) (s : Olsr) : OlsrRecv := { olsr := s, dgram := d, parsed := 4, outmsg := [] }

def olsrRecv (alloc : Nat → Bool) (n : Nat) (d : Dgram) (s : Olsr) : Except OlsrFault Olsr := do
  let len ← d.get16 0
  if d.len ≠ (ntohs len).toNat then pure s
  else
    match ← runLoop .hang (msgTurn alloc) n (recvStart d s) with
    | (r, true) => pure (olsrSend r)
    | (r, false) => pure r.olsr

end Vde
