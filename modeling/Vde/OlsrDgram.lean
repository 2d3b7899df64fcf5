import Vde.Olsr

/-!
# vde_router: the datagrams of OLSR

Every second a router tells its neighbours, in one datagram for each interface, which neighbours it has (HELLO), which
other addresses (MID), and again its neighbours for the routers further away (TC). The messages are built one after the
other in an array of `DGRAM_MAX_SIZE` bytes; a store outside of it is a fault. The space is compared only behind each
record of a list, and not at all for the headers.
-/

namespace Vde

structure OlsrCounters where
  hello : UInt8
  mid : UInt8
  tc : UInt8

def DEFAULT_VTIME : Nat := 288

/-- `seconds2olsr` for at least one second. The quotients are exact, and `a` is rounded down. -/
def seconds2olsr (seconds : Nat) : UInt8 :=
  let b := ((List.range 16).find? (fun b => decide (seconds * 16 < 2 ^ b))).elim 16 (fun b => b - 1)
  let a := (16 * (seconds * 16) - 16 * 2 ^ b) / 2 ^ b
  if a = 16 then UInt8.ofNat (b + 1) else UInt8.ofNat (a * 16 + b)

section Stores

variable (d : Dgram) (off : Nat)

def Dgram.set16 (x : BitVec 16) : Except OlsrFault Dgram :=
  if off + 2 ≤ d.len then .ok { d with mem := store16 d.mem off x } else .error .writeOutside

def Dgram.set32 (x : BitVec 32) : Except OlsrFault Dgram :=
  if off + 4 ≤ d.len then .ok { d with mem := store32 d.mem off x } else .error .writeOutside

end Stores

def putNeighbor (off : Nat) (neighbor : OlsrEntry) (d : Dgram) : Except OlsrFault Dgram := do
  let d ← d.set32 off neighbor.destination
  let d ← d.set8 (off + 5) neighbor.nlq
  let d ← d.set8 (off + 4) neighbor.lq
  d.set16 (off + 6) 0

def putLink (off : Nat) (neighbor : OlsrEntry) (d : Dgram) : Except OlsrFault Dgram := do
  let d ← d.set8 off neighbor.linkType
  let d ← d.set8 (off + 1) 0
  let d ← d.set16 (off + 2) (ntohs 12)
  putNeighbor (off + 4) neighbor d

def putAddress (off : Nat) (e : OlsrEntry) (d : Dgram) : Except OlsrFault Dgram := d.set32 off e.destination

/-- The loop of the builders: records of a width from `base + ret` on, in a space of `size`, and the length that is
returned. A record that reaches the end of the space is not counted. -/
def buildRecords (width : Nat) (put : Nat → OlsrEntry → Dgram → Except OlsrFault Dgram) (base : Nat) (size : Int) :
    List OlsrEntry → Nat → Dgram → Except OlsrFault (Nat × Dgram)
  | [], ret, d => .ok (ret, d)
  | e :: rest, ret, d => do
    let d ← put (base + ret) e d
    if size ≤ ((ret + width : Nat) : Int) then pure (ret, d)
    else buildRecords width put base size rest (ret + width) d

def olsrBuildHelloNeighbors (base : Nat) (size : Int) (neighbors : List OlsrEntry) (d : Dgram) :
    Except OlsrFault (Nat × Dgram) :=
  buildRecords 12 putLink base size neighbors 0 d

def olsrBuildTcNeighbors (base : Nat) (size : Int) (neighbors : List OlsrEntry) (d : Dgram) :
    Except OlsrFault (Nat × Dgram) :=
  buildRecords 8 putNeighbor base size neighbors 0 d

def olsrBuildMid (base : Nat) (size : Int) (excluded : Nat) (locals : List OlsrEntry) (d : Dgram) :
    Except OlsrFault (Nat × Dgram) :=
  buildRecords 4 putAddress base size (locals.filter (fun e => e.iface ≠ some excluded)) 0 d

def olsrSiblings (h : OlsrHeap) : Nat → Option Nat → Except OlsrFault (List OlsrEntry)
  | 0, _ => .error .hang
  | _ + 1, none => .ok []
  | n + 1, some p => do
    let e ← h.read p
    let rest ← olsrSiblings h n e.next
    pure (e :: rest)

def olsrNeighbors (h : OlsrHeap) (n : Nat) : List OlsrEntry → Except OlsrFault (List OlsrEntry)
  | [] => .ok []
  | e :: locals => do
    let children ← olsrSiblings h n e.children
    let rest ← olsrNeighbors h n locals
    pure (children ++ rest)

/-- The header of a message without its size. -/
def putMsg (off : Nat) (type vtime : UInt8) (orig : BitVec 32) (ttl seq : UInt8) (d : Dgram) :
    Except OlsrFault Dgram := do
  let d ← d.set8 off type
  let d ← d.set8 (off + 1) vtime
  let d ← d.set32 (off + 4) orig
  let d ← d.set8 (off + 8) ttl
  let d ← d.set8 (off + 9) 0
  d.set16 (off + 10) (ntohs (BitVec.ofNat 16 seq.toNat))

def makeHello (orig : BitVec 32) (c : OlsrCounters) (neighbors : List OlsrEntry) (d : Dgram) :
    Except OlsrFault (Nat × Dgram) := do
  let d ← putMsg 4 OLSRMSG_HELLO (seconds2olsr DEFAULT_VTIME) orig 1 c.hello d
  let d ← d.set16 16 0
  let d ← d.set8 18 0x05
  let d ← d.set8 19 0x07
  let (r, d) ← olsrBuildHelloNeighbors 20 ((DGRAM_MAX_SIZE : Int) - 20) neighbors d
  let d ← d.set16 6 (ntohs (BitVec.ofNat 16 (16 + r)))
  pure (20 + r, d)

def endMid (size r : Nat) (d : Dgram) : Except OlsrFault (Nat × Dgram) :=
  if r = 0 then .ok (size, d)
  else do
    let d ← d.set16 (size + 2) (ntohs (BitVec.ofNat 16 (12 + r)))
    pure (size + 12 + r, d)

def makeMid (size : Nat) (orig : BitVec 32) (c : OlsrCounters) (vif : Nat) (locals : List OlsrEntry) (d : Dgram) :
    Except OlsrFault (Nat × Dgram) := do
  let d ← putMsg size OLSRMSG_MID (seconds2olsr 60) orig 0xff c.mid d
  let (r, d) ← olsrBuildMid (size + 12) ((DGRAM_MAX_SIZE : Int) - (size + 12 : Nat)) vif locals d
  endMid size r d

/-- The TC message; `reserved` behind the sequence number is what the array held before. -/
def makeTc (size : Nat) (orig : BitVec 32) (c : OlsrCounters) (ansn : BitVec 16) (neighbors : List OlsrEntry)
    (d : Dgram) : Except OlsrFault (Nat × Dgram) := do
  let d ← putMsg size OLSRMSG_TC (seconds2olsr DEFAULT_VTIME) orig 0xff c.tc d
  let d ← d.set16 (size + 12) (ntohs ansn)
  let (r, d) ← olsrBuildTcNeighbors (size + 16) ((DGRAM_MAX_SIZE : Int) - (size + 16 : Nat)) neighbors d
  let d ← d.set16 (size + 2) (ntohs (BitVec.ofNat 16 (16 + r)))
  pure (size + 16 + r, d)

def makeMessages (orig : BitVec 32) (vif : Nat) (c : OlsrCounters) (ansn pktCounter : BitVec 16)
    (locals neighbors : List OlsrEntry) (d : Dgram) : Except OlsrFault (Nat × Dgram) := do
  let (size, d) ← makeHello orig c neighbors d
  let (size, d) ← makeMid size orig c vif locals d
  let (size, d) ← makeTc size orig c ansn neighbors d
  let d ← d.set16 0 (ntohs (BitVec.ofNat 16 size))
  let d ← d.set16 2 (ntohs pktCounter)
  pure (size, d)

def olsrMakeDgram (stack : Mem) (vif n : Nat) (c : OlsrCounters) (s : Olsr) : Except OlsrFault (OlsrCounters × Olsr) :=
  match s.router.addressList vif with
  | [] => .ok (c, s)
  | ep :: _ => do
    let locals ← olsrSiblings s.entries n s.localInterfaces
    let neighbors ← olsrNeighbors s.entries n locals
    let (size, d) ← makeMessages ep.address vif c s.myAnsn s.pktCounter locals neighbors ⟨stack, DGRAM_MAX_SIZE⟩
    pure (⟨c.hello + 1, c.mid + 1, c.tc + 1⟩,
      { s with pktCounter := s.pktCounter + 1, sent := s.sent ++ [(vif, readBytes d.mem 0 size)] })

end Vde
