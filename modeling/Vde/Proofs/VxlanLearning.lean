import Vde.Vxlan
import Vde.Proofs.MacTable

/-!
# What vde_vxlan learns and where it sends

A learner is what the table is for: the place where each address was last seen. The table of the
gateway stands for a learner, so each handler sends as the learner says, as long as its buffer holds
the frame.
-/

namespace Vde.Vxlan

open List Function Option

/-! ## The learner -/

inductive Place where
  | localSwitch
  | vtep (addr : BitVec 32)
  deriving DecidableEq

structure Sighting where
  place : Place
  lastSeen : Int

structure Learner where
  seen : BitVec 48 → Option Sighting
  lastSweep : Int

namespace Learner

/-- A sighting of `src`. A place is kept for three seconds after the last sighting there; `mem` tells
whether there is memory for a new address. -/
def learn (mem : Bool) (now : Int) (src : BitVec 48) (place : Place) (l : Learner) : Learner :=
  { l with seen := Function.update l.seen src (match l.seen src with
      | none => if mem then some ⟨place, now⟩ else none
      | some s => if s.place = place ∨ 3 < now - s.lastSeen then some ⟨place, now⟩ else some s) }

/-- Addresses not seen for a hundred seconds are forgotten, every three seconds at most. -/
def sweep (now : Int) (l : Learner) : Learner :=
  if 2 < now - l.lastSweep then
    { seen := fun mac => (l.seen mac).filter (fun s => !decide (s.lastSeen + 100 < now)), lastSweep := now }
  else l

end Learner

def broadcastMac : BitVec 48 := BitVec.allOnes 48

inductive Dest where
  | group
  | vtep (addr : BitVec 32)

def Learner.outward (l : Learner) (dst : BitVec 48) : Option Dest :=
  if dst = broadcastMac then some .group
  else match (l.seen dst).map Sighting.place with
    | none => some .group
    | some (.vtep addr) => some (.vtep addr)
    | some .localSwitch => none

/-- A frame from the network goes to the local switch unless a VTEP has its destination. -/
def Learner.inward (l : Learner) (dst : BitVec 48) : Prop :=
  dst = broadcastMac ∨ ∀ addr, (l.seen dst).map Sighting.place ≠ some (.vtep addr)

def decapsulate : List UInt8 → Option (Nat × List UInt8)
  | flags :: _ :: _ :: _ :: i2 :: i1 :: i0 :: _ :: frame =>
    if flags = 8 then some (i2.toNat * 65536 + i1.toNat * 256 + i0.toNat, frame) else none
  | _ => none

/-! ## Runs -/

/-- A frame of the local switch, a datagram of a gateway, and a turn of the collector; with the old
contents of the buffer, what `malloc` returns and the time. -/
inductive VxlanEvent where
  | frame (stale : Mem) (bytes : List UInt8) (malloc : Option Nat) (now : Int)
  | datagram (stale : Mem) (srcAddr : BitVec 32) (bytes : List UInt8) (malloc : Option Nat) (now : Int)
  | gc (now : Int)

structure VxlanRun where
  gateway : Gateway
  learner : Learner
  fault : Bool

/-- The learner after a frame; the buffer is that of the frame, behind the header. -/
def afterFrame (l : Learner) (stale : Mem) (bytes : List UInt8) (malloc : Option Nat) (now : Int) : Learner :=
  l.learn malloc.isSome now (macAt (memcpy stale 8 bytes) 14) .localSwitch

def Accepted (g : Gateway) (pkt : Mem) : Prop := pkt 0 = 8 ∧ ntoh24 pkt 4 = g.vxlanId

instance (g : Gateway) (pkt : Mem) : Decidable (Accepted g pkt) := inferInstanceAs (Decidable (_ ∧ _))

def afterDatagram (g : Gateway) (l : Learner) (stale : Mem) (srcAddr : BitVec 32) (bytes : List UInt8)
    (malloc : Option Nat) (now : Int) : Learner :=
  if Accepted g (memcpy stale 0 bytes) then
    l.learn malloc.isSome now (macAt (memcpy stale 0 bytes) 14) (.vtep srcAddr)
  else l

def vxlanStep (s : VxlanRun) : VxlanEvent → VxlanRun
  | .frame stale bytes malloc now =>
    match plugProcess s.gateway stale bytes malloc now with
    | none => { s with fault := true }
    | some (g, _) => { s with gateway := g, learner := afterFrame s.learner stale bytes malloc now }
  | .datagram stale srcAddr bytes malloc now =>
    { s with
      gateway := (vxlanProcess s.gateway stale srcAddr bytes malloc now).1
      learner := afterDatagram s.gateway s.learner stale srcAddr bytes malloc now }
  | .gc now => { s with gateway := hashGc now s.gateway, learner := s.learner.sweep now }

def VxlanEvent.Legal (g : Gateway) : VxlanEvent → Prop
  | .frame _ _ malloc _ => ∀ a, malloc = some a → g.hash.heap.cells a = none
  | .datagram _ srcAddr _ malloc _ =>
    srcAddr ≠ 0 ∧ srcAddr ≠ 1 ∧ ∀ a, malloc = some a → g.hash.heap.cells a = none
  | .gc _ => True

def vxlanMachine : Machine VxlanRun VxlanEvent :=
  { enabled := fun s e => s.fault = false ∧ e.Legal s.gateway, step := vxlanStep }

def vxlanStart (vxlanId vxlanAddr : BitVec 32) : VxlanRun :=
  { gateway := gatewayInit vxlanId vxlanAddr, learner := ⟨fun _ => none, 0⟩, fault := false }

def Dest.address (g : Gateway) : Dest → BitVec 32
  | .group => g.vxlanAddr
  | .vtep addr => addr

/-- What goes out is one datagram to the destination, which yields the VNI, of 24 bits, and the frame; or
nothing. -/
def SentAs (g : Gateway) (frame : List UInt8) : Option Dest → List Output → Prop
  | none, outs => outs = []
  | some dest, outs => ∃ data len, outs = [.sendto (dest.address g) data len] ∧
      decapsulate (readBytes data 0 len) = some (g.vxlanId.toNat % 2 ^ 24, frame)

def DeliveredAs (frame : List UInt8) (deliver : Prop) (outs : List Output) : Prop :=
  (deliver → ∃ data len, outs = [.vdeSend data len] ∧ readBytes data 0 len = frame) ∧ (¬deliver → outs = [])

/-- A handler sends as the learner says, and a datagram makes no datagram. -/
def StepRight (s : VxlanRun) : VxlanEvent → Prop
  | .frame stale bytes malloc now =>
    ∃ g outs, plugProcess s.gateway stale bytes malloc now = some (g, outs) ∧
      SentAs s.gateway bytes
        ((afterFrame s.learner stale bytes malloc now).outward (macAt (memcpy stale 8 bytes) 8)) outs
  | .datagram stale srcAddr bytes malloc now =>
    let outs := (vxlanProcess s.gateway stale srcAddr bytes malloc now).2
    (∀ o ∈ outs, ∃ data len, o = .vdeSend data len) ∧
      ∀ frame, decapsulate bytes = some (s.gateway.vxlanId.toNat, frame) →
        DeliveredAs frame ((afterDatagram s.gateway s.learner stale srcAddr bytes malloc now).inward
          (macAt (memcpy stale 0 bytes) 8)) outs
  | .gc _ => True

def StepOk (s : VxlanRun) : VxlanEvent → Prop
  | .frame _ bytes _ _ => bytes.length ≤ ethPktSize
  | .datagram stale srcAddr bytes malloc now =>
    ∀ frame, decapsulate bytes = some (s.gateway.vxlanId.toNat, frame) →
      (afterDatagram s.gateway s.learner stale srcAddr bytes malloc now).inward (macAt (memcpy stale 0 bytes) 8) →
        bytes.length ≤ vxlanPktSize
  | .gc _ => True

/-! ## The table stands for the learner -/

def Place.code : Place → BitVec 32
  | .localSwitch => 1
  | .vtep addr => addr

def Place.Proper : Place → Prop
  | .localSwitch => True
  | .vtep addr => addr ≠ 0 ∧ addr ≠ 1

structure Stands (g : Gateway) (l : Learner) : Prop where
  table : ∃ m, HashRel g.hash m ∧ m.minPersistence = 3 ∧ m.gcExpire = 100 ∧
    ∀ mac, m.entries mac (g.vlan % 65536) = (l.seen mac).map (fun s => (s.place.code.toNat, s.lastSeen))
  lastSweep : g.lastT = l.lastSweep
  proper : ∀ mac s, l.seen mac = some s → s.place.Proper

lemma extmac_mod (mac : BitVec 48) (vlan : Nat) : extmac mac vlan = extmac mac (vlan % 65536) := by
  apply BitVec.eq_of_toNat_eq
  simp only [extmac, BitVec.toNat_add, BitVec.toNat_setWidth, BitVec.extractLsb'_toNat,
    BitVec.toNat_shiftLeft, BitVec.toNat_ofNat, Nat.shiftRight_eq_div_pow, Nat.shiftLeft_eq]
  omega

lemma Place.code_eq_iff {p q : Place} (hp : p.Proper) (hq : q.Proper) : p.code = q.code ↔ p = q := by
  constructor
  · intro h
    cases p with
    | localSwitch =>
      cases q with
      | localSwitch => rfl
      | vtep addr => exact absurd h.symm hq.2
    | vtep addr =>
      cases q with
      | localSwitch => exact absurd h hp.2
      | vtep addr' => exact congrArg Place.vtep h
  intro h
  rw [h]

lemma Place.code_ne_zero {p : Place} (hp : p.Proper) : p.code ≠ 0 := by
  cases p with
  | localSwitch => decide
  | vtep addr => exact hp.1

lemma Stands.start (vxlanId vxlanAddr : BitVec 32) : Stands (gatewayInit vxlanId vxlanAddr) ⟨fun _ => none, 0⟩ := by
  have hstart : HashStart (hashInit 128, MacMap.empty) := ⟨128, by decide, rfl⟩
  refine ⟨⟨MacMap.empty, HashRel.start hstart, rfl, rfl, fun mac => rfl⟩, rfl, ?_⟩
  intro mac s h
  cases h

variable {g : Gateway} {l : Learner}

lemma Stands.find (h : Stands g l) (dst : BitVec 48) :
    g.findInHash dst = ((l.seen dst).map (fun s => s.place.code)).getD 0 := by
  obtain ⟨m, hrel, _, _, hentries⟩ := h.table
  have hkey : g.vlan % 65536 < 65536 := Nat.mod_lt _ (by decide)
  have hlookup := hrel.entries dst (g.vlan % 65536) hkey
  have hfind : Vde.findInHash g.hash dst g.vlan = (lookup g.hash (extmac dst (g.vlan % 65536))).map HashData.port := by
    rw [Vde.findInHash, extmac_mod]
    rfl
  rw [Gateway.findInHash, hfind, hlookup, hentries]
  cases l.seen dst with
  | none => rfl
  | some s =>
    simp only [map_some, getD_some]
    exact (BitVec.ofNat_toNat 32 _).trans (BitVec.setWidth_eq _)

lemma Stands.learn {g : Gateway} {l : Learner} (h : Stands g l) {malloc : Option Nat}
    (hmalloc : ∀ a, malloc = some a → g.hash.heap.cells a = none) (now : Int) (src : BitVec 48) {place : Place}
    (hplace : place.Proper) :
    Stands (g.findInHashUpdate malloc now src place.code) (l.learn malloc.isSome now src place) := by
  obtain ⟨m, hrel, hmin, hgc, hentries⟩ := h.table
  have hkey : g.vlan % 65536 < 65536 := Nat.mod_lt _ (by decide)
  have hsame : (g.findInHashUpdate malloc now src place.code).hash =
      (Vde.findInHashUpdate malloc now src (g.vlan % 65536) place.code.toNat g.hash).2 := by
    unfold Gateway.findInHashUpdate Vde.findInHashUpdate
    rw [extmac_mod]
  constructor
  · refine ⟨m.sight malloc.isSome now src (g.vlan % 65536) place.code.toNat, ?_, hmin, hgc, ?_⟩
    · rw [hsame]
      exact hrel.update hkey hmalloc
    intro mac
    change (if mac = src ∧ g.vlan % 65536 = g.vlan % 65536 then _ else m.entries mac (g.vlan % 65536)) = _
    by_cases hmac : mac = src
    · rw [if_pos ⟨hmac, rfl⟩, hmac, hentries src, hmin]
      simp only [Learner.learn, update_self]
      cases hseen : l.seen src with
      | none => cases malloc <;> rfl
      | some s =>
        have hcode : s.place.code.toNat = place.code.toNat ↔ s.place = place := by
          rw [BitVec.toNat_inj]
          exact Place.code_eq_iff (h.proper src s hseen) hplace
        simp only [map_some]
        by_cases hsees : s.place = place
        · rw [if_pos (hcode.mpr hsees), if_pos (Or.inl hsees)]
          rfl
        rw [if_neg (fun heq => hsees (hcode.mp heq))]
        by_cases hold : 3 < now - s.lastSeen
        · rw [if_pos hold, if_pos (Or.inr hold)]
          rfl
        rw [if_neg hold, if_neg (fun hor => hor.elim hsees hold)]
        rfl
    rw [if_neg (fun hand => hmac hand.1), hentries mac]
    simp only [Learner.learn, update_of_ne hmac]
  · exact h.lastSweep
  intro mac s hs
  by_cases hmac : mac = src
  · simp only [Learner.learn, hmac, update_self] at hs
    cases hseen : l.seen src with
    | none =>
      rw [hseen] at hs
      cases hmem : malloc.isSome with
      | false =>
        rw [hmem] at hs
        cases hs
      | true =>
        rw [hmem] at hs
        cases hs
        exact hplace
    | some t =>
      rw [hseen] at hs
      simp only at hs
      by_cases hmoves : t.place = place ∨ 3 < now - t.lastSeen
      · rw [if_pos hmoves] at hs
        cases hs
        exact hplace
      rw [if_neg hmoves] at hs
      cases hs
      exact h.proper src s hseen
  · simp only [Learner.learn, update_of_ne hmac] at hs
    exact h.proper mac s hs

lemma Stands.sweep (h : Stands g l) (now : Int) : Stands (hashGc now g) (l.sweep now) := by
  obtain ⟨m, hrel, hmin, hgc, hentries⟩ := h.table
  unfold hashGc Learner.sweep
  rw [h.lastSweep]
  by_cases hdue : 2 < now - l.lastSweep
  · rw [if_pos hdue, if_pos hdue]
    constructor
    · refine ⟨m.drop (fun _ _ lastSeen => decide (lastSeen + m.gcExpire < now)), ?_, hmin, hgc, ?_⟩
      · apply hrel.drop
        intro mac v port seen _
        rw [hrel.gcExpire]
      intro mac
      change (m.entries mac (g.vlan % 65536)).filter (fun x => !decide (x.2 + m.gcExpire < now)) =
        ((l.seen mac).filter (fun s => !decide (s.lastSeen + 100 < now))).map
          (fun s => (s.place.code.toNat, s.lastSeen))
      rw [hentries mac, hgc]
      cases l.seen mac with
      | none => rfl
      | some s =>
        simp only [map_some, filter_some]
        split <;> rfl
    · rfl
    intro mac s hs
    have hseen := (filter_eq_some_iff.mp hs).1
    exact h.proper mac s hseen
  rw [if_neg hdue, if_neg hdue]
  exact h

/-! ## Datagrams -/

lemma ntoh24_toNat (mem : Mem) (off : Nat) : (ntoh24 mem off).toNat =
    (mem off).toNat * 65536 + (mem (off + 1)).toNat * 256 + (mem (off + 2)).toNat := by
  have h0 := (mem off).toNat_lt
  have h1 := (mem (off + 1)).toNat_lt
  have h2 := (mem (off + 2)).toNat_lt
  have hhigh : (mem off).toNat <<< 16 ||| (mem (off + 1)).toNat <<< 8 =
      ((mem off).toNat * 256 + (mem (off + 1)).toNat) <<< 8 := by
    rw [← Nat.shiftLeft_add_eq_or_of_lt (by rw [Nat.shiftLeft_eq]; omega)]
    simp only [Nat.shiftLeft_eq]
    omega
  have hall := Nat.shiftLeft_add_eq_or_of_lt (show (mem (off + 2)).toNat < 2 ^ 8 from h2)
    ((mem off).toNat * 256 + (mem (off + 1)).toNat)
  simp only [ntoh24, BitVec.toNat_or, BitVec.toNat_shiftLeft, BitVec.toNat_setWidth, UInt8.toNat_toBitVec]
  rw [Nat.mod_eq_of_lt (show (mem off).toNat < 2 ^ 32 by omega),
    Nat.mod_eq_of_lt (show (mem (off + 1)).toNat < 2 ^ 32 by omega),
    Nat.mod_eq_of_lt (show (mem (off + 2)).toNat < 2 ^ 32 by omega),
    Nat.mod_eq_of_lt (show (mem off).toNat <<< 16 < 2 ^ 32 by rw [Nat.shiftLeft_eq]; omega),
    Nat.mod_eq_of_lt (show (mem (off + 1)).toNat <<< 8 < 2 ^ 32 by rw [Nat.shiftLeft_eq]; omega)]
  rw [hhigh, ← hall, Nat.shiftLeft_eq]
  omega

lemma decapsulate_sent (g : Gateway) (addr : BitVec 32) (stale : Mem) (frame : List UInt8) : ∃ data,
    vxlanSend g addr (memcpy stale pktAt frame) frame.length =
    .sendto (if addr ≠ 0 then addr else g.vxlanAddr) data (frame.length + pktAt) ∧
    decapsulate (readBytes data 0 (frame.length + pktAt)) = some (g.vxlanId.toNat % 2 ^ 24, frame) := by
  refine ⟨_, rfl, ?_⟩
  generalize hdata : hton24 (memcpy (memcpy (memcpy stale pktAt frame) 0 (replicate pktAt 0)) 0 [8]) 4
    g.vxlanId = data
  have hheader : readBytes data 0 pktAt = [8, 0, 0, 0, ⟨g.vxlanId.extractLsb' 16 8⟩, ⟨g.vxlanId.extractLsb' 8 8⟩,
      ⟨g.vxlanId.extractLsb' 0 8⟩, 0] := by
    rw [← hdata]
    simp [readBytes, hton24, memcpy, pktAt, range_succ]
  have hframe : readBytes data pktAt frame.length = frame := by
    rw [← hdata, hton24, readBytes_memcpy_after _ _ _ _ _ (Nat.le_succ 7), readBytes_memcpy_after _ _ _ _ _ (by decide),
      readBytes_memcpy_after _ _ _ _ _ (by decide)]
    exact readBytes_memcpy_self stale pktAt frame
  rw [Nat.add_comm, readBytes_append, Nat.zero_add, hheader, hframe]
  have hid := g.vxlanId.isLt
  have hnum : (g.vxlanId.extractLsb' 16 8).toNat * 65536 + (g.vxlanId.extractLsb' 8 8).toNat * 256 +
      (g.vxlanId.extractLsb' 0 8).toNat = g.vxlanId.toNat % 2 ^ 24 := by
    simp only [BitVec.extractLsb'_toNat, Nat.shiftRight_eq_div_pow]
    omega
  change some ((g.vxlanId.extractLsb' 16 8).toNat * 65536 + (g.vxlanId.extractLsb' 8 8).toNat * 256 +
      (g.vxlanId.extractLsb' 0 8).toNat, frame) = _
  rw [hnum]

variable {datagram frame : List UInt8}

lemma decapsulate_buffer {vni : Nat} (h : decapsulate datagram = some (vni, frame))
    (stale : Mem) : memcpy stale 0 datagram 0 = 8 ∧ (ntoh24 (memcpy stale 0 datagram) 4).toNat = vni ∧
    datagram.length = frame.length + pktAt ∧ datagram.drop pktAt = frame := by
  unfold decapsulate at h
  split at h
  · rename_i flags b1 b2 b3 i2 i1 i0 b7 rest
    by_cases hflags : flags = 8
    · rw [if_pos hflags] at h
      cases h
      have hbyte : ∀ i, (hi : i < (flags :: b1 :: b2 :: b3 :: i2 :: i1 :: i0 :: b7 :: frame).length) →
          memcpy stale 0 (flags :: b1 :: b2 :: b3 :: i2 :: i1 :: i0 :: b7 :: frame) i =
            (flags :: b1 :: b2 :: b3 :: i2 :: i1 :: i0 :: b7 :: frame)[i] := by
        intro i hi
        have hin := memcpy_inside stale 0 i _ hi
        rwa [Nat.zero_add] at hin
      simp only [length_cons] at hbyte
      refine ⟨(hbyte 0 (by omega)).trans hflags, ?_, by simp [pktAt], rfl⟩
      rw [ntoh24_toNat, hbyte 4 (by omega), hbyte 5 (by omega), hbyte 6 (by omega)]
      rfl
    rw [if_neg hflags] at h
    cases h
  · cases h

lemma isBroadcast_iff (mem : Mem) (off : Nat) : isBroadcast mem off = true ↔ macAt mem off = broadcastMac := by
  have hall : broadcastMac = (0xFF#8 ++ 0xFF#8 ++ 0xFF#8 ++ 0xFF#8 ++ 0xFF#8 ++ 0xFF#8 : BitVec 48) := by decide
  have hbyte : ∀ b : UInt8, b = 0xFF ↔ b.toBitVec = 0xFF#8 := fun b => UInt8.toBitVec_inj.symm
  have hinj : ∀ {n : Nat} (a a' : BitVec n) (b b' : BitVec 8), a ++ b = a' ++ b' ↔ a = a' ∧ b = b' := by
    intro n a a' b b'
    constructor
    · intro h
      have hhigh := congrArg (fun x => x.extractLsb' 8 n) h
      have hlow := congrArg (fun x => x.extractLsb' 0 8) h
      simp only [BitVec.extractLsb'_append_eq_left, BitVec.extractLsb'_append_eq_right] at hhigh hlow
      exact ⟨hhigh, hlow⟩
    intro h
    rw [h.1, h.2]
  rw [hall, macAt, hinj (n := 40), hinj (n := 32), hinj (n := 24), hinj (n := 16), hinj (n := 8)]
  simp only [isBroadcast, Bool.and_eq_true, beq_iff_eq, hbyte]
  constructor
  · rintro ⟨⟨⟨⟨⟨h0, h1⟩, h2⟩, h3⟩, h4⟩, h5⟩
    exact ⟨⟨⟨⟨⟨h5, h4⟩, h3⟩, h2⟩, h1⟩, h0⟩
  rintro ⟨⟨⟨⟨⟨h5, h4⟩, h3⟩, h2⟩, h1⟩, h0⟩
  exact ⟨⟨⟨⟨⟨h0, h1⟩, h2⟩, h3⟩, h4⟩, h5⟩

/-! ## The handlers -/

lemma Stands.outward (h : Stands g l) (dst : BitVec 48) : l.outward dst = if dst = broadcastMac ∨ g.findInHash dst =
    0 then some .group else if 1 < g.findInHash dst then some (.vtep (g.findInHash dst)) else none := by
  unfold Learner.outward
  rw [h.find dst]
  by_cases hdst : dst = broadcastMac
  · rw [if_pos hdst, if_pos (Or.inl hdst)]
  rw [if_neg hdst]
  cases hseen : l.seen dst with
  | none => exact (if_pos (Or.inr rfl)).symm
  | some s =>
    have hproper := h.proper dst s hseen
    have hne : ¬(dst = broadcastMac ∨ (Option.map (fun s => s.place.code) (some s)).getD 0 = 0) :=
      fun hor => hor.elim hdst (Place.code_ne_zero hproper)
    rw [if_neg hne]
    simp only [Option.map_some, Option.getD_some]
    cases hplace : s.place with
    | localSwitch => rfl
    | vtep addr =>
      rw [hplace] at hproper
      have hlt : (1 : BitVec 32) < addr := by
        have h0 : addr.toNat ≠ 0 := fun hzero => hproper.1 (BitVec.eq_of_toNat_eq hzero)
        have h1 : addr.toNat ≠ 1 := fun hone => hproper.2 (BitVec.eq_of_toNat_eq hone)
        rw [BitVec.lt_def]
        change 1 < addr.toNat
        omega
      exact (if_pos hlt).symm

lemma Stands.inward (h : Stands g l) (dst : BitVec 48) :
    l.inward dst ↔ dst = broadcastMac ∨ g.findInHash dst = 0 ∨ g.findInHash dst = 1 := by
  unfold Learner.inward
  rw [h.find dst]
  apply or_congr_right
  cases hseen : l.seen dst with
  | none => simp
  | some s =>
    have hproper := h.proper dst s hseen
    simp only [map_some, getD_some]
    cases hplace : s.place with
    | localSwitch => simp [Place.code]
    | vtep addr =>
      rw [hplace] at hproper
      apply iff_of_false
      · exact fun hnever => hnever addr rfl
      · exact fun hor => hor.elim hproper.1 hproper.2

variable {stale : Mem}

lemma plugProcess_fits (h : frame.length ≤ ethPktSize)
    (malloc : Option Nat) (now : Int) :
    let g' := g.findInHashUpdate malloc now (macAt (memcpy stale 8 frame) 14) 1
    let dst := macAt (memcpy stale 8 frame) 8
    plugProcess g stale frame malloc now = some (g',
      if dst = broadcastMac ∨ g'.findInHash dst = 0 then [vxlanSend g' 0 (memcpy stale pktAt frame) frame.length]
      else if 1 < g'.findInHash dst then
        [vxlanSend g' (g'.findInHash dst) (memcpy stale pktAt frame) frame.length]
      else []) := by
  intro g' dst
  have hstart : plugProcess g stale frame malloc now =
      if isBroadcast (memcpy stale pktAt frame) pktAt then
        some (g', [vxlanSend g' 0 (memcpy stale pktAt frame) frame.length])
      else if g'.findInHash dst = 0 then some (g', [vxlanSend g' 0 (memcpy stale pktAt frame) frame.length])
      else if 1 < g'.findInHash dst then
        some (g', [vxlanSend g' (g'.findInHash dst) (memcpy stale pktAt frame) frame.length])
      else some (g', []) := by
    have htake : frame.take vxlanPktSize = frame := take_of_length_le (Nat.le_trans h (by decide))
    unfold plugProcess
    rw [htake]
    exact if_neg (Nat.not_lt.mpr h)
  rw [hstart]
  by_cases hb : isBroadcast (memcpy stale pktAt frame) pktAt = true
  · have hdst : dst = broadcastMac := (isBroadcast_iff _ _).mp hb
    rw [if_pos hb, if_pos (Or.inl hdst)]
  have hdst : dst ≠ broadcastMac := fun heq => hb ((isBroadcast_iff _ _).mpr heq)
  rw [if_neg hb]
  by_cases hzero : g'.findInHash dst = 0
  · rw [if_pos hzero, if_pos (Or.inr hzero)]
  have hno : ¬(dst = broadcastMac ∨ g'.findInHash dst = 0) := fun hor => hor.elim hdst hzero
  rw [if_neg hzero, if_neg hno]
  by_cases hone : 1 < g'.findInHash dst
  · rw [if_pos hone, if_pos hone]
  · rw [if_neg hone, if_neg hone]

lemma plugProcess_overruns (g : Gateway) (stale : Mem) (h : ethPktSize < frame.length)
    (malloc : Option Nat) (now : Int) : plugProcess g stale frame malloc now = none := by
  have hlen : ethPktSize < (frame.take vxlanPktSize).length := by
    rw [length_take]
    exact Nat.lt_min.mpr ⟨by decide, h⟩
  exact if_pos hlen

variable {malloc : Option Nat}

lemma frameRight_iff {s : VxlanRun} (h : Stands s.gateway s.learner) (stale : Mem) (bytes : List UInt8)
    (hmalloc : ∀ a, malloc = some a → s.gateway.hash.heap.cells a = none) (now : Int) :
    StepRight s (.frame stale bytes malloc now) ↔ bytes.length ≤ ethPktSize := by
  constructor
  · rintro ⟨g, outs, hprocess, _⟩
    by_contra hlong
    have hnone := plugProcess_overruns s.gateway stale (Nat.not_le.mp hlong) malloc now
    cases hnone.symm.trans hprocess
  intro hfits
  have hlearn : Stands (s.gateway.findInHashUpdate malloc now (macAt (memcpy stale 8 bytes) 14) 1)
      (afterFrame s.learner stale bytes malloc now) :=
    h.learn hmalloc now (macAt (memcpy stale 8 bytes) 14) (show Place.Proper .localSwitch by trivial)
  refine ⟨_, _, plugProcess_fits hfits malloc now, ?_⟩
  rw [hlearn.outward]
  have hsent : ∀ dest addr, (if addr ≠ 0 then addr else s.gateway.vxlanAddr) = Dest.address s.gateway dest →
      SentAs s.gateway bytes (some dest)
        [vxlanSend (s.gateway.findInHashUpdate malloc now (macAt (memcpy stale 8 bytes) 14) 1) addr
          (memcpy stale pktAt bytes) bytes.length] := by
    intro dest addr haddr
    obtain ⟨data, hsend, hdecap⟩ := decapsulate_sent
      (s.gateway.findInHashUpdate malloc now (macAt (memcpy stale 8 bytes) 14) 1) addr stale bytes
    refine ⟨data, bytes.length + pktAt, ?_, hdecap⟩
    rw [hsend, ← haddr]
    rfl
  split
  · exact hsent .group 0 rfl
  split
  · rename_i hno hvtep
    have hne := (not_or.mp hno).2
    exact hsent (.vtep _) _ (if_pos hne)
  · rfl

/-! ## Datagrams that arrive -/

lemma taken_buffer (stale : Mem) (datagram : List UInt8) : memcpy stale 0 (datagram.take vxlanPktSize) 0 =
    memcpy stale 0 datagram 0 ∧ ntoh24 (memcpy stale 0 (datagram.take vxlanPktSize)) 4 =
    ntoh24 (memcpy stale 0 datagram) 4 ∧ macAt (memcpy stale 0 (datagram.take vxlanPktSize)) 8 =
    macAt (memcpy stale 0 datagram) 8 ∧ macAt (memcpy stale 0 (datagram.take vxlanPktSize)) 14 =
    macAt (memcpy stale 0 datagram) 14 := by
  have hbyte : ∀ i < 1526, memcpy stale 0 (datagram.take vxlanPktSize) i = memcpy stale 0 datagram i := by
    intro i hi
    exact memcpy_take (by rwa [Nat.zero_add])
  unfold ntoh24 macAt
  simp (disch := decide) only [hbyte, and_self]

lemma vxlanProcess_accepts
    (h : Accepted g (memcpy stale 0 datagram)) (srcAddr : BitVec 32) (malloc : Option Nat) (now : Int) :
    let g' := g.findInHashUpdate malloc now (macAt (memcpy stale 0 datagram) 14) srcAddr
    let dst := macAt (memcpy stale 0 datagram) 8
    vxlanProcess g stale srcAddr datagram malloc now = (g',
      if dst = broadcastMac ∨ g'.findInHash dst = 0 ∨ g'.findInHash dst = 1 then
        [plugSend (memcpy stale 0 (datagram.take vxlanPktSize))
          (((datagram.take vxlanPktSize).length + 2 ^ 64 - pktAt) % 2 ^ 64)]
      else []) := by
  intro g' dst
  obtain ⟨h0, h4, hdst, hsrc⟩ := taken_buffer stale datagram
  have hstart : vxlanProcess g stale srcAddr datagram malloc now =
      if isBroadcast (memcpy stale 0 (datagram.take vxlanPktSize)) pktAt then
        (g', [plugSend (memcpy stale 0 (datagram.take vxlanPktSize))
          (((datagram.take vxlanPktSize).length + 2 ^ 64 - pktAt) % 2 ^ 64)])
      else if g'.findInHash dst = 0 ∨ g'.findInHash dst = 1 then
        (g', [plugSend (memcpy stale 0 (datagram.take vxlanPktSize))
          (((datagram.take vxlanPktSize).length + 2 ^ 64 - pktAt) % 2 ^ 64)])
      else (g', []) := by
    unfold vxlanProcess
    simp only [h0, h4, h.1, h.2, ne_eq, not_true_eq_false, if_false]
    rw [show pktAt + 6 = 14 from rfl, show pktAt = 8 from rfl, hdst, hsrc]
  rw [hstart]
  by_cases hb : isBroadcast (memcpy stale 0 (datagram.take vxlanPktSize)) pktAt = true
  · have hall : dst = broadcastMac := hdst.symm.trans ((isBroadcast_iff _ _).mp hb)
    rw [if_pos hb, if_pos (Or.inl hall)]
  have hall : dst ≠ broadcastMac := fun heq => hb ((isBroadcast_iff _ _).mpr (hdst.trans heq))
  rw [if_neg hb]
  by_cases hlocal : g'.findInHash dst = 0 ∨ g'.findInHash dst = 1
  · rw [if_pos hlocal, if_pos (Or.inr hlocal)]
  · rw [if_neg hlocal, if_neg (fun hor => hor.elim hall hlocal)]

lemma vxlanProcess_rejects (h : ¬Accepted g (memcpy stale 0 datagram)) (srcAddr : BitVec 32) (malloc : Option Nat)
    (now : Int) : vxlanProcess g stale srcAddr datagram malloc now = (g, []) := by
  obtain ⟨h0, h4, _, _⟩ := taken_buffer stale datagram
  unfold vxlanProcess
  simp only [h0, h4]
  by_cases hflags : memcpy stale 0 datagram 0 = 8
  · rw [if_neg (not_not.mpr hflags), if_pos (fun hid => h ⟨hflags, hid⟩)]
  · rw [if_pos hflags]

lemma Accepted.of_decapsulate (h : decapsulate datagram = some (g.vxlanId.toNat, frame)) (stale : Mem) :
    Accepted g (memcpy stale 0 datagram) := by
  obtain ⟨hflags, hid, _, _⟩ := decapsulate_buffer h stale
  exact ⟨hflags, BitVec.eq_of_toNat_eq hid⟩

lemma Stands.afterDatagram (h : Stands g l) (stale : Mem) {srcAddr : BitVec 32}
    (h0 : srcAddr ≠ 0) (h1 : srcAddr ≠ 1) (datagram : List UInt8)
    (hmalloc : ∀ a, malloc = some a → g.hash.heap.cells a = none) (now : Int) :
    Stands (vxlanProcess g stale srcAddr datagram malloc now).1
      (afterDatagram g l stale srcAddr datagram malloc now) := by
  unfold Vxlan.afterDatagram
  by_cases haccept : Accepted g (memcpy stale 0 datagram)
  · rw [if_pos haccept, vxlanProcess_accepts haccept]
    exact h.learn hmalloc now _ (show Place.Proper (.vtep srcAddr) from ⟨h0, h1⟩)
  rw [if_neg haccept, vxlanProcess_rejects haccept]
  exact h

lemma delivered_iff {vni : Nat} (h : decapsulate datagram = some (vni, frame))
    (stale : Mem) :
    readBytes (fun i => memcpy stale 0 (datagram.take vxlanPktSize) (pktAt + i)) 0
      (((datagram.take vxlanPktSize).length + 2 ^ 64 - pktAt) % 2 ^ 64) = frame ↔
        datagram.length ≤ vxlanPktSize := by
  obtain ⟨_, _, hlen, hdrop⟩ := decapsulate_buffer h stale
  have hsize : ((datagram.take vxlanPktSize).length + 2 ^ 64 - pktAt) % 2 ^ 64 =
      (datagram.take vxlanPktSize).length - pktAt := by
    have hle : (datagram.take vxlanPktSize).length ≤ 1526 := length_take_le vxlanPktSize datagram
    have hge : 8 ≤ (datagram.take vxlanPktSize).length := by
      rw [length_take, hlen]
      exact Nat.le_min.mpr ⟨by decide, Nat.le_add_left _ _⟩
    change ((datagram.take vxlanPktSize).length + 2 ^ 64 - 8) % 2 ^ 64 = (datagram.take vxlanPktSize).length - 8
    omega
  rw [hsize]
  constructor
  · intro heq
    have hlen' := congrArg length heq
    rw [readBytes_length, length_take] at hlen'
    unfold pktAt at hlen hlen'
    unfold vxlanPktSize at hlen' ⊢
    omega
  intro hfits
  rw [take_of_length_le hfits]
  have hread : readBytes (fun i => memcpy stale 0 datagram (pktAt + i)) 0 (datagram.length - pktAt) =
      readBytes (memcpy stale 0 datagram) pktAt (datagram.length - pktAt) := by
    apply readBytes_congr
    intro i _
    simp only [Nat.zero_add]
  have hall := readBytes_memcpy_self stale 0 datagram
  rw [hread]
  calc readBytes (memcpy stale 0 datagram) pktAt (datagram.length - pktAt)
      = (readBytes (memcpy stale 0 datagram) 0 datagram.length).drop pktAt := by
        rw [readBytes_drop _ _ (by omega), Nat.zero_add]
    _ = frame := by rw [hall, hdrop]

lemma datagramRight_iff {s : VxlanRun} (h : Stands s.gateway s.learner) (stale : Mem) {srcAddr : BitVec 32}
    (h0 : srcAddr ≠ 0) (h1 : srcAddr ≠ 1) (bytes : List UInt8)
    (hmalloc : ∀ a, malloc = some a → s.gateway.hash.heap.cells a = none) (now : Int) :
    StepRight s (.datagram stale srcAddr bytes malloc now) ↔ StepOk s (.datagram stale srcAddr bytes malloc now) := by
  have honly : ∀ o ∈ (vxlanProcess s.gateway stale srcAddr bytes malloc now).2, ∃ data len, o = .vdeSend data len := by
    intro o ho
    by_cases haccept : Accepted s.gateway (memcpy stale 0 bytes)
    · rw [vxlanProcess_accepts haccept] at ho
      simp only at ho
      split at ho
      · rw [mem_singleton.mp ho]
        exact ⟨_, _, rfl⟩
      · cases ho
    rw [vxlanProcess_rejects haccept] at ho
    cases ho
  apply (and_iff_right honly).trans
  apply forall_congr'
  intro frame
  apply forall_congr'
  intro hdecap
  have haccept := Accepted.of_decapsulate hdecap stale
  have hstands := h.afterDatagram stale h0 h1 bytes hmalloc now
  have hinward := hstands.inward (macAt (memcpy stale 0 bytes) 8)
  rw [vxlanProcess_accepts haccept] at hinward ⊢
  simp only at hinward ⊢
  unfold DeliveredAs
  by_cases hdeliver : (afterDatagram s.gateway s.learner stale srcAddr bytes malloc now).inward
      (macAt (memcpy stale 0 bytes) 8)
  · rw [if_pos (hinward.mp hdeliver)]
    have hbytes := delivered_iff hdecap stale
    constructor
    · rintro ⟨hright, _⟩ _
      obtain ⟨data, len, houts, hread⟩ := hright hdeliver
      cases houts
      exact hbytes.mp hread
    intro hfits
    exact ⟨fun _ => ⟨_, _, rfl, hbytes.mpr (hfits hdeliver)⟩, fun hno => absurd hdeliver hno⟩
  rw [if_neg (fun hor => hdeliver (hinward.mpr hor))]
  exact iff_of_true ⟨fun hyes => absurd hyes hdeliver, fun _ => rfl⟩ (fun hyes => absurd hyes hdeliver)

lemma Stands.step {s : VxlanRun} (h : Stands s.gateway s.learner) {e : VxlanEvent} (he : e.Legal s.gateway) :
    Stands (vxlanStep s e).gateway (vxlanStep s e).learner := by
  cases e with
  | frame stale bytes malloc now =>
    simp only [vxlanStep]
    by_cases hfits : bytes.length ≤ ethPktSize
    · rw [plugProcess_fits hfits]
      exact h.learn he now _ (show Place.Proper .localSwitch by trivial)
    rw [plugProcess_overruns _ _ (Nat.not_le.mp hfits)]
    exact h
  | datagram stale srcAddr bytes malloc now => exact h.afterDatagram stale he.1 he.2.1 bytes he.2.2 now
  | gc now => exact h.sweep now

/-- A run of the gateway sends as the learner says exactly when every frame and every datagram for the switch
on it fits into the buffer. -/
theorem gateway_right_iff (vxlanId vxlanAddr : BitVec 32) (es : List VxlanEvent)
    (hes : vxlanMachine.Along vxlanMachine.enabled (vxlanStart vxlanId vxlanAddr) es) :
    vxlanMachine.Along StepRight (vxlanStart vxlanId vxlanAddr) es ↔
    vxlanMachine.Along StepOk (vxlanStart vxlanId vxlanAddr) es := by
  apply Machine.along_congr (fun s => Stands s.gateway s.learner) _ _ (Stands.start vxlanId vxlanAddr) es hes
  · intro s e hs he
    exact hs.step he.2
  intro s e hs he
  cases e with
  | frame stale bytes malloc now => exact frameRight_iff hs stale bytes he.2 now
  | datagram stale srcAddr bytes malloc now =>
    exact datagramRight_iff hs stale he.2.1 he.2.2.1 bytes he.2.2.2 now
  | gc now => exact Iff.rfl

def taggedFrame : List UInt8 :=
  replicate 6 0xFF ++ [2, 0, 0, 0, 0, 1, 0x81, 0x00, 0x00, 0x05, 0x08, 0x00] ++ replicate 1504 0

def taggedRun : List VxlanEvent := [.frame (fun _ => 0) taggedFrame (some 0) 1000]

def mcastGroup : BitVec 32 := 0x010000EF

lemma taggedRun_enabled : vxlanMachine.Along vxlanMachine.enabled (vxlanStart 7 mcastGroup) taggedRun :=
  ⟨⟨rfl, fun _ _ => rfl⟩, trivial⟩

def untaggedRun : List VxlanEvent :=
  [.frame (fun _ => 0) (replicate 6 0xFF ++ [2, 0, 0, 0, 0, 1, 0x08, 0x00]) (some 0) 1000, .gc 1001]

theorem gateway_right_iff_untagged : vxlanMachine.Along StepRight (vxlanStart 7 mcastGroup) untaggedRun := by
  have henabled : vxlanMachine.Along vxlanMachine.enabled (vxlanStart 7 mcastGroup) untaggedRun :=
    ⟨⟨rfl, fun _ _ => rfl⟩, ⟨rfl, trivial⟩, trivial⟩
  exact (gateway_right_iff 7 mcastGroup untaggedRun henabled).mpr ⟨show 14 ≤ ethPktSize by decide, trivial, trivial⟩

/-- The frame of 1522 bytes does not fit into `pkt.pkt`. -/
theorem tagged_frame_overruns : vxlanMachine.Along vxlanMachine.enabled (vxlanStart 7 mcastGroup) taggedRun ∧
    ¬vxlanMachine.Along StepRight (vxlanStart 7 mcastGroup) taggedRun := by
  constructor
  · exact taggedRun_enabled
  rintro ⟨⟨g, outs, hprocess, _⟩, _⟩
  have hlen : taggedFrame.length = 1522 := by
    rw [taggedFrame, length_append, length_append, length_replicate, length_replicate]
    rfl
  have hlong : ethPktSize < taggedFrame.length := by
    rw [hlen]
    decide
  have hnone := plugProcess_overruns (gatewayInit 7 mcastGroup) (fun _ => 0) hlong (some 0) 1000
  cases hnone.symm.trans hprocess

end Vde.Vxlan
