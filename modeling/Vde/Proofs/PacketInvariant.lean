import Vde.Proofs.VlanInvariant

/-!
# Packets keep the invariant

What a packet that is not a BPDU does to the switch: it may change the hash table, and it is sent.
The loops that send it come down to one list of transmissions.
-/

namespace Vde

open Option

/-! ## Transmissions -/

def Switch.emit (l : List Tx) (s : Switch) : Switch := { s with sent := s.sent ++ l }

def Switch.tx (packet : List UInt8) (q : Nat) (s : Switch) : Tx :=
  ⟨q, (s.portv q).elim [] Port.ep, packet⟩

variable {malloc : Option Nat}

section

variable {free quiet : Prop} {s : Switch} {v p q : Nat}

lemma emit_nil (s : Switch) : s.emit [] = s := by
  simp [Switch.emit]

lemma emit_emit (l l' : List Tx) (s : Switch) : (s.emit l).emit l' = s.emit (l ++ l') := by
  simp [Switch.emit]

lemma sendPacketPort_eq (hq : (s.portv q).isSome = true) (packet : List UInt8) :
    sendPacketPort q packet s = s.emit [s.tx packet q] := by
  obtain ⟨port, hport⟩ := isSome_iff_exists.mp hq
  simp [sendPacketPort, hport, Switch.emit, Switch.tx]

lemma foldl_send (packet : List UInt8) {l : List Nat} (hl : ∀ q ∈ l, (s.portv q).isSome = true) :
    l.foldl (fun s q => if q ≠ p then sendPacketPort q packet s else s) s =
    s.emit ((l.filter (fun q => q ≠ p)).map (fun q => s.tx packet q)) := by
  induction l generalizing s with
  | nil => exact (emit_nil s).symm
  | cons q l ih =>
    rw [List.foldl_cons]
    have hrest : ∀ q ∈ l, (s.portv q).isSome = true := fun q hq => hl q (List.mem_cons_of_mem _ hq)
    by_cases hq : q = p
    · rw [if_neg (by simpa using hq), ih hrest, List.filter_cons_of_neg (by simpa using hq)]
    rw [if_pos hq, sendPacketPort_eq (hl q List.mem_cons_self),
      ih (s := s.emit [s.tx packet q]) hrest, emit_emit, List.filter_cons_of_pos (by simpa using hq),
      List.map_cons]
    rfl

lemma floodPorts_eq (hr : Ready s v) {t : Tab} (ht : t.ofPorts = true) (packet : List UInt8) :
    floodPorts t v p packet s =
    s.emit (((s.members t v).filter (fun q => q ≠ p)).map (fun q => s.tx packet q)) := by
  have hports : ∀ q ∈ s.members t v, (s.portv q).isSome = true :=
    fun q hq => hr.ports t q ht ((mem_members hr ht).mp hq)
  obtain ⟨x, hx⟩ := ne_none_iff_exists'.mp (hr.tabs t)
  -- sending changes neither the array nor the ports
  have hloop : floodPorts t v p packet s = (s.members t v).foldl
      (fun s q => if q ≠ p then sendPacketPort q packet s else s) s := by
    unfold floodPorts
    simp only [Switch.forPorts, hx]
    have hsend : ∀ (s' : Switch) (q : Nat), (s.portv q).isSome = true → (∃ l, s' = s.emit l) →
        ∃ l, (if q ≠ p then sendPacketPort q packet s' else s') = s.emit l := by
      rintro s' q hq ⟨l, rfl⟩
      split
      · rw [sendPacketPort_eq (show ((s.emit l).portv q).isSome = true from hq), emit_emit]
        exact ⟨_, rfl⟩
      · exact ⟨l, rfl⟩
    apply baForall_eq (fun s' => ∃ l, s' = s.emit l)
    · exact ⟨[], (emit_nil s).symm⟩
    · intro s' q hq
      exact hsend s' q (hports q hq)
    intro s' q hq hs' k _
    obtain ⟨l', hl'⟩ := hsend s' q (hports q hq) hs'
    obtain ⟨l, rfl⟩ := hs'
    rw [hl']
    rfl
  rw [hloop]
  exact foldl_send packet hports

def taggedForm (vlan : Nat) (p : Packet) : Packet := if p.isTagged then p else untag2tag vlan p

def untaggedForm (p : Packet) : Packet := if p.isTagged then tag2untag p else p

def floodList (v port : Nat) (p : Packet) (s : Switch) : List Tx :=
  let tagged := ((s.members .bctag v).filter (fun q => q ≠ port)).map
    (fun q => s.tx (taggedForm v p).bytes q)
  let untagged := ((s.members .bcuntag v).filter (fun q => q ≠ port)).map
    (fun q => s.tx (untaggedForm p).bytes q)
  if p.isTagged then tagged ++ untagged else untagged ++ tagged

lemma Ready.emit (hr : Ready s v) (l : List Tx) : Ready (s.emit l) v :=
  ⟨hr.tabs, hr.fst, hr.ports, hr.range⟩

lemma flood_eq (hr : Ready s v) (port : Nat) (p : Packet) : flood v port p s = s.emit (floodList v port p s) := by
  unfold flood floodList taggedForm untaggedForm
  cases p.isTagged with
  | true =>
    simp only [if_true]
    rw [floodPorts_eq hr rfl, floodPorts_eq (hr.emit _) rfl, emit_emit]
    rfl
  | false =>
    simp only [Bool.false_eq_true, if_false]
    rw [floodPorts_eq hr rfl, floodPorts_eq (hr.emit _) rfl, emit_emit]
    rfl

def unicastList (v port tarport : Nat) (p : Packet) (s : Switch) : List Tx :=
  if tarport = port then []
  else [s.tx (if s.untagged v tarport then untaggedForm p else taggedForm v p).bytes tarport]

lemma unicast_eq {port tarport : Nat} (ht : (s.portv tarport).isSome = true) (p : Packet) :
    unicast v port tarport p s = s.emit (unicastList v port tarport p s) := by
  unfold unicast unicastList
  split
  · exact (emit_nil s).symm
  obtain ⟨target, htarget⟩ := isSome_iff_exists.mp ht
  simp only [htarget]
  rw [sendPacketPort_eq ht]
  have hu : s.untagged v tarport = (target.vlanuntag == v) := by simp [Switch.untagged, htarget]
  unfold untaggedForm taggedForm
  rw [hu]
  by_cases hv : target.vlanuntag = v <;> cases p.isTagged <;> simp [hv]

lemma hubPacket_eq (port : Nat) (p : Packet) (s : Switch) : ∃ l, hubPacket port p s = s.emit l := by
  unfold hubPacket
  apply foldl_keeps (fun s' => ∃ l, s' = s.emit l)
  · rintro s' q _ ⟨l, rfl⟩
    split
    · next hq =>
      rw [sendPacketPort_eq hq.2, emit_emit]
      exact ⟨_, rfl⟩
    · exact ⟨l, rfl⟩
  · exact ⟨[], (emit_nil s).symm⟩

lemma SwitchInv.emit (h : SwitchInv free quiet s) (l : List Tx) : SwitchInv free quiet (s.emit l) :=
  h.same ⟨rfl, rfl, rfl, rfl, rfl, rfl⟩ rfl

/-! ## Learning -/

def learnedHash (malloc : Option Nat) (vlan port : Nat) (p : Packet) (s : Switch) : HashTable :=
  if isBroadcast p.mem (p.off + 6) then s.hash
  else (findInHashUpdate malloc s.now (macAt p.mem (p.off + 6)) vlan port s.hash).2

lemma findInHash_eq (t : HashTable) (dst : BitVec 48) (vlan : Nat) :
    findInHash t dst vlan = (lookup t (extmac dst vlan)).map HashData.port := rfl

def target (t : HashTable) (vlan : Nat) (p : Packet) : Option Nat :=
  if isBroadcast p.mem p.off then none else findInHash t (macAt p.mem p.off) vlan

lemma learned_cases {mem : Bool} {minper now : Int} {port : Nat} {key : BitVec 64} {o : Option HashData}
    {e : HashData} (h : learned mem minper now port key o = some e) : e.port = port ∨ o = some e := by
  unfold learned at h
  cases o with
  | none =>
    cases mem with
    | true => exact .inl (by simpa using congrArg HashData.port (some.inj h).symm)
    | false => exact absurd h (by simp)
  | some e' =>
    dsimp only at h
    split at h
    · exact .inl (by simpa using congrArg HashData.port (some.inj h).symm)
    · exact .inr h

lemma learn_inv (h : SwitchInv free quiet s) (hin : Ingress s v p)
    (hn : s.check .notlearning v p = false)
    (hmalloc : ∀ a, malloc = some a → s.hash.heap.cells a = none) (pkt : Packet) :
    SwitchInv free quiet { s with hash := learnedHash malloc v p pkt s } := by
  unfold learnedHash
  split
  · exact h
  obtain ⟨chain, hwf⟩ := h.core.hash
  obtain ⟨hok, hl⟩ := findInHashUpdate_spec hwf hmalloc s.now (macAt pkt.mem (pkt.off + 6)) v p
  have hsame : SameTables s { s with
      hash := (findInHashUpdate malloc s.now (macAt pkt.mem (pkt.off + 6)) v p s.hash).2 } :=
    ⟨rfl, rfl, rfl, rfl, rfl, rfl⟩
  refine ⟨hsame.core h.core hok, fun key e hlook => hsame.entryOk ?_⟩
  have hlook' := (hl key).symm.trans hlook
  split at hlook'
  · next hkey =>
    rcases learned_cases hlook' with hport | hold
    · have hlt := vlan_lt_65536 h.core hin.valid
      rw [hkey, emac2vlan_extmac _ hlt, hport, BitVec.toNat_ofNat, Nat.mod_eq_of_lt hlt]
      exact ⟨hin.active, hin.table, hn⟩
    rw [hkey]
    exact h.entries _ _ hold
  · exact h.entries key e hlook'

def switchList (t : HashTable) (v port : Nat) (p : Packet) (s : Switch) : List Tx :=
  match target t v p with
  | none => floodList v port p s
  | some tarport => unicastList v port tarport p s

lemma switchPacket_eq (h : SwitchInv free quiet s) (hin : Ingress s v p)
    (hn : s.check .notlearning v p = false)
    (hmalloc : ∀ a, malloc = some a → s.hash.heap.cells a = none) (pkt : Packet) :
    switchPacket malloc v p pkt s =
      { s with hash := learnedHash malloc v p pkt s }.emit
        (switchList (learnedHash malloc v p pkt s) v p pkt s) := by
  have hlearn := learn_inv h hin hn hmalloc pkt
  have hstate : (if isBroadcast pkt.mem (pkt.off + 6) = true then s else
      { s with hash := (findInHashUpdate malloc s.now (macAt pkt.mem (pkt.off + 6)) v p s.hash).2 }) =
      { s with hash := learnedHash malloc v p pkt s } := by
    unfold learnedHash
    split <;> rfl
  unfold switchPacket switchList target
  dsimp only
  rw [hstate]
  have hr := hlearn.core.ready (show _ = true from hin.valid)
  cases hb : isBroadcast pkt.mem pkt.off with
  | true =>
    simp only [if_true]
    exact flood_eq hr p pkt
  | false =>
    simp only [Bool.false_eq_true, if_false]
    cases hf : findInHash (learnedHash malloc v p pkt s) (macAt pkt.mem pkt.off) v with
    | none => exact flood_eq hr p pkt
    | some t =>
      rw [findInHash_eq, map_eq_some_iff] at hf
      obtain ⟨e, he, rfl⟩ := hf
      exact unicast_eq (isSome_of_active (hlearn.entries _ e he).active) pkt

/-! ## All packets -/

lemma ingress_of_ingressVlan (h : SwitchInv free quiet s) {port : Port} (hp : s.portv p = some port)
    (ha : s.active p = true) {pkt : Packet} (hv : ingressVlan p port pkt s = some v) : Ingress s v p := by
  unfold ingressVlan at hv
  split at hv
  · split at hv
    · next ht =>
      obtain rfl := some.inj hv
      exact ⟨h.core.valid_of_check ht, ha, ht⟩
    · exact absurd hv (by simp)
  split at hv
  · exact absurd hv (by simp)
  next hno =>
  obtain rfl := some.inj hv
  obtain ⟨hvalid, ht⟩ := (h.core.cells _ p hno).own (by simp [hp]) (by simp [Switch.untagged, hp])
  exact ⟨hvalid, ha, ht⟩

lemma handleInPacket_inv (h : SwitchInv free quiet s) (hq : ¬quiet) (ha : s.active p = true)
    (hmalloc : ∀ a, malloc = some a → s.hash.heap.cells a = none) (pkt : Packet) :
    SwitchInv free quiet (handleInPacket malloc p pkt s) := by
  unfold handleInPacket
  split
  · obtain ⟨l, hl⟩ := hubPacket_eq p pkt s
    rw [hl]
    exact h.emit l
  obtain ⟨port, hp⟩ := isSome_iff_exists.mp (isSome_of_active ha)
  simp only [hp]
  cases hv : ingressVlan p port pkt s with
  | none => exact h
  | some v =>
    have hin := ingress_of_ingressVlan h hp ha hv
    dsimp only
    split
    · exact fstInBpdu_inv h hq hin _ _ _ _
    split
    · exact h
    next hn =>
    rw [switchPacket_eq h hin (by simpa using hn) hmalloc]
    exact (learn_inv h hin (by simpa using hn) hmalloc pkt).emit _

end

end Vde
