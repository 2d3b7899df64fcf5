import Vde.Proofs.FrameForms

/-!
# Forwarding

Where a packet that has been let in goes, and in which form. A packet for a known address goes to
one port, which is active, in the VLAN and not blocked; every other packet goes once to every port
on which the VLAN is open. The port that it came from never gets it back.
-/

namespace Vde

open List

structure LetIn (s : Switch) (port : Nat) (p : Packet) (v : Nat) (pt : Port) : Prop where
  hub : s.hub = false
  portv : s.portv port = some pt
  vlan : ingressVlan port pt p s = some v
  data : (isBpdu p && s.fstp) = false
  learns : s.check .notlearning v port = false

section

variable {free quiet : Prop} {s : Switch} {port v : Nat} {p : Packet} {pt : Port}
  {malloc : Option Nat}

section

variable (h : LetIn s port p v pt) (hs : SwitchInv free quiet s) (ha : s.active port = true)

include h hs ha

lemma LetIn.ingress : Ingress s v port :=
  ingress_of_ingressVlan hs h.portv ha h.vlan

lemma LetIn.handle
    (hmalloc : ∀ a, malloc = some a → s.hash.heap.cells a = none) :
    handleInPacket malloc port p s = { s with hash := learnedHash malloc v port p s }.emit
      (switchList (learnedHash malloc v port p s) v port p s) := by
  rw [← switchPacket_eq hs (h.ingress hs ha) h.learns hmalloc p]
  unfold handleInPacket
  simp only [h.hub, h.portv, h.vlan, h.data, h.learns, Bool.false_eq_true, if_false]

end

lemma handle_dropped (hhub : s.hub = false) (hdata : (isBpdu p && s.fstp) = false) (ha : s.active port = true)
    (hno : ∀ v pt, ¬LetIn s port p v pt) : handleInPacket malloc port p s = s := by
  obtain ⟨pt, hp⟩ := Option.isSome_iff_exists.mp (isSome_of_active ha)
  unfold handleInPacket
  simp only [hhub, Bool.false_eq_true, if_false, hp, hdata]
  cases hv : ingressVlan port pt p s with
  | none => rfl
  | some v =>
    dsimp only
    split
    · rfl
    · next hn => exact absurd ⟨hhub, hp, hv, hdata, by simpa using hn⟩ (hno v pt)

/-! ## Known addresses -/

lemma target_open (h : SwitchInv free quiet s) (hv : s.valid v = true) {t : Nat}
    (ht : target s.hash v p = some t) : EntryOk s v t := by
  unfold target at ht
  split at ht
  · exact absurd ht (by simp)
  rw [findInHash_eq, Option.map_eq_some_iff] at ht
  obtain ⟨e, he, rfl⟩ := ht
  have hlt := vlan_lt_65536 h.core hv
  have hopen := h.entries _ e he
  rwa [emac2vlan_extmac _ hlt, BitVec.toNat_ofNat, Nat.mod_eq_of_lt hlt] at hopen

lemma LetIn.unicast (h : LetIn s port p v pt) (hs : SwitchInv free quiet s)
    (ha : s.active port = true) (hmalloc : ∀ a, malloc = some a → s.hash.heap.cells a = none) {t : Nat}
    (ht : target (handleInPacket malloc port p s).hash v p = some t) :
    EntryOk s v t ∧ (handleInPacket malloc port p s).sent = s.sent ++ unicastList v port t p s := by
  have hin := h.ingress hs ha
  rw [h.handle hs ha hmalloc] at ht ⊢
  have htarget : target (learnedHash malloc v port p s) v p = some t := ht
  refine ⟨?_, ?_⟩
  · have hopen := target_open (learn_inv hs hin h.learns hmalloc p) hin.valid ht
    exact ⟨hopen.active, hopen.table, hopen.learns⟩
  unfold switchList
  rw [htarget]
  rfl

/-- Every entry of the address table is for an active port of its VLAN that is not blocked, and a
packet for a known address is sent to such a port. -/
theorem addresses_on_open_ports (belongs : BitVec 32 → BitVec 32 → Bool)
    (hs : (switchMachine belongs).Reach SwitchStart s) (hlive : s.trap = false) :
    (∃ chain, HashWF s.hash chain ∧ ∀ k < s.hash.size, ∀ a ∈ chain k, ∀ e,
        s.hash.heap.val a = some e → EntryOk s (emac2vlan e.dst).toNat e.port) ∧
      ∀ port stack frame malloc v pt t,
        (SwitchEvent.packet port stack frame malloc).Legal s →
        LetIn s port (recvPacket stack frame) v pt →
        target ((switchMachine belongs).step s (.packet port stack frame malloc)).hash v
          (recvPacket stack frame) = some t →
        EntryOk s v t ∧ ((switchMachine belongs).step s (.packet port stack frame malloc)).sent =
          s.sent ++ unicastList v port t (recvPacket stack frame) s := by
  have h := live_inv belongs hs hlive
  refine ⟨?_, fun port stack frame malloc v pt t hlegal hin ht => ?_⟩
  · obtain ⟨chain, hwf⟩ := h.core.hash
    refine ⟨chain, hwf, fun k hk a ha e he => ?_⟩
    exact h.entries e.dst e ((hwf.lookup_eq_some e.dst e).mpr ⟨k, hk, a, ha, he, rfl⟩)
  · exact hin.unicast h hlegal.1 hlegal.2.2.2 ht

lemma exists_letIn (hhub : s.hub = false) (hdata : (isBpdu p && s.fstp) = false)
    (hlearns : s.check .notlearning v port = false)
    (hvlan : (s.portv port).any (fun pt => ingressVlan port pt p s == some v) = true) :
    ∃ pt, LetIn s port p v pt := by
  obtain ⟨pt, hp, hv⟩ := (Option.any_eq_true _ _).mp hvlan
  exact ⟨pt, hhub, hp, by simpa using hv, hdata, hlearns⟩

end

def dataFrame (dst src : List UInt8) : List UInt8 := dst ++ src ++ [0x08, 0x00]

def learnRun : List SwitchEvent :=
  [.setupEp 1 10 10 0, .setupEp 2 11 11 0,
    .packet 1 (fun _ => 0) (dataFrame [0xff, 0xff, 0xff, 0xff, 0xff, 0xff] [2, 0, 0, 0, 0, 1]) (some 0)]

def learnState : Switch := (switchMachine noGroups).run (freshSwitch true) learnRun

lemma learnState_reach : (switchMachine noGroups).Reach SwitchStart learnState := by
  apply (Machine.Reach.init _ (freshSwitch_start true)).run learnRun
  refine ⟨⟨rfl, trivial⟩, ⟨by decide +kernel, trivial⟩,
    ⟨by decide +kernel, by decide +kernel, by decide, by decide, ?_⟩, trivial⟩
  intro a ha
  obtain rfl := Option.some.inj ha
  exact Option.isNone_iff_eq_none.mp (by decide +kernel)

def answer (n : UInt8) : List UInt8 := dataFrame [2, 0, 0, 0, 0, n] [2, 0, 0, 0, 0, 2]

lemma answer_legal (n : UInt8) : (SwitchEvent.packet 2 (fun _ => 0) (answer n) none).Legal learnState :=
  ⟨by decide +kernel, Nat.le_refl 14, by simp [answer, dataFrame, sizeofPacket], nofun⟩

theorem addresses_on_open_ports_learnRun :
    ((switchMachine noGroups).step learnState (.packet 2 (fun _ => 0) (answer 1) none)).sent =
    learnState.sent ++ [⟨1, [⟨1, 10, 10⟩], answer 1⟩] := by
  have h := (addresses_on_open_ports noGroups learnState_reach (by decide +kernel)).2
  obtain ⟨pt, hin⟩ : ∃ pt, LetIn learnState 2 (recvPacket (fun _ => 0) (answer 1)) 0 pt :=
    exists_letIn (by decide +kernel) (by decide +kernel) (by decide +kernel) (by decide +kernel)
  rw [(h 2 (fun _ => 0) (answer 1) none 0 pt 1 (answer_legal 1) hin (by decide +kernel)).2]
  decide +kernel

/-! ## Egress ports -/

section

variable {free quiet : Prop} {s : Switch} {port v : Nat} {p : Packet} {pt : Port}
  {malloc : Option Nat}

lemma map_port_tx (packet : List UInt8) (l : List Nat) (s : Switch) :
    (l.map (fun q => s.tx packet q)).map Tx.port = l := by
  rw [map_map]
  exact map_id l

lemma mem_floodList (hr : Ready s v) {tx : Tx} :
    tx ∈ floodList v port p s ↔ ∃ q, q ≠ port ∧
      (s.check .bctag v q = true ∧ tx = s.tx (taggedForm v p).bytes q ∨
        s.check .bcuntag v q = true ∧ tx = s.tx (untaggedForm p).bytes q) := by
  have hmem : ∀ t : Tab, t.ofPorts = true → ∀ packet,
      tx ∈ ((s.members t v).filter (fun q => q ≠ port)).map (fun q => s.tx packet q) ↔
        ∃ q, q ≠ port ∧ s.check t v q = true ∧ tx = s.tx packet q := by
    intro t ht packet
    simp only [mem_map, mem_filter, mem_members hr ht, decide_eq_true_eq]
    constructor
    · rintro ⟨q, ⟨hq, hne⟩, rfl⟩
      exact ⟨q, hne, hq, rfl⟩
    rintro ⟨q, hne, hq, rfl⟩
    exact ⟨q, ⟨hq, hne⟩, rfl⟩
  unfold floodList
  dsimp only
  cases p.isTagged with
  | true =>
    rw [if_pos rfl, mem_append, hmem .bctag rfl, hmem .bcuntag rfl, ← exists_or]
    simp only [← and_or_left]
  | false =>
    rw [if_neg (by simp), mem_append, hmem .bctag rfl, hmem .bcuntag rfl, or_comm, ← exists_or]
    simp only [← and_or_left]

lemma nodup_floodList (h : SwitchInv free quiet s) (hv : s.valid v = true) :
    ((floodList v port p s).map Tx.port).Nodup := by
  have hr := h.core.ready hv
  have hdisjoint : List.Disjoint ((s.members .bctag v).filter (fun q => q ≠ port))
      ((s.members .bcuntag v).filter (fun q => q ≠ port)) := by
    intro q htag huntag
    have hcell := h.core.cells v q (h.core.ne_noVlan hv)
    have hu := (hcell.bctag ((mem_members hr rfl).mp (mem_filter.mp htag).1)).2.2
    have hu' := (hcell.bcuntag ((mem_members hr rfl).mp (mem_filter.mp huntag).1)).2
    rw [hu] at hu'
    cases hu'
  have hnodup : ∀ t, ((s.members t v).filter (fun q => q ≠ port)).Nodup :=
    fun t => (nodup_members t v s).filter _
  unfold floodList
  dsimp only
  split
  · rw [map_append, map_port_tx, map_port_tx]
    exact (hnodup .bctag).append (hnodup .bcuntag) hdisjoint
  rw [map_append, map_port_tx, map_port_tx]
  exact (hnodup .bcuntag).append (hnodup .bctag) hdisjoint.symm

lemma not_mem_floodList (hr : Ready s v) : port ∉ (floodList v port p s).map Tx.port := by
  rw [mem_map]
  rintro ⟨tx, htx, hport⟩
  obtain ⟨q, hne, ⟨-, rfl⟩ | ⟨-, rfl⟩⟩ := (mem_floodList hr).mp htx
  · exact hne hport
  · exact hne hport

/-- A packet that has been let in leaves once on every port on which its VLAN is open, or on the one
port that its destination is known to be on, in the form that the port expects and never where it
came from. -/
theorem egress_ports (belongs : BitVec 32 → BitVec 32 → Bool)
    (hs : (switchMachine belongs).Reach SwitchStart s) (hlive : s.trap = false) {stack : Mem}
    {frame : List UInt8} (hlegal : (SwitchEvent.packet port stack frame malloc).Legal s)
    (hin : LetIn s port (recvPacket stack frame) v pt) :
    ∃ out, ((switchMachine belongs).step s (.packet port stack frame malloc)).sent = s.sent ++ out ∧
      (out.map Tx.port).Nodup ∧ port ∉ out.map Tx.port ∧
      ((switchMachine belongs).step s (.packet port stack frame malloc)).hash =
        learnedHash malloc v port (recvPacket stack frame) s ∧
      match target (learnedHash malloc v port (recvPacket stack frame) s) v
          (recvPacket stack frame) with
      | none => ∀ tx, tx ∈ out ↔ ∃ q, q ≠ port ∧
          (s.check .bctag v q = true ∧ tx = s.tx (taggedForm v (recvPacket stack frame)).bytes q ∨
            s.check .bcuntag v q = true ∧ tx = s.tx (untaggedForm (recvPacket stack frame)).bytes q)
      | some t => out = if t = port then [] else
          [s.tx (if s.untagged v t then untaggedForm (recvPacket stack frame)
            else taggedForm v (recvPacket stack frame)).bytes t] := by
  have h := live_inv belongs hs hlive
  have hing := hin.ingress h hlegal.1
  have hr := h.core.ready hing.valid
  have heq : (switchMachine belongs).step s (.packet port stack frame malloc) = _ :=
    hin.handle h hlegal.1 hlegal.2.2.2
  rw [heq]
  unfold switchList
  cases target (learnedHash malloc v port (recvPacket stack frame) s) v (recvPacket stack frame) with
  | none =>
    exact ⟨_, rfl, nodup_floodList h hing.valid, not_mem_floodList hr, rfl,
      fun tx => mem_floodList hr⟩
  | some t =>
    refine ⟨_, rfl, ?_, ?_, rfl, rfl⟩
    · dsimp only [unicastList]
      split <;> simp
    dsimp only [unicastList]
    split
    · simp
    · next hne => simpa [Switch.tx] using Ne.symm hne

end

theorem egress_ports_learnRun : ∃ out,
    ((switchMachine noGroups).step learnState (.packet 2 (fun _ => 0) (answer 3) none)).sent =
    learnState.sent ++ out ∧ (out.map Tx.port).Nodup ∧ 2 ∉ out.map Tx.port ∧ out ≠ [] := by
  obtain ⟨pt, hin⟩ : ∃ pt, LetIn learnState 2 (recvPacket (fun _ => 0) (answer 3)) 0 pt :=
    exists_letIn (by decide +kernel) (by decide +kernel) (by decide +kernel) (by decide +kernel)
  obtain ⟨out, hsent, hnodup, hback, -, -⟩ := egress_ports noGroups learnState_reach
    (by decide +kernel) (answer_legal 3) hin
  refine ⟨out, hsent, hnodup, hback, ?_⟩
  rintro rfl
  have hlen := congrArg length hsent
  revert hlen
  decide +kernel

/-! ## Egress frames -/

section

variable {free quiet : Prop} {s : Switch} {port v : Nat} {p : Packet} {pt : Port}
  {malloc : Option Nat}

lemma switchList_packet (h : SwitchInv free quiet s) (hv : s.valid v = true) {t : HashTable} {tx : Tx}
    (htx : tx ∈ switchList t v port p s) :
    tx.packet = (if s.untagged v tx.port then untaggedForm p else taggedForm v p).bytes := by
  unfold switchList at htx
  split at htx
  · have hcell := fun q => h.core.cells v q (h.core.ne_noVlan hv)
    obtain ⟨q, -, ⟨hq, rfl⟩ | ⟨hq, rfl⟩⟩ := (mem_floodList (h.core.ready hv)).mp htx
    · simp [Switch.tx, ((hcell q).bctag hq).2.2]
    · simp [Switch.tx, ((hcell q).bcuntag hq).2]
  unfold unicastList at htx
  split at htx
  · exact absurd htx (by simp)
  rw [mem_singleton] at htx
  rw [htx]
  rfl

variable {stack : Mem} {frame : List UInt8}

lemma LetIn.frameVlan (h : LetIn s port (recvPacket stack frame) v pt) (hlen : ethHeaderSize ≤ frame.length)
    (ht : frameTagged frame = true) (h16 : 16 ≤ frame.length) : Vde.frameVlan frame = v := by
  have hv := h.vlan
  unfold ingressVlan at hv
  rw [recvPacket_isTagged hlen, ht, if_pos rfl] at hv
  split at hv
  · rw [← recvPacket_tagVlan h16]
    exact Option.some.inj hv
  · exact absurd hv (by simp)

lemma LetIn.carries (h : LetIn s port (recvPacket stack frame) v pt) (hs : SwitchInv free quiet s)
    (hv : s.valid v = true) (hlen : ethHeaderSize ≤ frame.length) {t : HashTable} {tx : Tx}
    (htx : tx ∈ switchList t v port (recvPacket stack frame) s) : Carries (s.untagged v tx.port) v frame tx.packet ↔
    ¬(frameTagged frame = true ∧ frame.length < 18 ∧ s.untagged v tx.port = true) := by
  have hpacket := switchList_packet hs hv htx
  constructor
  · rintro hc ⟨ht, hlt, hu⟩
    have h14 := hc.length
    rw [hpacket, hu, if_pos rfl, runt_bytes ht hlen] at h14
    unfold ethHeaderSize at h14
    omega
  intro hrunt
  have hlt := hs.core.vlans.lt v hv
  unfold numOfVlan at hlt
  rw [hpacket, egress_bytes hlen hrunt]
  exact carries_egressFrame (by omega) hlen (h.frameVlan hlen) hrunt

/-- Frames are forwarded intact, with or without a tag, unless they end before the tag that they
announce and leave on a port that is untagged in their VLAN; and the two rewritings are inverse to
each other. -/
theorem egress_frames (belongs : BitVec 32 → BitVec 32 → Bool)
    (hs : (switchMachine belongs).Reach SwitchStart s) (hlive : s.trap = false)
    (hhub : s.hub = false) (hlegal : (SwitchEvent.packet port stack frame malloc).Legal s)
    (hdata : (isBpdu (recvPacket stack frame) && s.fstp) = false) :
    (∃ out, ((switchMachine belongs).step s (.packet port stack frame malloc)).sent = s.sent ++ out ∧
        ∀ tx ∈ out, ∃ v pt, LetIn s port (recvPacket stack frame) v pt ∧
          (Carries (s.untagged v tx.port) v frame tx.packet ↔
            ¬(frameTagged frame = true ∧ frame.length < 18 ∧ s.untagged v tx.port = true))) ∧
      ∀ (v : Nat) (q : Packet), 4 ≤ q.off →
        (tag2untag (untag2tag v q)).off = q.off ∧ (tag2untag (untag2tag v q)).len = q.len ∧
          ∀ i, q.off ≤ i → (tag2untag (untag2tag v q)).mem i = q.mem i := by
  have h := live_inv belongs hs hlive
  refine ⟨?_, fun v q hq => tag2untag_untag2tag hq⟩
  by_cases hin : ∃ v pt, LetIn s port (recvPacket stack frame) v pt
  · obtain ⟨v, pt, hin⟩ := hin
    have hing := hin.ingress h hlegal.1
    have heq : (switchMachine belongs).step s (.packet port stack frame malloc) = _ :=
      hin.handle h hlegal.1 hlegal.2.2.2
    rw [heq]
    exact ⟨_, rfl, fun tx htx => ⟨v, pt, hin, hin.carries h hing.valid hlegal.2.1 htx⟩⟩
  have heq : (switchMachine belongs).step s (.packet port stack frame malloc) = s :=
    handle_dropped hhub hdata hlegal.1 (fun v pt hletin => hin ⟨v, pt, hletin⟩)
  rw [heq]
  exact ⟨[], (append_nil _).symm, nofun⟩

end

def taggedAnswer : List UInt8 := [2, 0, 0, 0, 0, 1, 2, 0, 0, 0, 0, 2, 0x81, 0x00, 0, 0, 0x08, 0x00]

/-- The tag is taken off the frame. -/
theorem egress_frames_learnRun : ∃ tx v,
    ((switchMachine noGroups).step learnState (.packet 2 (fun _ => 0) taggedAnswer none)).sent =
    learnState.sent ++ [tx] ∧ Carries (learnState.untagged v tx.port) v taggedAnswer tx.packet := by
  obtain ⟨⟨out, hsent, hout⟩, -⟩ := egress_frames noGroups learnState_reach (by decide +kernel)
    (by decide +kernel) (show (SwitchEvent.packet 2 (fun _ => 0) taggedAnswer none).Legal learnState from
      ⟨by decide +kernel, by decide, by decide, nofun⟩) (by decide +kernel)
  have hlen := congrArg length hsent
  have hone : out.length = 1 := by
    rw [length_append] at hlen
    exact Nat.add_left_cancel (hlen.symm.trans (by decide +kernel))
  obtain ⟨tx, rfl⟩ := length_eq_one_iff.mp hone
  obtain ⟨v, pt, -, hiff⟩ := hout tx (mem_singleton_self tx)
  exact ⟨tx, v, hsent, hiff.mpr (fun h => absurd h.2.1 (by decide))⟩

/-- A frame that ends with the protocol field which announces its tag. -/
def runtFrame : List UInt8 :=
  [0xff, 0xff, 0xff, 0xff, 0xff, 0xff, 2, 0, 0, 0, 0, 1, 0x81, 0x00]

/-- The frame leaves without its last four bytes, which are not a tag. -/
theorem runtFrame_cut : (switchMachine noGroups).Reach SwitchStart learnState ∧ learnState.trap = false ∧
    learnState.hub = false ∧ (SwitchEvent.packet 1 (fun _ => 0) runtFrame none).Legal learnState ∧
    isBpdu (recvPacket (fun _ => 0) runtFrame) = false ∧ ∃ tx,
    ((switchMachine noGroups).step learnState (.packet 1 (fun _ => 0) runtFrame none)).sent =
    learnState.sent ++ [tx] ∧ ∀ untagged v, ¬Carries untagged v runtFrame tx.packet := by
  refine ⟨learnState_reach, by decide +kernel, by decide +kernel,
    ⟨by decide +kernel, by decide, by decide, nofun⟩, by decide +kernel,
    ⟨2, [⟨2, 11, 11⟩], [0xff, 0xff, 0xff, 0xff, 0xff, 0xff, 2, 0, 0, 0]⟩, by decide +kernel, ?_⟩
  intro untagged v h
  exact absurd h.length (by decide)

end Vde
