import Vde.Proofs.PacketInvariant

/-!
# The invariant over whole runs

Every event keeps the invariant, with the two exceptions that the commands have shown: an event
that creates a port while VLAN 0 does not exist ends the process, and an event that makes a blocked
port an active member of a VLAN leaves it blocked.
-/

namespace Vde

section

variable {free quiet : Prop} {s : Switch}

/-! ## The start -/

lemma empty_inv (h : HashOk s.hash) (hportv : s.portv = fun _ => none) (hvalid : s.validvlan = bacAlloc)
    (htabs : s.tabs = fun _ _ => none) (hfst : s.fsttab = fun _ => none) (htrap : s.trap = false)
    (hhash : ∀ key, lookup s.hash key = none) : SwitchInv free quiet s := by
  have hv : ∀ v, s.valid v = false := by
    intro v
    rw [Switch.valid, hvalid]
    exact baCheck_alloc v
  refine ⟨BaseInv.core ⟨?_, ?_, ?_, ?_, ?_, ?_, h, htrap⟩ ?_, ?_⟩
  · rw [hvalid]
    exact bacAlloc_wf _
  · intro v hvv
    rw [hv] at hvv
    cases hvv
  · intro v hvv
    rw [hv] at hvv
    cases hvv
  · intro v _
    rw [htabs, hfst]
    exact ⟨fun _ => rfl, rfl⟩
  · intro p hp
    rw [hportv] at hp
    cases hp
  · intro p port hp
    rw [hportv] at hp
    exact absurd hp (by simp)
  · intro v p _
    have hcell : s.cell v p = fun _ => false := by
      funext t
      simp [Switch.cell, Switch.check, htabs]
    unfold Switch.CellOk
    rw [hcell]
    constructor <;> simp [Switch.active, Switch.untagged, hportv]
  · intro key e hl
    rw [hhash] at hl
    exact absurd hl (by simp)

lemma portInit_inv (numports : Nat) (switchmac : List UInt8) (priority : Nat) (hub fstp : Bool) (hashSize : Nat)
    (now : Int) : SwitchInv free quiet (portInit numports switchmac priority hub fstp (hashInit hashSize) now) := by
  have hok : HashOk (hashInit hashSize) := ⟨_, hashWF_empty rfl⟩
  have hnone : ∀ key, lookup (hashInit hashSize) key = none := lookup_empty rfl
  unfold portInit
  apply vlancreateNocheck_inv
  · cases fstp with
    | true => exact empty_inv hok rfl rfl rfl rfl rfl hnone
    | false => exact empty_inv hok rfl rfl rfl rfl rfl hnone
  · unfold numOfVlan
    omega
  · cases fstp <;> exact baCheck_alloc 0

lemma SwitchStart.inv (h : SwitchStart s) : SwitchInv free quiet s := by
  obtain ⟨numports, switchmac, priority, hub, fstp, hashSize, now, -, -, -, -, -, rfl⟩ := h
  exact portInit_inv numports switchmac priority hub fstp hashSize now

end

/-! ## One event -/

def SwitchEvent.Orphans (s : Switch) : SwitchEvent → Prop
  | setupEp portno _ _ _ => allocates portno s = true ∧ s.valid 0 = false
  | portcreate val =>
    0 ≤ val ∧ val < s.numports ∧ s.portv val.toNat = none ∧ allocates val s = true ∧ s.valid 0 = false
  | portcreateauto => allocates 0 s = true ∧ s.valid 0 = false
  | _ => False

def SwitchEvent.Blocks (belongs : BitVec 32 → BitVec 32 → Bool) (s : Switch) : SwitchEvent → Prop
  | setupEp portno _ _ user => setupTrap belongs portno user s
  | portsetvlan (some (port, vlan)) => moveTrap port vlan s
  | vlanaddport (some (vlan, port)) => addTrap vlan port s
  | fstsetedge (some (vlan, port, val)) => val = 0 ∧ edgeTrap vlan port s
  | _ => False

section

variable {free quiet : Prop} {s : Switch} (belongs : BitVec 32 → BitVec 32 → Bool)

lemma hashLe_empty {t t' : HashTable} (h : t'.heap.heads = fun _ => none) : HashLe t t' := by
  intro _
  refine ⟨⟨_, hashWF_empty h⟩, fun key e he => ?_⟩
  rw [lookup_empty h] at he
  exact absurd he (by simp)

lemma hashLe_params {t t' : HashTable} (hbits : t'.hashBits = t.hashBits) (hheap : t'.heap = t.heap)
    (hallocs : t'.allocs = t.allocs) : HashLe t t' := by
  obtain ⟨bits', heap', allocs', minper', expire'⟩ := t'
  obtain ⟨bits, heap, allocs, minper, expire⟩ := t
  dsimp only at hbits hheap hallocs
  subst hbits hheap hallocs
  rintro ⟨chain, h⟩
  exact ⟨⟨chain, ⟨h.1, h.2, h.3, h.4⟩⟩, fun key e he => he⟩

lemma apply_inv (h : SwitchInv free quiet s) {e : SwitchEvent} (he : e.Legal s)
    (hq : quiet → ∀ port stack frame malloc, e ≠ .packet port stack frame malloc) (horphan : ¬e.Orphans s)
    (hfree : free → ¬e.Blocks belongs s) : SwitchInv free quiet (e.apply belongs s) := by
  cases e with
  | packet port stack frame malloc =>
    exact handleInPacket_inv h (fun hquiet => absurd rfl (hq hquiet _ _ _ _)) he.1 he.2.2.2 _
  | tick => exact h.same ⟨rfl, rfl, rfl, rfl, rfl, rfl⟩ rfl
  | hello => exact fstHello_inv h
  | hashGc => exact h.hashLe (hashLe_forAllHash _ _)
  | setupEp portno fdCtl fdData user =>
    apply setupEp_inv belongs h portno fdCtl fdData user _ hfree
    intro hal
    by_contra h0
    exact horphan ⟨hal, by simpa using h0⟩
  | closeEp portno fdCtl => exact closeEpPortFd_inv h portno fdCtl
  | portcreate val =>
    apply portcreate_inv h
    intro hpos hlt hnone hal
    by_contra h0
    exact horphan ⟨hpos, hlt, hnone, hal, by simpa using h0⟩
  | portcreateauto =>
    apply portcreateauto_inv h
    intro hal
    by_contra h0
    exact horphan ⟨hal, by simpa using h0⟩
  | portremove val => exact portremove_inv h val
  | portsetnumports val => exact portsetnumports_inv h val
  | portallocatable arg => exact portallocatable_inv h arg
  | portsetuser arg => exact portsetuser_inv h arg
  | portsetgroup arg => exact portsetgroup_inv h arg
  | portsethub val => exact portsethub_inv h val
  | portsetvlan arg =>
    apply portsetvlan_inv h
    rintro hfr port vlan rfl
    exact hfree hfr
  | vlancreate vlan => exact vlancreate_inv h vlan
  | vlanremove vlan => exact vlanremove_inv h vlan
  | vlanaddport arg =>
    apply vlanaddport_inv h
    rintro hfr vlan port rfl
    exact hfree hfr
  | vlandelport arg => exact vlandelport_inv h arg
  | fstpsetonoff val => exact fstpsetonoff_inv h val
  | fstsetbonus arg => exact fstsetbonus_inv h arg
  | fstsetedge arg =>
    apply fstsetedge_inv h
    rintro hfr vlan port rfl htrap
    exact hfree hfr ⟨rfl, htrap⟩
  | hashResize hashSize =>
    apply h.hashLe
    unfold hashResize
    split
    · exact hashLe_empty rfl
    · exact HashLe.refl _
  | hashSetMinper e => exact h.hashLe (hashLe_params rfl rfl rfl)
  | hashSetGcExpire e => exact h.hashLe (hashLe_params rfl rfl rfl)

lemma apply_trap (h : SwitchInv free quiet s) {e : SwitchEvent} (horphan : e.Orphans s) :
    (e.apply belongs s).trap = true := by
  have hnew : ∀ portno, allocates portno s = true → s.valid 0 = false →
      ∃ i s', allocPort portno s = (some i, s') ∧ s'.trap = true := by
    intro portno hal h0
    have htrap := allocPort_trap h hal h0
    unfold allocates at hal
    rw [Bool.and_eq_true, decide_eq_true_eq, Option.isNone_iff_eq_none] at hal
    have heq := allocPort_new (by omega) hal.2
    rw [heq] at htrap
    exact ⟨_, _, heq, htrap⟩
  cases e with
  | setupEp portno fdCtl fdData user =>
    obtain ⟨i, s', heq, htrap⟩ := hnew portno horphan.1 horphan.2
    change (setupEp belongs portno fdCtl fdData user s).2.trap = true
    unfold setupEp
    simp only [heq, htrap, if_true]
  | portcreate val =>
    obtain ⟨hpos, hlt, hnone, hal, h0⟩ := horphan
    obtain ⟨i, s', heq, htrap⟩ := hnew val hal h0
    change (portcreate val s).2.trap = true
    unfold portcreate
    rw [if_neg (by omega), if_neg (by simp [hnone])]
    simp only [heq, htrap, if_true]
  | portcreateauto =>
    obtain ⟨i, s', heq, htrap⟩ := hnew 0 horphan.1 horphan.2
    change (portcreateauto s).2.trap = true
    unfold portcreateauto
    simp only [heq, htrap, if_true]
  | _ => exact absurd horphan (by simp [SwitchEvent.Orphans])

lemma live_inv {s : Switch} (h : (switchMachine belongs).Reach SwitchStart s)
    (hlive : s.trap = false) : SwitchInv False False s := by
  have hinv : s.trap = true ∨ SwitchInv False False s := by
    apply h.invariant (fun s => s.trap = true ∨ SwitchInv False False s)
    · exact fun s hs => .inr hs.inv
    rintro s e hs ⟨htrap, hlegal⟩
    have hs' : SwitchInv False False s := hs.resolve_left (by simp [htrap])
    by_cases horphan : e.Orphans s
    · exact .inl (apply_trap belongs hs' horphan)
    · exact .inr (apply_inv belongs hs' hlegal False.elim horphan False.elim)
  exact hinv.resolve_left (by simp [hlive])

end

def noGroups : BitVec 32 → BitVec 32 → Bool := fun _ _ => false

def freshSwitch (fstp : Bool) : Switch :=
  portInit 32 [0x00, 0xff, 0x10, 0x20, 0x30, 0x40] 0x8000 false fstp (hashInit 128) 0

lemma freshSwitch_start (fstp : Bool) : SwitchStart (freshSwitch fstp) :=
  ⟨32, [0x00, 0xff, 0x10, 0x20, 0x30, 0x40], 0x8000, false, fstp, 128, 0, by decide, rfl, by decide,
    rfl, by decide, rfl⟩

def bpduFrame (prio port flags : UInt8) : List UInt8 :=
  bpduaddr ++ [0x00, 0xff, 0x50, 0x60, 0x70, 0x80, 0x00, 0x27, 0x42, 0x42, 0x03, 0, 0, 2, 2, flags,
    prio, 0, 0x00, 0xff, 0x50, 0x60, 0x70, 0x80, 0, 0, 0, 0, prio, 0, 0x00, 0xff, 0x50, 0x60, 0x70, 0x80,
    0x80, port, 0, 0, 40, 0, 4, 0, 0, 0, 0]

end Vde
