import Vde.Proofs.EndpointLists
import Vde.Proofs.PacketInvariant

/-!
# The users of the ports

Besides `setup_ep` no event changes the user of a port that stays active, and a port that becomes inactive gets
the user -1.
-/

namespace Vde

def KeepsUsers (s s' : Switch) : Prop :=
  ∀ p port', s'.portv p = some port' →
    (∃ port, s.portv p = some port ∧ (port'.ep = [] ↔ port.ep = []) ∧ port'.curuser = port.curuser) ∨
      (port'.ep = [] ∧ port'.curuser = noId)

section

variable {s s' s'' : Switch}

lemma KeepsUsers.of_portv (h : s'.portv = s.portv) : KeepsUsers s s' := by
  intro p port' hp
  rw [h] at hp
  exact .inl ⟨port', hp, Iff.rfl, rfl⟩

lemma KeepsUsers.refl (s : Switch) : KeepsUsers s s := .of_portv rfl

lemma KeepsUsers.trans (h : KeepsUsers s s') (h' : KeepsUsers s' s'') : KeepsUsers s s'' := by
  intro p port'' hp
  cases h' p port'' hp with
  | inr hreset => exact .inr hreset
  | inl hsame =>
    obtain ⟨port', hp', hep', huser'⟩ := hsame
    cases h p port' hp' with
    | inr hreset => exact .inr ⟨hep'.mpr hreset.1, huser'.trans hreset.2⟩
    | inl hsame =>
      obtain ⟨port, hp, hep, huser⟩ := hsame
      exact .inl ⟨port, hp, hep'.trans hep, huser'.trans huser⟩

lemma KeepsUsers.ite {b : Prop} [Decidable b] (h : KeepsUsers s s') (h' : KeepsUsers s s'') :
    KeepsUsers s (if b then s' else s'') := by
  split
  · exact h
  · exact h'

lemma KeepsUsers.setPort {i : Nat} {port port' : Port} (hport : s.portv i = some port)
    (hep : port'.ep = [] ↔ port.ep = []) (huser : port'.curuser = port.curuser) :
    KeepsUsers s (s.setPort i (some port')) := by
  intro p port'' hp
  by_cases hpi : p = i
  · subst hpi
    have heq : port' = port'' := by simpa [Switch.setPort] using hp
    rw [← heq]
    exact .inl ⟨port, hport, hep, huser⟩
  have hp' : s.portv p = some port'' := by simpa [Switch.setPort, hpi] using hp
  exact .inl ⟨port'', hp', Iff.rfl, rfl⟩

lemma KeepsUsers.reset {i : Nat} {port' : Port} (hep : port'.ep = []) (huser : port'.curuser = noId) :
    KeepsUsers s (s.setPort i (some port')) := by
  intro p port'' hp
  by_cases hpi : p = i
  · subst hpi
    have heq : port' = port'' := by simpa [Switch.setPort] using hp
    rw [← heq]
    exact .inr ⟨hep, huser⟩
  have hp' : s.portv p = some port'' := by simpa [Switch.setPort, hpi] using hp
  exact .inl ⟨port'', hp', Iff.rfl, rfl⟩

lemma KeepsUsers.drop (i : Nat) : KeepsUsers s (s.setPort i none) := by
  intro p port' hp
  by_cases hpi : p = i
  · subst hpi
    simp [Switch.setPort] at hp
  have hp' : s.portv p = some port' := by simpa [Switch.setPort, hpi] using hp
  exact .inl ⟨port', hp', Iff.rfl, rfl⟩

lemma usersFrame : SwitchFrame KeepsUsers where
  refl := .refl
  trans := .trans
  tabs _ _ := .of_portv rfl
  hash _ _ := .of_portv rfl
  sent _ _ := .of_portv rfl
  validvlan _ _ := .of_portv rfl
  crash _ := .of_portv rfl
  reset _ _ _ := .of_portv rfl
  stamp _ _ _ _ _ _ := .of_portv rfl
  forget _ _ := .of_portv rfl
  globals _ _ _ _ _ _ _ := .of_portv rfl

/-! ## Packets and timers -/

lemma keepsUsers_setFst (v : Nat) (f : Vlst) (s : Switch) : KeepsUsers s (s.setFst v f) := .of_portv rfl

lemma keepsUsers_fastprotocol (v r : Nat) (s : Switch) : KeepsUsers s (fastprotocol v r s) := by
  unfold fastprotocol
  dsimp only
  have hblock (port : Nat) (s : Switch) : KeepsUsers s (if designated v r port s then
      fstSendbpdu v port 0 0 0 ((portSetStatus port v .discarding s).set .backup v port) else s) := by
    split
    · exact ((usersFrame.status port v .discarding s).trans (usersFrame.set .backup v port _)).trans
        (usersFrame.sendbpdu v port 0 0 0 _)
    · exact .refl s
  have hloops := (usersFrame.forPorts .untag v hblock s).trans (usersFrame.forPorts .tagged v hblock _)
  exact (hloops.trans (usersFrame.unblock v r _)).trans (usersFrame.sendbpdu v r 1 0 0 _)

lemma keepsUsers_newRoot (port v : Nat) (f : Vlst) (p : Bpdu) (s : Switch) : KeepsUsers s (newRoot port v f p s) := by
  unfold newRoot
  dsimp only
  have hreset := (usersFrame.newvlan v s).ite (b := memcmp f.root (s.outSrc ++ [0x00, 0x27]) ≤ 0) (.refl s)
  generalize (if memcmp f.root (s.outSrc ++ [0x00, 0x27]) ≤ 0 then fstnewvlan v s else s) = s₁ at hreset
  split
  · exact hreset.trans (usersFrame.crash _)
  exact ((hreset.trans (keepsUsers_setFst v _ _)).trans (keepsUsers_fastprotocol v port _)).trans
    (usersFrame.topologyChange v port _)

lemma keepsUsers_goodBpdu (port v : Nat) (p : Bpdu) (s : Switch) : KeepsUsers s (goodBpdu port v p s) := by
  unfold goodBpdu
  dsimp only
  have hfirst := (usersFrame.topologyChange v port s).ite (b := p.flags &&& 0x01 ≠ 0) (.refl s)
  generalize (if p.flags &&& 0x01 ≠ 0 then topologyChange v port s else s) = s₁ at hfirst
  refine hfirst.trans ?_
  split
  · split
    · exact keepsUsers_setFst v _ s₁
    split
    · exact keepsUsers_newRoot port v _ _ s₁
    split
    · exact usersFrame.longerPath port v _ s₁
    · exact usersFrame.sendbpdu v port 0 0 0 s₁
  · exact usersFrame.crash s₁

lemma keepsUsers_bpdu (port : Nat) (mem : Mem) (off len v : Nat) (tagged : Bool) (s : Switch) :
    KeepsUsers s (fstInBpdu port mem off len v tagged s) := by
  unfold fstInBpdu
  split
  · exact usersFrame.crash s
  split
  · exact .refl s
  have hset := usersFrame.set (.rcvhist s.rcvhistindex) v port s
  exact hset.ite (hset.trans (keepsUsers_goodBpdu port v _ _))

lemma keepsUsers_flood (v port : Nat) (p : Packet) (s : Switch) : KeepsUsers s (flood v port p s) := by
  have hloop (t : Tab) (packet : List UInt8) (s : Switch) : KeepsUsers s (floodPorts t v port packet s) :=
    usersFrame.forPorts t v (fun i s => (usersFrame.send i packet s).ite (.refl s)) s
  unfold flood
  split
  · exact (hloop .bctag _ s).trans (hloop .bcuntag _ _)
  · exact (hloop .bcuntag _ s).trans (hloop .bctag _ _)

lemma keepsUsers_switchPacket (malloc : Option Nat) (v port : Nat) (p : Packet) (s : Switch) :
    KeepsUsers s (switchPacket malloc v port p s) := by
  unfold switchPacket
  dsimp only
  have hlearn : KeepsUsers s (if isBroadcast p.mem (p.off + 6) then s
      else { s with hash := (findInHashUpdate malloc s.now (macAt p.mem (p.off + 6)) v port s.hash).2 }) :=
    (KeepsUsers.refl s).ite (usersFrame.hash s _)
  generalize (if isBroadcast p.mem (p.off + 6) then s
      else { s with hash := (findInHashUpdate malloc s.now (macAt p.mem (p.off + 6)) v port s.hash).2 }) = s₁ at hlearn
  refine hlearn.trans ?_
  split
  · exact keepsUsers_flood v port p s₁
  split
  · exact keepsUsers_flood v port p s₁
  unfold unicast
  split
  · exact .refl s₁
  split
  · exact usersFrame.crash s₁
  · exact usersFrame.send _ _ s₁

lemma keepsUsers_packet (malloc : Option Nat) (port : Nat) (p : Packet) (s : Switch) :
    KeepsUsers s (handleInPacket malloc port p s) := by
  unfold handleInPacket
  split
  · obtain ⟨l, hl⟩ := hubPacket_eq port p s
    rw [hl]
    exact .of_portv rfl
  split
  · exact usersFrame.crash s
  split
  · exact .refl s
  split
  · exact keepsUsers_bpdu port p.mem p.off _ _ _ s
  split
  · exact .refl s
  · exact keepsUsers_switchPacket malloc _ port p s

/-! ## Commands -/

lemma keepsUsers_alloc (portno : Int) (s : Switch) : KeepsUsers s (allocPort portno s).2 := by
  unfold allocPort
  dsimp only
  split
  · exact .refl s
  split
  · exact .refl s
  have hnew : KeepsUsers s (s.setPort (allocIndex portno s) (some newPort)) := .reset rfl rfl
  exact hnew.trans (usersFrame.set .table 0 _ _)

lemma keepsUsers_reserve (p : Nat) (s : Switch) : KeepsUsers s (reserve p s) := by
  unfold reserve
  split
  · exact usersFrame.crash s
  · next port hport => exact .setPort hport Iff.rfl rfl

lemma keepsUsers_closeEp (portno fdCtl : Int) (s : Switch) : KeepsUsers s (closeEpPortFd portno fdCtl s).2 := by
  unfold closeEpPortFd
  split
  · split
    · exact .refl s
    next port hport =>
    dsimp only
    by_cases hlast : port.ep.eraseP (fun e => e.fdCtl == fdCtl) = []
    · rw [if_pos hlast]
      -- the port is inactive now, or was so before
      have hreset : KeepsUsers s ({ s.setPort portno.toNat (some { port with
          ep := port.ep.eraseP (fun e => e.fdCtl == fdCtl) }) with
            hash := hashDeletePort portno.toNat s.hash }.setPort portno.toNat (some { port with
          ep := port.ep.eraseP (fun e => e.fdCtl == fdCtl), curuser := noId })) := by
        intro p port' hp
        have hsame : ({ s.setPort portno.toNat (some { port with
            ep := port.ep.eraseP (fun e => e.fdCtl == fdCtl) }) with
              hash := hashDeletePort portno.toNat s.hash }.setPort portno.toNat (some { port with
            ep := port.ep.eraseP (fun e => e.fdCtl == fdCtl), curuser := noId })).portv p =
            (s.setPort portno.toNat (some { port with
              ep := port.ep.eraseP (fun e => e.fdCtl == fdCtl), curuser := noId })).portv p := by
          simp [Switch.setPort]
        rw [hsame] at hp
        exact KeepsUsers.reset (i := portno.toNat) hlast rfl p port' hp
      exact hreset.trans (usersFrame.leaveVlans portno.toNat port.vlanuntag _)
    rw [if_neg hlast]
    apply KeepsUsers.setPort hport
    · refine iff_of_false hlast ?_
      intro hnil
      exact hlast (by rw [hnil]; rfl)
    · rfl
  · exact .refl s

lemma keepsUsers_free (p : Nat) (s : Switch) : KeepsUsers s (freePort p s) := by
  unfold freePort
  split
  · split
    · exact .refl s
    split
    · exact (KeepsUsers.drop p).trans (usersFrame.forVlans (fun v s => usersFrame.clr .table v p s) _)
    · exact .refl s
  · exact .refl s

lemma keepsUsers_portsetvlan (arg : Option (Int × Int)) (s : Switch) : KeepsUsers s (portsetvlan arg s).2 := by
  cases arg with
  | none => exact .refl s
  | some arg =>
    obtain ⟨port, vlan⟩ := arg
    unfold portsetvlan
    dsimp only
    split
    · exact .refl s
    split
    · exact .refl s
    next p hp =>
    split
    · exact .refl s
    have hfirst : KeepsUsers s (s.setPort port.toNat (some { p with vlanuntag := noVlan })) :=
      .setPort hp Iff.rfl rfl
    refine hfirst.trans ?_
    intro q port' hq
    by_cases hqi : q = port.toNat
    · subst hqi
      have heq : { p with vlanuntag := vlan.toNat } = port' := by simpa [Switch.setPort] using hq
      rw [← heq]
      exact .inl ⟨{ p with vlanuntag := noVlan }, by simp [Switch.setPort], Iff.rfl, rfl⟩
    simp only [Switch.setPort, Function.update_of_ne hqi, (portsFrame.move _ _ _ _).portv] at hq
    exact .inl ⟨port', by simpa [Switch.setPort, hqi] using hq, Iff.rfl, rfl⟩

lemma keepsUsers_numports (val : Int) (s : Switch) : KeepsUsers s (portsetnumports val s).2 := by
  unfold portsetnumports
  split
  · dsimp only
    split
    · exact .refl s
    intro p port' hp
    have hold : s.portv p = some port' := by
      have hp : (if s.numports ≤ p ∧ p < val.toNat then none else s.portv p) = some port' := hp
      split at hp
      · cases hp
      · exact hp
    exact .inl ⟨port', hold, Iff.rfl, rfl⟩
  · exact .refl s

lemma keepsUsers_apply (belongs : BitVec 32 → BitVec 32 → Bool) (s : Switch) {e : SwitchEvent}
    (he : ∀ portno fdCtl fdData user, e ≠ .setupEp portno fdCtl fdData user) : KeepsUsers s (e.apply belongs s) := by
  cases e with
  | packet port stack frame malloc => exact keepsUsers_packet malloc port _ s
  | hello => exact usersFrame.hello s
  | setupEp portno fdCtl fdData user => exact absurd rfl (he _ _ _ _)
  | closeEp portno fdCtl => exact keepsUsers_closeEp portno fdCtl s
  | portcreate val => exact usersFrame.portcreate val (keepsUsers_alloc val s) keepsUsers_reserve
  | portcreateauto => exact usersFrame.allocReserve 0 (keepsUsers_alloc 0 s) keepsUsers_reserve
  | portremove val =>
    apply usersFrame.withPort
    intro i port _
    split
    · exact keepsUsers_free i s
    · exact .refl s
  | portsetnumports val => exact keepsUsers_numports val s
  | portallocatable arg =>
    cases arg with
    | none => exact .refl s
    | some arg => exact usersFrame.withPort _ (fun i port hport => .setPort hport Iff.rfl rfl)
  | portsetuser arg =>
    cases arg with
    | none => exact .refl s
    | some arg =>
      apply usersFrame.withPort
      intro i port hport
      split
      · exact .refl s
      · exact .setPort hport Iff.rfl rfl
  | portsetgroup arg =>
    cases arg with
    | none => exact .refl s
    | some arg =>
      apply usersFrame.withPort
      intro i port hport
      split
      · exact .refl s
      · exact .setPort hport Iff.rfl rfl
  | portsethub val => exact usersFrame.sethub val s
  | portsetvlan arg => exact keepsUsers_portsetvlan arg s
  | vlancreate vlan => exact usersFrame.vlancreate vlan s
  | vlanremove vlan => exact usersFrame.vlanremove vlan s
  | vlanaddport arg => exact usersFrame.vlanaddport arg s
  | vlandelport arg => exact usersFrame.vlandelport arg s
  | fstpsetonoff val => exact usersFrame.onoff val s
  | fstsetbonus arg => exact usersFrame.setbonus arg s
  | fstsetedge arg => exact usersFrame.setedge arg s
  | _ => exact .of_portv rfl

end

end Vde
