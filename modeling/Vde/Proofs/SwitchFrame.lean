import Vde.Port

/-!
# What the work on the VLANs leaves alone

`setup_ep`, `close_ep_port_fd`, the hello timer and the commands about VLANs work through the bit arrays,
the hash table, the packets sent and the records of the spanning trees. A relation that allows these
changes one by one allows the functions made of them.
-/

namespace Vde

/-- A preorder on the states of the switch that allows the changes of the VLANs. -/
structure SwitchFrame (R : Switch → Switch → Prop) : Prop where
  refl : ∀ s, R s s
  trans : ∀ {s s' s''}, R s s' → R s' s'' → R s s''
  tabs : ∀ (s : Switch) tabs, R s { s with tabs := tabs }
  hash : ∀ (s : Switch) hash, R s { s with hash := hash }
  sent : ∀ (s : Switch) sent, R s { s with sent := sent }
  validvlan : ∀ (s : Switch) validvlan, R s { s with validvlan := validvlan }
  crash : ∀ s : Switch, R s s.crash
  reset : ∀ (s : Switch) v (f : Vlst), R s (s.setFst v (f.reset s.myid))
  stamp : ∀ (s : Switch) v f f', s.fsttab v = some f → f'.root = f.root → R s (s.setFst v f')
  forget : ∀ (s : Switch) v, R s { s with fsttab := Function.update s.fsttab v none }
  globals : ∀ (s : Switch) fstp hub hellocounter rcvhistindex outSrc outBridge, R s { s with
    fstp := fstp
    hub := hub
    hellocounter := hellocounter
    rcvhistindex := rcvhistindex
    outSrc := outSrc
    outBridge := outBridge }

variable {s : Switch}

namespace SwitchFrame

variable {R : Switch → Switch → Prop} (hR : SwitchFrame R)

include hR

lemma store (t : Tab) (v : Nat) (x : Option BitArray) (s : Switch) : R s (s.store t v x) := hR.tabs s _

lemma set (t : Tab) (v p : Nat) (s : Switch) : R s (s.set t v p) := by
  unfold Switch.set
  split
  · exact hR.crash s
  · exact hR.store t v _ s

lemma clr (t : Tab) (v p : Nat) (s : Switch) : R s (s.clr t v p) := by
  unfold Switch.clr
  split
  · exact hR.crash s
  · exact hR.store t v _ s

lemma forPorts (t : Tab) (v : Nat) {body : Nat → Switch → Switch} (hbody : ∀ p s, R s (body p s)) (s : Switch) :
    R s (s.forPorts t v body) := by
  unfold Switch.forPorts
  split
  · exact hR.crash s
  · exact baForall_keeps (R s) (fun s' p h => hR.trans h (hbody p s')) _ (hR.refl s)

lemma forVlans {body : Nat → Switch → Switch} (hbody : ∀ v s, R s (body v s)) (s : Switch) :
    R s (s.forVlans body) :=
  bacForall_keeps (R s) (fun s' v h => hR.trans h (hbody v s')) _ (hR.refl s)

lemma send (p : Nat) (packet : List UInt8) (s : Switch) : R s (sendPacketPort p packet s) := by
  unfold sendPacketPort
  split
  · exact hR.crash s
  · exact hR.sent s _

lemma status (p v : Nat) (status : PortStatus) (s : Switch) : R s (portSetStatus p v status s) := by
  unfold portSetStatus
  split
  · cases status with
    | discarding => exact hR.trans (hR.trans (hR.set _ v p s) (hR.clr _ v p _)) (hR.clr _ v p _)
    | learning => exact hR.trans (hR.trans (hR.clr _ v p s) (hR.clr _ v p _)) (hR.clr _ v p _)
    | forwarding =>
      have hclr := hR.clr .notlearning v p s
      dsimp only
      split
      · exact hR.trans hclr (hR.crash _)
      split
      · exact hR.trans hclr (hR.set _ v p _)
      · exact hR.trans hclr (hR.set _ v p _)
  · exact hR.refl s

lemma unblock (v p : Nat) (s : Switch) : R s (Vde.unblock v p s) :=
  hR.trans (hR.clr .backup v p s) (hR.status p v .forwarding _)

lemma allocFst (v : Nat) (s : Switch) : R s (s.allocFst v) := by
  have hlinks := hR.trans (hR.trans (hR.store .untag v (some baAlloc) s) (hR.store .tagged v (some baAlloc) _))
    (hR.store .edge v (some baAlloc) _)
  exact hR.trans (hR.trans (hR.trans hlinks (hR.store _ v _ _)) (hR.store _ v _ _)) (hR.store _ v _ _)

lemma newvlan (v : Nat) (s : Switch) : R s (fstnewvlan v s) := by
  have hloop := hR.forPorts .backup v (hR.unblock v)
  have hmyid : (s.allocFst v).myid = s.myid := by simp [Switch.allocFst, Switch.store]
  unfold fstnewvlan
  split
  · have hreset := hR.reset (s.allocFst v) v ⟨[], [], [], [], 0, 0, 0, 0, 0⟩
    rw [hmyid] at hreset
    exact hR.trans (hR.trans (hR.allocFst v s) hreset) (hloop _)
  · exact hR.trans (hR.reset s v _) (hloop _)

lemma sendbpdu (v p agr tc tcack : Nat) (s : Switch) : R s (fstSendbpdu v p agr tc tcack s) := by
  have hsend : ∀ (b : Bool) packet s, R s (if b then sendPacketPort p packet s else s) := by
    intro b packet s
    cases b with
    | true => exact hR.send p packet s
    | false => exact hR.refl s
  unfold fstSendbpdu
  split
  · split
    · exact hR.crash s
    · exact hR.trans (hsend _ _ s) (hsend _ _ _)
  · exact hR.refl s

lemma topologyChange (v gp : Nat) (s : Switch) : R s (Vde.topologyChange v gp s) := by
  have hsend : ∀ port s, R s (if designated v gp port s then fstSendbpdu v port 0 1 0 s else s) := by
    intro port s
    split
    · exact hR.sendbpdu v port 0 1 0 s
    · exact hR.refl s
  unfold Vde.topologyChange
  split
  · exact hR.crash s
  next f hf =>
  have hhash := hR.trans (hR.stamp s v f { f with tctime := s.now } hf rfl) (hR.hash _ (hashDeleteVlan v s.hash))
  exact hR.trans (hR.trans hhash (hR.forPorts .untag v hsend _)) (hR.forPorts .tagged v hsend _)

lemma addport (v p : Nat) (tagged : Bool) (s : Switch) : R s (fstaddport v p tagged s) := by
  have htag : R s (if tagged then (s.set .tagged v p).clr .untag v p
      else (s.set .untag v p).clr .tagged v p) := by
    cases tagged with
    | true => exact hR.trans (hR.set _ v p s) (hR.clr _ v p _)
    | false => exact hR.trans (hR.set _ v p s) (hR.clr _ v p _)
  have hbits := hR.trans (hR.trans htag (hR.clr .backup v p _)) (hR.clr .edge v p _)
  have hhist := hR.trans (hR.trans hbits (hR.clr (.rcvhist false) v p _)) (hR.clr (.rcvhist true) v p _)
  exact hR.trans (hR.trans hhist (hR.sendbpdu v p 0 0 0 _)) (hR.topologyChange v p _)

lemma delport (v p : Nat) (s : Switch) : R s (fstdelport v p s) := by
  have htag := hR.trans (hR.clr .untag v p s) (hR.clr .tagged v p _)
  have hbits := hR.trans (hR.trans htag (hR.clr .backup v p _)) (hR.clr .edge v p _)
  unfold fstdelport
  dsimp only
  split
  · exact hR.trans hbits (hR.crash _)
  split
  · exact hR.trans (hR.trans hbits (hR.newvlan v _)) (hR.topologyChange v p _)
  · exact hR.trans hbits (hR.topologyChange v p _)

lemma activate (p : Nat) (port : Port) (s : Switch) : R s (Vde.activate p port s) := by
  have hloop : ∀ v s, R s (if s.check .table v p then
      fstaddport v p (v != port.vlanuntag) (s.set .bctag v p) else s) := by
    intro v s
    split
    · exact hR.trans (hR.set .bctag v p s) (hR.addport v p _ _)
    · exact hR.refl s
  have hvlans := hR.forVlans hloop s
  unfold Vde.activate
  dsimp only
  split
  · exact hR.trans (hR.trans (hR.trans hvlans (hR.set _ _ p _)) (hR.clr _ _ p _)) (hR.clr _ _ p _)
  · exact hvlans

lemma leaveVlans (p u : Nat) (s : Switch) :
    R s (let s := s.forVlans (fun v s => fstdelport v p (s.clr .bctag v p))
      if u < noVlan then s.clr .bcuntag u p else s) := by
  have hvlans := hR.forVlans (fun v s => hR.trans (hR.clr .bctag v p s) (hR.delport v p _)) s
  dsimp only
  split
  · exact hR.trans hvlans (hR.clr _ _ p _)
  · exact hvlans

lemma create (v : Nat) (s : Switch) : R s (vlancreateNocheck v s) := by
  have hbc := hR.trans (hR.store .table v (some baAlloc) s) (hR.store .bctag v (some baAlloc) _)
  have hall := hR.trans (hR.trans hbc (hR.store .bcuntag v (some baAlloc) _))
    (hR.store .notlearning v (some baAlloc) _)
  exact hR.trans (hR.trans hall (hR.newvlan v _)) (hR.validvlan _ _)

lemma longerPath (p v : Nat) (b : Bpdu) (s : Switch) : R s (Vde.longerPath p v b s) := by
  unfold Vde.longerPath
  split
  · split
    · exact hR.trans (hR.unblock v p s) (hR.topologyChange v p _)
    · exact hR.refl s
  split
  · exact hR.refl s
  · exact hR.trans (hR.trans (hR.set .backup v p s) (hR.status p v .discarding _)) (hR.topologyChange v p _)

/-! ### The hello timer -/

lemma helloVlan (now : Int) (v : Nat) (s : Switch) : R s (fstHelloVlan now v s) := by
  have hsend : ∀ (packet : Nat → Switch → List UInt8) p s,
      R s (if s.check .edge v p then s else sendPacketPort p (packet p s) s) := by
    intro packet p s
    split
    · exact hR.refl s
    · exact hR.send p _ s
  have hreset : ∀ b : Prop, [Decidable b] → R s (if b then fstnewvlan v s else s) := by
    intro b _
    split
    · exact hR.newvlan v s
    · exact hR.refl s
  unfold fstHelloVlan
  split
  · exact hR.crash s
  dsimp only
  split
  · exact hR.trans (hreset _) (hR.crash _)
  · exact hR.trans (hR.trans (hreset _) (hR.forPorts .untag v (hsend _) _)) (hR.forPorts .tagged v (hsend _) _)

lemma updatebackup (index : Bool) (v : Nat) (s : Switch) : R s (fstUpdatebackup index v s) := by
  have hbody : ∀ p s, R s (if fstpActive v p s then s else Vde.unblock v p s) := by
    intro p s
    split
    · exact hR.refl s
    · exact hR.unblock v p s
  exact hR.trans (hR.forPorts .backup v hbody s) (hR.store _ _ _ _)

lemma hello (s : Switch) : R s (fstHello s) := by
  have hcount : R s { s with hellocounter := s.hellocounter + 1 } :=
    hR.globals s s.fstp s.hub (s.hellocounter + 1) s.rcvhistindex s.outSrc s.outBridge
  have hflip : ∀ s : Switch, R s { s with rcvhistindex := !s.rcvhistindex } :=
    fun s => hR.globals s s.fstp s.hub s.hellocounter (!s.rcvhistindex) s.outSrc s.outBridge
  have hsent := hR.trans hcount (hR.forVlans (hR.helloVlan s.now) _)
  unfold fstHello
  dsimp only
  split
  · exact hR.trans (hR.trans hsent (hflip _)) (hR.forVlans (hR.updatebackup _) _)
  · exact hsent

/-! ### Commands -/

lemma stop (s : Switch) : R s (fstpStop s) := by
  have hoff : R s { s with fstp := false } :=
    hR.globals s false s.hub s.hellocounter s.rcvhistindex s.outSrc s.outBridge
  exact hR.trans hoff (hR.forVlans hR.newvlan _)

lemma onoff (val : Int) (s : Switch) : R s (fstpsetonoff val s) := by
  unfold fstpsetonoff
  split
  · exact hR.refl s
  split
  · exact hR.refl s
  split
  · exact hR.globals s true s.hub s.hellocounter s.rcvhistindex s.switchmac s.myid
  · exact hR.stop s

lemma sethub (val : Int) (s : Switch) : R s (portsethub val s) := by
  have hhub : ∀ hub (s : Switch), R s { s with hub := hub } :=
    fun hub s => hR.globals s s.fstp hub s.hellocounter s.rcvhistindex s.outSrc s.outBridge
  unfold portsethub fstpshutdown
  split
  · split
    · exact hR.trans (hR.stop s) (hhub true _)
    · exact hhub true s
  · exact hhub false s

lemma setbonus (arg : Option (Int × Int × Int)) (s : Switch) : R s (fstsetbonus arg s).2 := by
  cases arg with
  | none => exact hR.refl s
  | some arg =>
    unfold fstsetbonus
    dsimp only
    split
    · exact hR.refl s
    split
    · exact hR.refl s
    split
    · exact hR.crash s
    · next f hf => exact hR.stamp s _ f _ hf rfl

lemma setedge (arg : Option (Int × Int × Int)) (s : Switch) : R s (fstsetedge arg s).2 := by
  cases arg with
  | none => exact hR.refl s
  | some arg =>
    unfold fstsetedge
    dsimp only
    split
    · exact hR.refl s
    split
    · exact hR.refl s
    split
    · split
      · exact hR.trans (hR.set .edge _ _ s) (hR.status _ _ .forwarding _)
      · exact hR.set .edge _ _ s
    · exact hR.trans (hR.clr .edge _ _ s) (hR.clr .backup _ _ _)

lemma guarded {b : Prop} [Decidable b] {s' s'' : Switch} (h : R s s') (h' : R s' s'') :
    R s (if b then s'' else s') := by
  split
  · exact hR.trans h h'
  · exact h

lemma move (i : Nat) (p : Port) (v : Nat) (s : Switch) : R s (moveTables i p v s) := by
  have h1 := hR.guarded (b := p.vlanuntag ≠ noVlan) (hR.refl s) (hR.clr .bcuntag p.vlanuntag i s)
  have h2 := hR.guarded (b := v ≠ noVlan) h1 (hR.trans (hR.set .bcuntag v i _) (hR.clr .bctag v i _))
  have h3 := hR.guarded (b := p.vlanuntag ≠ noVlan) h2 (hR.delport p.vlanuntag i _)
  have h4 := hR.guarded (b := p.ep ≠ []) (hR.refl s) (hR.guarded (b := v ≠ noVlan) h3 (hR.addport v i false _))
  have h5 := hR.guarded (b := p.vlanuntag ≠ noVlan) h4 (hR.clr .table p.vlanuntag i _)
  exact hR.guarded (b := v ≠ noVlan) h5 (hR.set .table v i _)

lemma withPort (val : Int) {f : Nat → Port → Errno × Switch}
    (hf : ∀ i port, s.portv i = some port → R s (f i port).2) : R s (Vde.withPort val f s).2 := by
  unfold Vde.withPort
  split
  · exact hR.refl s
  split
  · exact hR.refl s
  · next port hport => exact hf _ port hport

lemma withVlanPort (arg : Option (Int × Int)) {f : Nat → Nat → Port → Errno × Switch}
    (hf : ∀ v i port, R s (f v i port).2) : R s (Vde.withVlanPort arg f s).2 := by
  cases arg with
  | none => exact hR.refl s
  | some arg =>
    obtain ⟨vlan, port⟩ := arg
    unfold Vde.withVlanPort
    dsimp only
    split
    · exact hR.refl s
    split
    · exact hR.refl s
    split
    · exact hR.refl s
    · exact hf _ _ _

lemma vlanaddport (arg : Option (Int × Int)) (s : Switch) : R s (Vde.vlanaddport arg s).2 := by
  apply hR.withVlanPort
  intro v i port
  have hjoin := hR.guarded (b := port.ep ≠ [] ∧ port.vlanuntag ≠ v) (hR.refl s)
    (hR.trans (hR.set .bctag v i s) (hR.addport v i true _))
  exact hR.trans hjoin (hR.set .table v i _)

lemma vlandelport (arg : Option (Int × Int)) (s : Switch) : R s (Vde.vlandelport arg s).2 := by
  apply hR.withVlanPort
  intro v i port
  dsimp only
  split
  · exact hR.refl s
  have hleave := hR.guarded (b := port.ep ≠ []) (hR.refl s)
    (hR.trans (hR.clr .bctag v i s) (hR.delport v i _))
  exact hR.trans (hR.trans hleave (hR.clr .table v i _)) (hR.hash _ _)

lemma removevlan (v : Nat) (s : Switch) : R s (fstremovevlan v s).2 := by
  unfold fstremovevlan
  split
  · exact hR.refl s
  have hlinks := hR.trans (hR.trans (hR.store .untag v none s) (hR.store .tagged v none _))
    (hR.store .backup v none _)
  have hall := hR.trans (hR.trans (hR.trans hlinks (hR.store .edge v none _))
    (hR.store (.rcvhist false) v none _)) (hR.store (.rcvhist true) v none _)
  exact hR.trans hall (hR.forget _ v)

lemma vlancreate (vlan : Int) (s : Switch) : R s (Vde.vlancreate vlan s).2 := by
  unfold Vde.vlancreate
  split
  · split
    · exact hR.refl s
    · exact hR.create vlan.toNat s
  · exact hR.refl s

lemma vlanremove (vlan : Int) (s : Switch) : R s (Vde.vlanremove vlan s).2 := by
  unfold Vde.vlanremove
  split
  · dsimp only
    split
    · split
      · exact hR.refl s
      have hbc := hR.trans (hR.trans (hR.validvlan s (bacClr s.validvlan vlan.toNat))
        (hR.store .table vlan.toNat none _)) (hR.store .bctag vlan.toNat none _)
      have hall := hR.trans (hR.trans hbc (hR.store .bcuntag vlan.toNat none _))
        (hR.store .notlearning vlan.toNat none _)
      exact hR.trans hall (hR.removevlan vlan.toNat _)
    · exact hR.refl s
  · exact hR.refl s

lemma allocReserve (portno : Int) (halloc : R s (allocPort portno s).2)
    (hreserve : ∀ p s, R s (reserve p s)) :
    R s (match allocPort portno s with
      | (none, s) => (Errno.enospc, s)
      | (some port, s) => (Errno.ok, if s.trap then s else reserve port s)).2 := by
  generalize allocPort portno s = r at halloc
  obtain ⟨o, s'⟩ := r
  cases o with
  | none => exact halloc
  | some port =>
    dsimp only
    split
    · exact halloc
    · exact hR.trans halloc (hreserve port s')

lemma portcreate (val : Int) (halloc : R s (allocPort val s).2) (hreserve : ∀ p s, R s (reserve p s)) :
    R s (Vde.portcreate val s).2 := by
  unfold Vde.portcreate
  split
  · exact hR.refl s
  split
  · exact hR.refl s
  · exact hR.allocReserve val halloc hreserve

end SwitchFrame

end Vde
