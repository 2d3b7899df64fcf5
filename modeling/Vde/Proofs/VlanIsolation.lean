import Vde.Proofs.Forwarding

/-!
# VLANs do not see each other

A frame of one VLAN, a BPDU included, works on the arrays, on the spanning tree and on the addresses of
that VLAN only. So the frames of a VLAN are sent as if the frames of the other VLANs had never come.
-/

namespace Vde

open Option

/-- A property of the switch that the work on VLAN `u` keeps. -/
structure VlanKept (u : Nat) (I : Switch → Prop) : Prop where
  store : ∀ {s} t x, I s → I (s.store t u x)
  setFst : ∀ {s} f, I s → I (s.setFst u f)
  flush : ∀ {s}, I s → I { s with hash := hashDeleteVlan u s.hash }
  sent : ∀ {s} l, I s → I { s with sent := l }
  crash : ∀ {s}, I s → I s.crash

namespace VlanKept

variable {u : Nat} {I : Switch → Prop} (hI : VlanKept u I) {s : Switch}

include hI

lemma set (t : Tab) (p : Nat) (h : I s) : I (s.set t u p) := by
  unfold Switch.set
  split
  · exact hI.crash h
  · exact hI.store t _ h

lemma clr (t : Tab) (p : Nat) (h : I s) : I (s.clr t u p) := by
  unfold Switch.clr
  split
  · exact hI.crash h
  · exact hI.store t _ h

lemma forPorts (t : Tab) {body : Nat → Switch → Switch} (hbody : ∀ s p, I s → I (body p s)) (h : I s) :
    I (s.forPorts t u body) := by
  unfold Switch.forPorts
  split
  · exact hI.crash h
  · exact baForall_keeps I hbody _ h

lemma send (p : Nat) (packet : List UInt8) (h : I s) : I (sendPacketPort p packet s) := by
  unfold sendPacketPort
  split
  · exact hI.crash h
  · exact hI.sent _ h

lemma status (p : Nat) (status : PortStatus) (h : I s) : I (portSetStatus p u status s) := by
  unfold portSetStatus
  split
  · cases status with
    | discarding => exact hI.clr _ p (hI.clr _ p (hI.set _ p h))
    | learning => exact hI.clr _ p (hI.clr _ p (hI.clr _ p h))
    | forwarding =>
      have hclr := hI.clr .notlearning p h
      dsimp only
      split
      · exact hI.crash hclr
      split
      · exact hI.set _ p hclr
      · exact hI.set _ p hclr
  · exact h

lemma unblock (p : Nat) (h : I s) : I (Vde.unblock u p s) := hI.status p .forwarding (hI.clr .backup p h)

lemma newvlan (h : I s) : I (fstnewvlan u s) := by
  have hloop : ∀ {s}, I s → I (s.forPorts .backup u (Vde.unblock u)) :=
    fun h => hI.forPorts .backup (fun _ p h => hI.unblock p h) h
  unfold fstnewvlan
  split
  · have hbits := hI.store .edge (some baAlloc) (hI.store .tagged (some baAlloc) (hI.store .untag (some baAlloc) h))
    have hhist := hI.store (.rcvhist true) (some baAlloc) (hI.store (.rcvhist false) (some baAlloc) hbits)
    exact hloop (hI.setFst _ (hI.store .backup (some baAlloc) hhist))
  · exact hloop (hI.setFst _ h)

lemma sendbpdu (p agr tc tcack : Nat) (h : I s) : I (fstSendbpdu u p agr tc tcack s) := by
  have hsend : ∀ {s} (b : Bool) packet, I s → I (if b then sendPacketPort p packet s else s) := by
    intro s b packet h
    cases b with
    | true => exact hI.send p packet h
    | false => exact h
  unfold fstSendbpdu
  split
  · split
    · exact hI.crash h
    · exact hsend _ _ (hsend _ _ h)
  · exact h

lemma topologyChange (gp : Nat) (h : I s) : I (Vde.topologyChange u gp s) := by
  have hsend : ∀ s p, I s → I (if designated u gp p s then fstSendbpdu u p 0 1 0 s else s) := by
    intro s p h
    split
    · exact hI.sendbpdu p 0 1 0 h
    · exact h
  unfold Vde.topologyChange
  split
  · exact hI.crash h
  · exact hI.forPorts .tagged hsend (hI.forPorts .untag hsend (hI.flush (hI.setFst _ h)))

lemma fastprotocol (r : Nat) (h : I s) : I (Vde.fastprotocol u r s) := by
  have hblock : ∀ s p, I s → I (if designated u r p s then
      fstSendbpdu u p 0 0 0 ((portSetStatus p u .discarding s).set .backup u p) else s) := by
    intro s p h
    split
    · exact hI.sendbpdu p 0 0 0 (hI.set .backup p (hI.status p .discarding h))
    · exact h
  exact hI.sendbpdu r 1 0 0 (hI.unblock r (hI.forPorts .tagged hblock (hI.forPorts .untag hblock h)))

lemma newRoot (p : Nat) (f : Vlst) (b : Bpdu) (h : I s) : I (Vde.newRoot p u f b s) := by
  have hreset : I (if memcmp f.root (s.outSrc ++ [0x00, 0x27]) ≤ 0 then fstnewvlan u s else s) := by
    split
    · exact hI.newvlan h
    · exact h
  unfold Vde.newRoot
  dsimp only
  split
  · exact hI.crash hreset
  · exact hI.topologyChange p (hI.fastprotocol p (hI.setFst _ hreset))

lemma longerPath (p : Nat) (b : Bpdu) (h : I s) : I (Vde.longerPath p u b s) := by
  unfold Vde.longerPath
  split
  · split
    · exact hI.topologyChange p (hI.unblock p h)
    · exact h
  split
  · exact h
  · exact hI.topologyChange p (hI.status p .discarding (hI.set .backup p h))

lemma goodBpdu (p : Nat) (b : Bpdu) (h : I s) : I (Vde.goodBpdu p u b s) := by
  have hflag : I (if b.flags &&& 0x01 ≠ 0 then Vde.topologyChange u p s else s) := by
    split
    · exact hI.topologyChange p h
    · exact h
  unfold Vde.goodBpdu
  dsimp only
  split
  · split
    · exact hI.setFst _ hflag
    split
    · exact hI.newRoot p _ _ hflag
    split
    · exact hI.longerPath p _ hflag
    · exact hI.sendbpdu p 0 0 0 hflag
  · exact hI.crash hflag

lemma inBpdu (p : Nat) (mem : Mem) (off len : Nat) (tagged : Bool) (h : I s) :
    I (fstInBpdu p mem off len u tagged s) := by
  unfold fstInBpdu
  split
  · exact hI.crash h
  split
  · exact h
  have hseen := hI.set (.rcvhist s.rcvhistindex) p h
  dsimp only
  split
  · exact hseen
  · exact hI.goodBpdu p _ hseen

end VlanKept

/-! ## What a VLAN can tell apart -/

/-- The parts of the switch that belong to no VLAN. -/
def Switch.common (s : Switch) : Switch := { s.shape with trap := false }

/-- VLAN `v` does not see the difference between two states: its arrays, its spanning tree and the entries for its
addresses are the same. -/
structure SameVlan (v : Nat) (s s' : Switch) : Prop where
  common : s'.common = s.common
  tabs : ∀ t, s'.tabs t v = s.tabs t v
  fst : s'.fsttab v = s.fsttab v
  minPersistence : s'.hash.minPersistence = s.hash.minPersistence
  gcExpire : s'.hash.gcExpire = s.hash.gcExpire
  ok : HashOk s'.hash
  entries : ∀ mac, lookup s'.hash (extmac mac v) = lookup s.hash (extmac mac v)

section

variable {u v : Nat} {s s' : Switch}

lemma SameVlan.refl (h : HashOk s.hash) : SameVlan v s s := ⟨rfl, fun _ => rfl, rfl, rfl, rfl, h, fun _ => rfl⟩

lemma SameVlan.shared {α : Type} (h : SameVlan v s s') (f : Switch → α) : f s'.common = f s.common :=
  congrArg f h.common

lemma SameVlan.portv (h : SameVlan v s s') : s'.portv = s.portv := h.shared Switch.portv

lemma SameVlan.check (h : SameVlan v s s') (t : Tab) (p : Nat) : s'.check t v p = s.check t v p := by
  unfold Switch.check
  rw [h.tabs]

lemma lookup_deleteVlan {t : HashTable} (hok : HashOk t) (hu : u < 65536) (hv : v < 65536) (hne : u ≠ v)
    (mac : BitVec 48) : lookup (hashDeleteVlan u t) (extmac mac v) = lookup t (extmac mac v) := by
  obtain ⟨chain, hwf⟩ := hok
  have hvlan : BitVec.ofNat 16 v ≠ BitVec.ofNat 16 u := by
    intro heq
    have hnat := congrArg BitVec.toNat heq
    rw [BitVec.toNat_ofNat, BitVec.toNat_ofNat, Nat.mod_eq_of_lt hv, Nat.mod_eq_of_lt hu] at hnat
    exact hne hnat.symm
  rw [hashDeleteVlan, lookup_forAllHash hwf]
  cases hl : lookup t (extmac mac v) with
  | none => rfl
  | some e =>
    have hkeep : emac2vlan e.dst = BitVec.ofNat 16 v := by rw [lookup_dst hwf hl, emac2vlan_extmac mac hv]
    simp [hkeep, hvlan]

lemma sameVlan_kept (hu : u < 65536) (hv : v < 65536) (hne : u ≠ v) (s : Switch) : VlanKept u (SameVlan v s) where
  store t x h := by
    refine { h with tabs := fun t' => ?_ }
    rw [← h.tabs t']
    by_cases ht : t' = t
    · simp [Switch.store, ht, hne.symm]
    · simp [Switch.store, ht]
  setFst f h := by
    refine { h with fst := ?_ }
    rw [← h.fst]
    simp [Switch.setFst, hne.symm]
  flush h := by
    obtain ⟨chain, hwf⟩ := h.ok
    exact { h with
      ok := ⟨_, (forAllHash_wf hwf _).1⟩
      entries := fun mac => (lookup_deleteVlan h.ok hu hv hne mac).trans (h.entries mac) }
  sent _ h := { h with }
  crash h := { h with }

lemma findInHashUpdate_params (malloc : Option Nat) (now : Int) (src : BitVec 48) (vlan port : Nat)
    (t : HashTable) : (findInHashUpdate malloc now src vlan port t).2.minPersistence = t.minPersistence ∧
    (findInHashUpdate malloc now src vlan port t).2.gcExpire = t.gcExpire := by
  unfold findInHashUpdate
  dsimp only
  split
  · split
    · exact ⟨rfl, rfl⟩
    · exact ⟨rfl, rfl⟩
  split
  · split
    · exact ⟨rfl, rfl⟩
    · exact ⟨rfl, rfl⟩
  · exact ⟨rfl, rfl⟩

variable {malloc : Option Nat} {port : Nat} {p : Packet}

lemma SameVlan.learnElsewhere (h : SameVlan v s s') (hu : u < 65536) (hv : v < 65536) (hne : u ≠ v)
    (hmalloc : ∀ a, malloc = some a → s'.hash.heap.cells a = none) :
    SameVlan v s { s' with hash := learnedHash malloc u port p s' } := by
  unfold learnedHash
  split
  · exact h
  obtain ⟨chain, hwf⟩ := h.ok
  obtain ⟨hok, hlook⟩ := findInHashUpdate_spec hwf hmalloc s'.now (macAt p.mem (p.off + 6)) u port
  obtain ⟨hmin, hexpire⟩ := findInHashUpdate_params malloc s'.now (macAt p.mem (p.off + 6)) u port s'.hash
  refine { h with
    minPersistence := hmin.trans h.minPersistence
    gcExpire := hexpire.trans h.gcExpire
    ok := hok
    entries := fun mac => ?_ }
  have hkey : extmac mac v ≠ extmac (macAt p.mem (p.off + 6)) u :=
    fun heq => hne ((extmac_inj hv hu).mp heq).2.symm
  exact ((hlook _).trans (if_neg hkey)).trans (h.entries mac)

lemma SameVlan.learn (h : SameVlan v s s') (hok : HashOk s.hash)
    (hmalloc : ∀ a, malloc = some a → s.hash.heap.cells a = none)
    (hmalloc' : ∀ a, malloc = some a → s'.hash.heap.cells a = none) :
    SameVlan v { s with hash := learnedHash malloc v port p s } { s' with hash := learnedHash malloc v port p s' } := by
  unfold learnedHash
  split
  · exact { h with }
  obtain ⟨chain, hwf⟩ := hok
  obtain ⟨chain', hwf'⟩ := h.ok
  obtain ⟨-, hlook⟩ := findInHashUpdate_spec hwf hmalloc s.now (macAt p.mem (p.off + 6)) v port
  obtain ⟨hok', hlook'⟩ := findInHashUpdate_spec hwf' hmalloc' s'.now (macAt p.mem (p.off + 6)) v port
  obtain ⟨hmin, hexpire⟩ := findInHashUpdate_params malloc s.now (macAt p.mem (p.off + 6)) v port s.hash
  obtain ⟨hmin', hexpire'⟩ := findInHashUpdate_params malloc s'.now (macAt p.mem (p.off + 6)) v port s'.hash
  have hnow : s'.now = s.now := h.shared Switch.now
  refine { h with
    minPersistence := by rw [hmin, hmin', h.minPersistence]
    gcExpire := by rw [hexpire, hexpire', h.gcExpire]
    ok := hok'
    entries := fun mac => ?_ }
  change lookup (findInHashUpdate _ _ _ _ _ _).2 _ = lookup (findInHashUpdate _ _ _ _ _ _).2 _
  rw [hlook, hlook', h.entries, h.entries, h.minPersistence, hnow]

lemma SameVlan.target (h : SameVlan v s s') : target s'.hash v p = target s.hash v p := by
  unfold Vde.target
  rw [findInHash_eq, findInHash_eq, h.entries]

lemma SameVlan.switchList (h : SameVlan v s s') (t : HashTable) :
    switchList t v port p s' = switchList t v port p s := by
  have hnumports : s'.numports = s.numports := h.shared Switch.numports
  have hmembers : ∀ t, s'.members t v = s.members t v := by
    intro t
    unfold Switch.members Switch.words
    rw [h.tabs, hnumports]
  have htx : ∀ packet q, s'.tx packet q = s.tx packet q := by
    intro packet q
    unfold Switch.tx
    rw [h.portv]
  unfold Vde.switchList floodList unicastList Switch.untagged
  simp only [hmembers, htx, h.portv]

end

/-! ## Frames of one VLAN among others -/

/-- The VLAN on which a frame comes in. -/
def SwitchEvent.vlan (s : Switch) : SwitchEvent → Option Nat
  | packet port stack frame _ => (s.portv port).bind fun pt => ingressVlan port pt (recvPacket stack frame) s
  | _ => none

/-- A frame that does not come in on VLAN `v`. -/
def SwitchEvent.foreign (v : Nat) (s : Switch) (e : SwitchEvent) : Bool :=
  match e with
  | packet _ _ _ _ => e.vlan s != some v
  | _ => false

/-- What happens while nobody touches the configuration: frames, the clock, and the garbage collector. The frames of
VLAN `v` are data. -/
def SwitchEvent.Traffic (v : Nat) (s : Switch) (e : SwitchEvent) : Prop :=
  match e with
  | packet _ stack frame _ => e.vlan s = some v → (isBpdu (recvPacket stack frame) && s.fstp) = false
  | tick | hashGc => True
  | _ => False

section

variable (belongs : BitVec 32 → BitVec 32 → Bool) (v : Nat)

/-- The events of a run without the frames that do not come in on VLAN `v`. -/
def withoutForeign : Switch → List SwitchEvent → List SwitchEvent
  | _, [] => []
  | s, e :: es =>
    if e.foreign v s then withoutForeign (e.apply belongs s) es else e :: withoutForeign (e.apply belongs s) es

/-- What is sent for each frame of VLAN `v`. -/
def sentFor : Switch → List SwitchEvent → List (List Tx)
  | _, [] => []
  | s, e :: es =>
    if e.vlan s = some v then (e.apply belongs s).sent.drop s.sent.length :: sentFor (e.apply belongs s) es
    else sentFor (e.apply belongs s) es

variable {belongs v} {s s' : Switch} {e : SwitchEvent}

lemma SameVlan.vlan_eq (h : SameVlan v s s') (e : SwitchEvent) : e.vlan s' = some v ↔ e.vlan s = some v := by
  cases e with
  | packet port stack frame malloc =>
    simp only [SwitchEvent.vlan, ingressVlan, h.portv]
    cases s.portv port with
    | none => exact Iff.rfl
    | some pt =>
      simp only [bind_some]
      split
      · by_cases htag : (recvPacket stack frame).tagVlan = v
        · rw [htag, h.check]
        · simp [htag]
      · exact Iff.rfl
  | _ => exact Iff.rfl

lemma SameVlan.foreign (h : SameVlan v s s') (hv : v < 65536) (hs : SwitchInv False False s') (hhub : s'.hub = false)
    (hforeign : e.foreign v s' = true) (hlegal : e.Legal s') : SameVlan v s (e.apply belongs s') := by
  cases e with
  | packet port stack frame malloc =>
    obtain ⟨hactive, -, -, hmalloc⟩ := hlegal
    obtain ⟨pt, hp⟩ := isSome_iff_exists.mp (isSome_of_active hactive)
    have hother : ingressVlan port pt (recvPacket stack frame) s' ≠ some v := by
      simpa [SwitchEvent.foreign, SwitchEvent.vlan, hp] using hforeign
    change SameVlan v s (handleInPacket malloc port (recvPacket stack frame) s')
    unfold handleInPacket
    simp only [hhub, Bool.false_eq_true, if_false, hp]
    cases hu : ingressVlan port pt (recvPacket stack frame) s' with
    | none => exact h
    | some u =>
      have hin := ingress_of_ingressVlan hs hp hactive hu
      have hlt := vlan_lt_65536 hs.core hin.valid
      have hne : u ≠ v := fun heq => hother (heq ▸ hu)
      dsimp only
      split
      · exact (sameVlan_kept hlt hv hne s).inBpdu _ _ _ _ _ h
      split
      · exact h
      next hn =>
      rw [switchPacket_eq hs hin (by simpa using hn) hmalloc]
      exact (sameVlan_kept hlt hv hne s).sent _ (h.learnElsewhere hlt hv hne hmalloc)
  | _ => cases hforeign

lemma SameVlan.own (h : SameVlan v s s') (hs : SwitchInv False False s) (hs' : SwitchInv False False s')
    (hhub : s.hub = false) (hown : e.vlan s = some v) (htraffic : e.Traffic v s) (hlegal : e.Legal s)
    (hlegal' : e.Legal s') : SameVlan v (e.apply belongs s) (e.apply belongs s') ∧
    (e.apply belongs s').sent.drop s'.sent.length = (e.apply belongs s).sent.drop s.sent.length ∧
    (e.apply belongs s).hub = false := by
  cases e with
  | packet port stack frame malloc =>
    have hhub' : s'.hub = false := (h.shared Switch.hub).trans hhub
    have hfstp : s'.fstp = s.fstp := h.shared Switch.fstp
    have hdata := htraffic hown
    have hown' := (h.vlan_eq _).mpr hown
    obtain ⟨pt, hp⟩ := isSome_iff_exists.mp (isSome_of_active hlegal.1)
    have hp' : s'.portv port = some pt := h.portv ▸ hp
    simp only [SwitchEvent.vlan, hp, hp', bind_some] at hown hown'
    change SameVlan v (handleInPacket _ _ _ s) (handleInPacket _ _ _ s') ∧
      (handleInPacket _ _ _ s').sent.drop _ = (handleInPacket _ _ _ s).sent.drop _ ∧
      (handleInPacket _ _ _ s).hub = false
    by_cases hlearns : s.check .notlearning v port = true
    · have hdrop : ∀ {s : Switch}, s.hub = false → s.portv port = some pt →
          ingressVlan port pt (recvPacket stack frame) s = some v →
          (isBpdu (recvPacket stack frame) && s.fstp) = false → s.check .notlearning v port = true →
          handleInPacket malloc port (recvPacket stack frame) s = s := by
        intro s hhub hp hin hdata hn
        unfold handleInPacket
        simp [hhub, hp, hin, hdata, hn]
      rw [hdrop hhub hp hown hdata hlearns,
        hdrop hhub' hp' hown' (hfstp ▸ hdata) ((h.check .notlearning port).trans hlearns)]
      exact ⟨h, by simp, hhub⟩
    have hlet : LetIn s port (recvPacket stack frame) v pt := ⟨hhub, hp, hown, hdata, by simpa using hlearns⟩
    have hlet' : LetIn s' port (recvPacket stack frame) v pt :=
      ⟨hhub', hp', hown', hfstp ▸ hdata, by rw [h.check]; simpa using hlearns⟩
    have hlearned := @SameVlan.learn v s s' malloc port (recvPacket stack frame) h hs.core.hash hlegal.2.2.2
      hlegal'.2.2.2
    rw [hlet.handle hs hlegal.1 hlegal.2.2.2, hlet'.handle hs' hlegal'.1 hlegal'.2.2.2]
    have hsame : ∀ p, p = recvPacket stack frame →
        Vde.switchList (learnedHash malloc v port p s') v port p s' =
          Vde.switchList (learnedHash malloc v port p s) v port p s := by
      rintro p rfl
      rw [h.switchList]
      unfold Vde.switchList
      rw [show Vde.target _ v _ = _ from hlearned.target]
    refine ⟨{ hlearned with }, ?_, hhub⟩
    simp [Switch.emit, hsame _ rfl]
  | _ => exact absurd hown.symm (some_ne_none v)

lemma Traffic.inv (hs : SwitchInv False False s) (htraffic : e.Traffic v s) (hlegal : e.Legal s) :
    SwitchInv False False (e.apply belongs s) := by
  apply apply_inv belongs hs hlegal False.elim _ False.elim
  cases e with
  | packet | tick | hashGc => exact id
  | _ => exact absurd htraffic id

lemma SameVlan.timer (h : SameVlan v s s') (hs : HashOk s.hash) (htraffic : e.Traffic v s)
    (hno : ∀ p st fr m, e ≠ .packet p st fr m) :
    SameVlan v (e.apply belongs s) (e.apply belongs s') ∧ (e.apply belongs s).hub = s.hub := by
  have hnow : s'.now = s.now := h.shared Switch.now
  cases e with
  | packet port stack frame malloc => exact absurd rfl (hno port stack frame malloc)
  | tick =>
    refine ⟨{ h with common := ?_ }, rfl⟩
    change { s'.common with now := s'.now + 1 } = { s.common with now := s.now + 1 }
    rw [h.common, hnow]
  | hashGc =>
    obtain ⟨chain, hwf⟩ := hs
    obtain ⟨chain', hwf'⟩ := h.ok
    refine ⟨{ h with ok := ⟨_, (forAllHash_wf hwf' _).1⟩, entries := fun mac => ?_ }, rfl⟩
    change lookup (forAllHash _ _) _ = lookup (forAllHash _ _) _
    rw [lookup_forAllHash hwf', lookup_forAllHash hwf, h.entries, h.gcExpire, hnow]
  | _ => exact absurd htraffic id

lemma isolated_run (hv : v < 65536) (h : SameVlan v s s') (hs : SwitchInv False False s)
    (hs' : SwitchInv False False s') (hhub : s.hub = false) (es : List SwitchEvent)
    (hes : (switchMachine belongs).Along (fun s e => (switchMachine belongs).enabled s e ∧ e.Traffic v s) s' es)
    (hown : (switchMachine belongs).Along (switchMachine belongs).enabled s (withoutForeign belongs v s' es)) :
    sentFor belongs v s (withoutForeign belongs v s' es) = sentFor belongs v s' es ∧
      SameVlan v ((switchMachine belongs).run s (withoutForeign belongs v s' es))
        ((switchMachine belongs).run s' es) := by
  induction es generalizing s s' with
  | nil => exact ⟨rfl, h⟩
  | cons e es ih =>
    obtain ⟨⟨⟨-, hlegal'⟩, htraffic'⟩, hrest⟩ := hes
    have hnext := @Traffic.inv belongs v s' e hs' htraffic' hlegal'
    have hhub' : s'.hub = false := (h.shared Switch.hub).trans hhub
    rw [withoutForeign] at hown ⊢
    by_cases hforeign : e.foreign v s' = true
    · have hnot : e.vlan s' ≠ some v := by
        cases e with
        | packet port stack frame malloc => simpa [SwitchEvent.foreign] using hforeign
        | _ => exact nofun
      rw [if_pos hforeign] at hown ⊢
      rw [sentFor, if_neg hnot]
      exact ih (h.foreign hv hs' hhub' hforeign hlegal') hs hnext hhub hrest hown
    rw [if_neg hforeign] at hown ⊢
    obtain ⟨⟨-, hlegal⟩, hlater⟩ := hown
    have hvlan := h.vlan_eq e
    by_cases hmine : e.vlan s = some v
    · have htraffic : e.Traffic v s := by
        cases e with
        | packet port stack frame malloc =>
          have hfstp : s'.fstp = s.fstp := h.shared Switch.fstp
          exact fun _ => hfstp ▸ htraffic' (hvlan.mpr hmine)
        | _ => exact htraffic'
      obtain ⟨hsame, hsent, hhubn⟩ := @SameVlan.own belongs v s s' e h hs hs' hhub hmine htraffic hlegal hlegal'
      obtain ⟨htail, hend⟩ := ih hsame (Traffic.inv hs htraffic hlegal) hnext hhubn hrest hlater
      refine ⟨?_, hend⟩
      rw [sentFor, sentFor, if_pos hmine, if_pos (hvlan.mpr hmine), hsent]
      exact congrArg _ htail
    have hno : ∀ p st fr m, e ≠ .packet p st fr m := by
      rintro p st fr m rfl
      exact hforeign (by simpa [SwitchEvent.foreign, hvlan] using hmine)
    have htraffic : e.Traffic v s := by
      cases e with
      | packet port stack frame malloc => exact absurd rfl (hno port stack frame malloc)
      | _ => exact htraffic'
    obtain ⟨hsame, hhubn⟩ := @SameVlan.timer belongs v s s' e h hs.core.hash htraffic hno
    obtain ⟨htail, hend⟩ := ih hsame (Traffic.inv hs htraffic hlegal) hnext (hhubn.trans hhub) hrest hlater
    refine ⟨?_, hend⟩
    rw [sentFor, sentFor, if_neg hmine, if_neg (fun hw => hmine (hvlan.mp hw))]
    exact htail

/-- While the configuration stays as it is, the frames of a VLAN are sent exactly as they would be without any frame
of the other VLANs, BPDUs included, and all that the VLAN sees of the switch is the same in the end. -/
theorem vlan_isolated (hs : (switchMachine belongs).Reach SwitchStart s) (hlive : s.trap = false) (hhub : s.hub = false)
    (hv : v < numOfVlan) (es : List SwitchEvent)
    (hes : (switchMachine belongs).Along (fun s e => (switchMachine belongs).enabled s e ∧ e.Traffic v s) s es)
    (hown : (switchMachine belongs).Along (switchMachine belongs).enabled s (withoutForeign belongs v s es)) :
    sentFor belongs v s (withoutForeign belongs v s es) = sentFor belongs v s es ∧
      SameVlan v ((switchMachine belongs).run s (withoutForeign belongs v s es))
        ((switchMachine belongs).run s es) := by
  have hinv := live_inv belongs hs hlive
  unfold numOfVlan at hv
  exact isolated_run (by omega) (SameVlan.refl hinv.core.hash) hinv hinv hhub es hes hown

end

def twoVlans : Switch :=
  (switchMachine noGroups).run (freshSwitch true) [.setupEp 1 10 10 0, .setupEp 2 11 11 0, .vlancreate 5,
    .vlanaddport (some (5, 1)), .vlanaddport (some (5, 2))]

def strangeFrame : List UInt8 := [2, 0, 0, 0, 0, 2, 2, 0, 0, 0, 0, 1, 0x81, 0x00, 0, 5, 0x08, 0x00]

/-- The second station answers although the first one has spoken on another VLAN only. -/
theorem vlan_isolated_strange :
    sentFor noGroups 0 twoVlans [.packet 1 (fun _ => 0) strangeFrame (some 0), .packet 2 (fun _ => 0) (answer 1) none] =
      [[⟨1, [⟨1, 10, 10⟩], answer 1⟩]] := by
  have hreach : (switchMachine noGroups).Reach SwitchStart twoVlans := by
    apply (Machine.Reach.init _ (freshSwitch_start true)).run
    exact ⟨⟨rfl, trivial⟩, ⟨by decide +kernel, trivial⟩, ⟨by decide +kernel, trivial⟩, ⟨by decide +kernel, trivial⟩,
      ⟨by decide +kernel, trivial⟩, trivial⟩
  have hfree : ∀ a, some 0 = some a → twoVlans.hash.heap.cells a = none := by
    intro a ha
    obtain rfl := some.inj ha
    exact isNone_iff_eq_none.mp (by decide +kernel)
  have hwithout : withoutForeign noGroups 0 twoVlans
      [.packet 1 (fun _ => 0) strangeFrame (some 0), .packet 2 (fun _ => 0) (answer 1) none] =
        [.packet 2 (fun _ => 0) (answer 1) none] := by
    have hfirst : (SwitchEvent.packet 1 (fun _ => 0) strangeFrame (some 0)).foreign 0 twoVlans = true := by
      decide +kernel
    have hsecond : (SwitchEvent.packet 2 (fun _ => 0) (answer 1) none).foreign 0 ((SwitchEvent.packet 1 (fun _ => 0)
        strangeFrame (some 0)).apply noGroups twoVlans) = false := by
      decide +kernel
    rw [withoutForeign, if_pos hfirst, withoutForeign, if_neg (Bool.eq_false_iff.mp hsecond), withoutForeign]
  have hes : (switchMachine noGroups).Along (fun s e => (switchMachine noGroups).enabled s e ∧ e.Traffic 0 s) twoVlans
      [.packet 1 (fun _ => 0) strangeFrame (some 0), .packet 2 (fun _ => 0) (answer 1) none] :=
    ⟨⟨⟨by decide +kernel, by decide +kernel, by decide, by decide, hfree⟩, fun _ => by decide +kernel⟩,
      ⟨⟨by decide +kernel, by decide +kernel, by decide, by decide, nofun⟩, fun _ => by decide +kernel⟩, trivial⟩
  have hown : (switchMachine noGroups).Along (switchMachine noGroups).enabled twoVlans
      [.packet 2 (fun _ => 0) (answer 1) none] :=
    ⟨⟨by decide +kernel, by decide +kernel, by decide, by decide, nofun⟩, trivial⟩
  have h := (vlan_isolated hreach (by decide +kernel) (by decide +kernel) (Nat.zero_lt_succ _) _ hes (by
    rw [hwithout]
    exact hown)).1
  rw [← h, hwithout]
  decide +kernel

end Vde
