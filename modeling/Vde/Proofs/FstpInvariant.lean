import Vde.Proofs.SwitchInvariant

/-!
# The protocol keeps the invariant

Every BPDU, every hello and every command of the protocol keeps the tables consistent. The ports
that a BPDU blocks leave the hash table at once, with all entries of the VLAN.
-/

namespace Vde

open Function Option

structure SwitchInv (free quiet : Prop) (s : Switch) : Prop where
  core : CoreInv free quiet s
  entries : EntriesOk s

/-- A port on which packets of the VLAN may come in. -/
structure Ingress (s : Switch) (v p : Nat) : Prop where
  valid : s.valid v = true
  active : s.active p = true
  table : s.check .table v p = true

section

variable {free quiet : Prop} {s s' : Switch} {v p : Nat} {g : Nat → Cell → Cell} {F : Vlst → Vlst}

lemma Ingress.effect (h : Ingress s v p) (he : Effect s s' v g F)
    (hg : g p (s.cell v p) .table = true) : Ingress s' v p where
  valid := by
    rw [valid_of_shape he.shape]
    exact h.valid
  active := by
    rw [active_of_shape he.shape]
    exact h.active
  table := (congrFun (he.cell p) .table).trans hg

lemma CoreInv.ready (h : CoreInv free quiet s) (hv : s.valid v = true) : Ready s v :=
  h.vlans.ready v hv

lemma CoreInv.cellOk (h : CoreInv free quiet s) (hv : s.valid v = true) (q : Nat) :
    CellInv free quiet (s.portv q).isSome (s.active q) (s.untagged v q) true (s.cell v q) := by
  have hc := h.cells v q (h.ne_noVlan hv)
  unfold Switch.CellOk at hc
  rwa [hv] at hc

lemma SwitchInv.effectNone (h : SwitchInv free quiet s) (hv : s.valid v = true)
    (he : Effect s s' v (fun _ c => c) F) : SwitchInv free quiet s' where
  core := h.core.effect hv he (fun q _ => h.core.cellOk hv q)
  entries := h.entries.keep h.core.hash he (fun _ ht hn => ⟨ht, hn⟩)

lemma topologyChange_inv (h : SwitchInv free quiet s) (hv : s.valid v = true) (gp : Nat) :
    SwitchInv free quiet (topologyChange v gp s) :=
  h.effectNone hv (topologyChange_effect (h.core.ready hv) gp).1

end

/-! ## Received BPDUs -/

/-- What the branch for a new root does to a cell; `reset` tells whether the VLAN is reset first. -/
def newRootCell (u : Nat → Bool) (reset : Bool) (r q : Nat) (c : Cell) : Cell :=
  fastCell (u r) r q (if reset then newvlanCell (u q) c else c)

def newRootVlst (s : Switch) (reset : Bool) (port : Nat) (p : Bpdu) (f : Vlst) : Vlst :=
  { (if reset then f.reset s.myid else f) with
    root := p.root
    rootcost := p.rootcost
    dessw := p.bridge
    port := p.port
    rootport := port
    roottimestamp := s.now % 2 ^ 32
    tctime := s.now }

def resetsFirst (f : Vlst) (s : Switch) : Bool :=
  decide (memcmp f.root (s.outSrc ++ [0x00, 0x27]) ≤ 0)

lemma newRoot_effect {s : Switch} {v port : Nat} {f : Vlst} (hr : Ready s v)
    (hp : (s.portv port).isSome = true) (hf : s.fsttab v = some f) (p : Bpdu) :
    Effect s (newRoot port v f p s) v (newRootCell (s.untagged v) (resetsFirst f s) port)
        (newRootVlst s (resetsFirst f s) port p) ∧
      (HashOk s.hash → HashClear v (newRoot port v f p s).hash) := by
  unfold newRoot
  have hreset : Effect s (if memcmp f.root (s.outSrc ++ [0x00, 0x27]) ≤ 0 then fstnewvlan v s else s)
      v (fun q c => if resetsFirst f s then newvlanCell (s.untagged v q) c else c)
      (fun f' => if resetsFirst f s then f'.reset s.myid else f') ∧
      Ready (if memcmp f.root (s.outSrc ++ [0x00, 0x27]) ≤ 0 then fstnewvlan v s else s) v := by
    by_cases hcond : memcmp f.root (s.outSrc ++ [0x00, 0x27]) ≤ 0
    · have he := fstnewvlan_effect hr
      have hrf : resetsFirst f s = true := decide_eq_true hcond
      simp only [if_pos hcond, hrf, if_true]
      exact ⟨he, hr.newvlan he⟩
    have hrf : resetsFirst f s = false := decide_eq_false hcond
    simp only [if_neg hcond, hrf, Bool.false_eq_true, if_false]
    exact ⟨Effect.refl s v, hr⟩
  generalize (if memcmp f.root (s.outSrc ++ [0x00, 0x27]) ≤ 0 then fstnewvlan v s else s) = s1
    at hreset
  obtain ⟨h1, hr1⟩ := hreset
  obtain ⟨f1, hf1⟩ := ne_none_iff_exists'.mp hr1.fst
  have hf1' : f1 = if resetsFirst f s then f.reset s.myid else f := by
    have hfst := h1.fst
    rw [hf1, hf, map_some] at hfst
    exact some.inj hfst
  simp only [hf1]
  have h2 : Effect s1 (s1.setFst v { f1 with
      root := p.root, rootcost := p.rootcost, dessw := p.bridge, port := p.port, rootport := port,
      roottimestamp := s1.now % 2 ^ 32 }) v (fun _ c => c) (fun f' => { f' with
      root := p.root, rootcost := p.rootcost, dessw := p.bridge, port := p.port, rootport := port,
      roottimestamp := s1.now % 2 ^ 32 }) := setFst_effect hf1 rfl
  generalize (s1.setFst v { f1 with
      root := p.root, rootcost := p.rootcost, dessw := p.bridge, port := p.port, rootport := port,
      roottimestamp := s1.now % 2 ^ 32 }) = s2 at h2
  have hr2 := hr1.effectNone h2
  have hshape2 := h2.shape.trans h1.shape
  have hp2 : (s2.portv port).isSome = true := by rwa [portv_of_shape hshape2]
  have h3 := fastprotocol_effect hr2 hp2
  have hr3 : Ready (fastprotocol v port s2) v := by
    apply hr2.effect h3
    intro q t ht hq
    by_cases hqr : q = port
    · rw [hqr]
      exact hp2
    unfold fastCell atPort blockLoopCell at hq
    rw [if_neg hqr] at hq
    by_contra hnone
    have hc : ∀ t', t'.ofPorts = true → s2.cell v q t' = false := by
      intro t' ht'
      by_contra hct
      exact hnone (hr2.ports t' q ht' (by simpa using hct))
    simp [hc .untag rfl, hc .tagged rfl, hc t ht] at hq
  obtain ⟨h4, hclear⟩ := topologyChange_effect hr3 port
  have hall := ((h1.trans h2).trans h3).trans h4
  refine ⟨{ hall with cell := fun q => ?_, fst := ?_ }, fun hok => hclear ?_⟩
  · rw [hall.cell, untagged_of_shape hshape2]
    rfl
  · rw [hall.fst, hf, map_some, map_some, now_of_shape h1.shape,
      now_of_shape (h3.shape.trans hshape2)]
    rfl
  · exact (((h1.trans h2).trans h3).hash hok).1

section

variable {free quiet : Prop} {s : Switch} {v port : Nat}

lemma newRoot_inv (h : SwitchInv free quiet s) (hq : ¬quiet) (hin : Ingress s v port) {f : Vlst}
    (hf : s.fsttab v = some f) (p : Bpdu) : SwitchInv free quiet (newRoot port v f p s) := by
  have hr := h.core.ready hin.valid
  have hsome := isSome_of_active hin.active
  obtain ⟨he, hclear⟩ := newRoot_effect hr hsome hf p
  have hlt := h.core.vlans.lt v hin.valid
  have hcells : ∀ q, CellInv free quiet (s.portv q).isSome (s.active q) (s.untagged v q) true
      (newRootCell (s.untagged v) (resetsFirst f s) port q (s.cell v q)) := by
    intro q
    have hc := h.core.cellOk hin.valid q
    have h1 : CellInv free quiet (s.portv q).isSome (s.active q) (s.untagged v q) true
        (if resetsFirst f s then newvlanCell (s.untagged v q) (s.cell v q) else s.cell v q) := by
      split
      · exact hc.newvlan
      · exact hc
    by_cases hqr : q = port
    · subst hqr
      unfold newRootCell
      apply h1.fast hq isSome_of_active
      intro _
      refine ⟨hin.active, ?_⟩
      split
      · rw [newvlanCell_other _ _ rfl (by simp)]
        exact hin.table
      · exact hin.table
    have h2 := h1.fast hq isSome_of_active (r := port) (q := q) (fun heq => absurd heq hqr)
    unfold newRootCell
    unfold fastCell atPort at h2 ⊢
    rw [if_neg hqr] at h2 ⊢
    exact h2
  refine ⟨h.core.effect hin.valid he (fun q _ => hcells q), ?_⟩
  apply h.entries.clear h.core.hash _ he (hclear h.core.hash)
  unfold numOfVlan at hlt
  omega

lemma vlan_lt_65536 (h : CoreInv free quiet s) (hv : s.valid v = true) : v < 65536 := by
  have hlt := h.vlans.lt v hv
  unfold numOfVlan at hlt
  omega

section

variable (h : SwitchInv free quiet s)

include h

lemma portThenTopology_inv (hin : Ingress s v port) {s' : Switch}
    {b : Cell → Cell} (he : Effect s s' v (atPort port b) id)
    (hb : ∀ c, CellInv free quiet (s.portv port).isSome (s.active port) (s.untagged v port) true c →
      c .table = true →
      CellInv free quiet (s.portv port).isSome (s.active port) (s.untagged v port) true (b c)) :
    SwitchInv free quiet (topologyChange v port s') := by
  have hr := (h.core.ready hin.valid).effectAt he (isSome_of_active hin.active)
  obtain ⟨htop, hclear⟩ := topologyChange_effect hr port
  have hall := he.trans htop
  refine ⟨h.core.effect hin.valid hall ?_, ?_⟩
  · intro q _
    have hc := h.core.cellOk hin.valid q
    by_cases hq : q = port
    · subst hq
      rw [atPort, if_pos rfl]
      exact hb _ hc hin.table
    rw [atPort, if_neg hq]
    exact hc
  exact h.entries.clear h.core.hash (vlan_lt_65536 h.core hin.valid) hall
    (hclear (he.hash h.core.hash).1)

lemma longerPath_inv (hq : ¬quiet) (hin : Ingress s v port) (p : Bpdu) :
    SwitchInv free quiet (longerPath port v p s) := by
  have hr := h.core.ready hin.valid
  have hsome := isSome_of_active hin.active
  unfold longerPath
  split
  · split
    · -- from backup to designated
      apply portThenTopology_inv h hin (unblock_effect hr hsome)
      intro c hc ht
      exact hc.unblock hin.active ht
    · exact h
  split
  · exact h
  -- from designated to backup
  have h1 := (Effect.start s v port).set hr .backup
  have hr1 := hr.effectAt h1 hsome
  have h2 := h1.transAt (portSetStatus_effect (p := port) hr1 .discarding)
  apply portThenTopology_inv h hin h2
  intro c hc ht
  have hblock : statusCell ((s.set .backup v port).untagged v port) .discarding
      (update (id c) .backup true) = blockCell c := by
    simp only [blockCell, statusCell, id, ne_eq, reduceCtorEq, not_false_eq_true,
      update_of_ne, ht, if_true]
    funext t
    by_cases htb : t = .backup
    · subst htb
      simp
    · simp [update_apply, htb]
  rw [hblock]
  exact hc.block hq hin.active ht

lemma goodBpdu_inv (hq : ¬quiet) (hin : Ingress s v port) (p : Bpdu) :
    SwitchInv free quiet (goodBpdu port v p s) := by
  unfold goodBpdu
  have htc : SwitchInv free quiet (if p.flags &&& 0x01 ≠ 0 then topologyChange v port s else s) ∧
      Ingress (if p.flags &&& 0x01 ≠ 0 then topologyChange v port s else s) v port := by
    split
    · have he := (topologyChange_effect (h.core.ready hin.valid) port).1
      exact ⟨topologyChange_inv h hin.valid port, hin.effect he hin.table⟩
    · exact ⟨h, hin⟩
  generalize (if p.flags &&& 0x01 ≠ 0 then topologyChange v port s else s) = s1 at htc
  obtain ⟨h1, hin1⟩ := htc
  have hr1 := h1.core.ready hin1.valid
  obtain ⟨f, hf⟩ := ne_none_iff_exists'.mp hr1.fst
  obtain ⟨pt, hpt⟩ := isSome_iff_exists.mp (isSome_of_active hin1.active)
  simp only [hf, hpt]
  split
  · exact h1.effectNone hin1.valid
      (setFst_effect hf (F := fun f => { f with roottimestamp := s1.now % 2 ^ 32 }) rfl)
  split
  · exact newRoot_inv h1 hq hin1 hf _
  split
  · exact longerPath_inv h1 hq hin1 _
  exact h1.effectNone hin1.valid
    (fstSendbpdu_effect hr1 (isSome_of_active hin1.active) 0 0 0)

lemma rcvhist_inv (hin : Ingress s v port) (i : Bool) :
    SwitchInv free quiet (s.set (.rcvhist i) v port) ∧ Ingress (s.set (.rcvhist i) v port) v port := by
  have he := set_effect ((h.core.ready hin.valid).tabs (.rcvhist i)) port
  refine ⟨⟨h.core.effect hin.valid he ?_, h.entries.keep h.core.hash he ?_⟩, hin.effect he ?_⟩
  · intro q _
    have hc := h.core.cellOk hin.valid q
    unfold atPort
    split
    · exact hc.rcvhist i true
    · exact hc
  · intro q ht hn
    unfold atPort
    split
    · simpa using ⟨ht, hn⟩
    · exact ⟨ht, hn⟩
  rw [atPort, if_pos rfl, update_of_ne (by simp)]
  exact hin.table

lemma fstInBpdu_inv (hq : ¬quiet) (hin : Ingress s v port) (mem : Mem)
    (off len : Nat) (tagged : Bool) : SwitchInv free quiet (fstInBpdu port mem off len v tagged s) := by
  unfold fstInBpdu
  obtain ⟨f, hf⟩ := ne_none_iff_exists'.mp (h.core.ready hin.valid).fst
  simp only [hf]
  split
  · exact h
  obtain ⟨h1, hin1⟩ := rcvhist_inv h hin s.rcvhistindex
  split
  · exact h1
  · exact goodBpdu_inv h1 hq hin1 _

end

end

/-! ## The timer -/

section

variable {free quiet : Prop} {s : Switch}

def helloCell (s : Switch) (v : Nat) (f : Option Vlst) (q : Nat) (c : Cell) : Cell :=
  if f.any (rootTimeout s.now) then newvlanCell (s.untagged v q) c else c

lemma helloLoop_effects (h : VlansOk s) : Effects s (s.forVlans (fstHelloVlan s.now)) (helloCell s)
    (fun _ _ f => if rootTimeout s.now f then f.reset s.myid else f) := by
  apply forVlans_effects h
  intro s' v _ hr hshape
  obtain ⟨f, hf⟩ := ne_none_iff_exists'.mp hr.fst
  have he := fstHelloVlan_effect hr hf s.now
  rw [myid_of_shape hshape] at he
  rw [hf]
  unfold helloCell
  simpa only [untagged_of_shape hshape, any_some] using he

def backupCell (s : Switch) (v : Nat) (_ : Option Vlst) (q : Nat) (c : Cell) : Cell :=
  zapCell s.rcvhistindex (decide (q / 64 < wordSizeRound s.numports))
    (updateCell (s.untagged v q) c)

lemma backupLoop_effects (h : VlansOk s) :
    Effects s (s.forVlans (fstUpdatebackup s.rcvhistindex)) (backupCell s) (fun _ _ => id) := by
  apply forVlans_effects h
  intro s' v _ hr hshape
  have he := fstUpdatebackup_effect hr s.rcvhistindex
  unfold backupCell
  simpa only [untagged_of_shape hshape, numports_of_shape hshape] using he

lemma unblockCell_keeps (u : Bool) {c : Cell} (ht : c .table = true) :
    unblockCell u c .table = true ∧ unblockCell u c .notlearning = false := by
  cases u <;> simp [unblockCell, statusCell, ht]

lemma newvlanCell_keeps (u : Bool) {c : Cell} (ht : c .table = true) (hn : c .notlearning = false) :
    newvlanCell u c .table = true ∧ newvlanCell u c .notlearning = false := by
  unfold newvlanCell
  split
  · exact unblockCell_keeps u ht
  · exact ⟨ht, hn⟩

lemma helloLoop_inv (h : SwitchInv free quiet s) : SwitchInv free quiet (s.forVlans (fstHelloVlan s.now)) := by
  have he := helloLoop_effects h.core.vlans
  refine ⟨h.core.effects he ?_, h.entries.effects h.core.hash he ?_⟩
  · intro v q hv _
    have hc := h.core.cellOk hv q
    unfold helloCell
    split
    · exact hc.newvlan
    · exact hc
  intro v q ht hn
  unfold helloCell
  split
  · exact newvlanCell_keeps _ ht hn
  · exact ⟨ht, hn⟩

lemma backupLoop_inv (h : SwitchInv free quiet s) :
    SwitchInv free quiet (s.forVlans (fstUpdatebackup s.rcvhistindex)) := by
  have he := backupLoop_effects h.core.vlans
  refine ⟨h.core.effects he ?_, h.entries.effects h.core.hash he ?_⟩
  · intro v q hv _
    exact (h.core.cellOk hv q).update.zap _ _
  intro v q ht hn
  have hup : updateCell (s.untagged v q) (s.cell v q) .table = true ∧
      updateCell (s.untagged v q) (s.cell v q) .notlearning = false := by
    unfold updateCell
    split
    · split
      · exact ⟨ht, hn⟩
      · exact unblockCell_keeps _ ht
    · exact ⟨ht, hn⟩
  unfold backupCell zapCell
  split
  · simpa using hup
  · exact hup

lemma SwitchInv.same (h : SwitchInv free quiet s) {s' : Switch} (hs : SameTables s s')
    (hh : s'.hash = s.hash) : SwitchInv free quiet s' := by
  refine ⟨hs.core h.core (by rw [hh]; exact h.core.hash), hs.entries h.entries h.core.hash ?_⟩
  rw [hh]
  exact HashLe.refl _

lemma fstHello_inv (h : SwitchInv free quiet s) : SwitchInv free quiet (fstHello s) := by
  have h1 : SwitchInv free quiet { s with hellocounter := s.hellocounter + 1 } :=
    h.same ⟨rfl, rfl, rfl, rfl, rfl, rfl⟩ rfl
  have h2 := helloLoop_inv h1
  unfold fstHello
  dsimp only
  split
  · exact backupLoop_inv (h2.same ⟨rfl, rfl, rfl, rfl, rfl, rfl⟩ rfl)
  · exact h2

/-! ## Commands -/

lemma newvlanLoop_effects (h : VlansOk s) : Effects s (s.forVlans fstnewvlan)
    (fun v _ q c => newvlanCell (s.untagged v q) c) (fun _ _ f => f.reset s.myid) := by
  apply forVlans_effects h
  intro s' v _ hr hshape
  have he := fstnewvlan_effect hr
  have hr' := hr.newvlan he
  rw [myid_of_shape hshape] at he
  simp only [untagged_of_shape hshape] at he
  exact ⟨he, hr'⟩

section

variable (h : SwitchInv free quiet s)

include h

lemma fstpStop_inv : SwitchInv free quiet (fstpStop s) := by
  have h1 : SwitchInv free quiet { s with fstp := false } :=
    h.same ⟨rfl, rfl, rfl, rfl, rfl, rfl⟩ rfl
  have he := newvlanLoop_effects h1.core.vlans
  exact ⟨h1.core.effects he (fun v q hv _ => (h1.core.cellOk hv q).newvlan),
    h1.entries.effects h1.core.hash he (fun v q ht hn => newvlanCell_keeps _ ht hn)⟩

lemma fstpsetonoff_inv (val : Int) : SwitchInv free quiet (fstpsetonoff val s) := by
  unfold fstpsetonoff
  split
  · exact h
  split
  · exact h
  split
  · exact h.same ⟨rfl, rfl, rfl, rfl, rfl, rfl⟩ rfl
  · exact fstpStop_inv h

lemma portsethub_inv (val : Int) : SwitchInv free quiet (portsethub val s) := by
  unfold portsethub fstpshutdown
  split
  · split
    · exact (fstpStop_inv h).same ⟨rfl, rfl, rfl, rfl, rfl, rfl⟩ rfl
    · exact h.same ⟨rfl, rfl, rfl, rfl, rfl, rfl⟩ rfl
  · exact h.same ⟨rfl, rfl, rfl, rfl, rfl, rfl⟩ rfl

lemma fstsetbonus_inv (arg : Option (Int × Int × Int)) : SwitchInv free quiet (fstsetbonus arg s).2 := by
  cases arg with
  | none => exact h
  | some arg =>
    obtain ⟨vlan, port, cost⟩ := arg
    unfold fstsetbonus
    dsimp only
    split
    · exact h
    split
    · exact h
    next hv =>
    have hv' : s.valid vlan.toNat = true := by simpa using hv
    obtain ⟨f, hf⟩ := ne_none_iff_exists'.mp (h.core.ready hv').fst
    simp only [hf]
    exact h.effectNone hv' (setFst_effect hf
      (F := fun f => { f with bonusport := port.toNat, bonuscost := cost }) rfl)

end

end

end Vde
