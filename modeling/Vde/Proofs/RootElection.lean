import Vde.Proofs.RootFrame

/-!
# The election of the root

Which root a switch believes in, and what it does to its ports when it changes its mind. The root
that is stored never has a greater identifier than the switch itself, until a BPDU on the root port
announces one: it is not compared with the identifier of the switch.
-/

namespace Vde

open Option

/-! ## The order of identifiers -/

lemma memcmp_swap (a b : List UInt8) : memcmp b a = -memcmp a b := by
  induction a generalizing b with
  | nil => cases b <;> rfl
  | cons x a ih =>
    cases b with
    | nil => rfl
    | cons y b =>
      unfold memcmp
      by_cases hxy : x < y
      · have hyx : ¬y < x := by
          rw [UInt8.lt_iff_toNat_lt] at hxy ⊢
          omega
        simp [hxy, hyx]
      by_cases hyx : y < x
      · simp [hxy, hyx]
      · simp [hxy, hyx, ih]

lemma memcmp_self (a : List UInt8) : memcmp a a = 0 := by
  have h := memcmp_swap a a
  omega

lemma memcmp_trans {a b c : List UInt8} (hab : a.length = b.length) (hbc : b.length = c.length)
    (h : memcmp a b ≤ 0) (h' : memcmp b c ≤ 0) : memcmp a c ≤ 0 := by
  induction a generalizing b c with
  | nil => exact Int.le_refl 0
  | cons x a ih =>
    cases b with
    | nil => simp at hab
    | cons y b =>
      cases c with
      | nil => simp at hbc
      | cons z c =>
        simp only [List.length_cons, Nat.add_right_cancel_iff] at hab hbc
        unfold memcmp at h h' ⊢
        simp only [UInt8.lt_iff_toNat_lt] at h h' ⊢
        have hih := ih hab hbc
        split_ifs at h h' ⊢ <;> omega

/-! ## Accepted BPDUs -/

def Packet.bpdu (p : Packet) : Bpdu := packetBpdu p.mem p.off p.isTagged

structure BpduAccepted (s : Switch) (port : Nat) (p : Packet) (v : Nat) (f : Vlst) (pt : Port) :
    Prop where
  hub : s.hub = false
  fstp : s.fstp = true
  isBpdu : isBpdu p = true
  portv : s.portv port = some pt
  vlan : ingressVlan port pt p s = some v
  fst : s.fsttab v = some f
  edge : s.check .edge v port = false
  good : faultyBpdu p.bpdu p.len.toNat p.isTagged = false

section

variable {free quiet : Prop} {s : Switch} {port v : Nat} {p : Packet} {f : Vlst} {pt : Port}

lemma BpduAccepted.handle (h : BpduAccepted s port p v f pt) (malloc : Option Nat) :
    handleInPacket malloc port p s = goodBpdu port v p.bpdu (s.set (.rcvhist s.rcvhistindex) v port) := by
  have hgood : faultyBpdu (packetBpdu p.mem p.off p.isTagged) p.len.toNat p.isTagged = false := h.good
  unfold handleInPacket
  simp only [h.hub, Bool.false_eq_true, if_false, h.portv, h.vlan, h.isBpdu, h.fstp, Bool.and_self,
    if_true]
  unfold fstInBpdu
  simp only [h.fst, h.edge, Bool.false_eq_true, if_false, hgood]
  rfl

def election (port v : Nat) (f f' : Vlst) (b : Bpdu) (s : Switch) : Switch :=
  if compareBpdu f b = 0 then s.setFst v { f' with roottimestamp := s.now % 2 ^ 32 }
  else if 0 < compareBpdu f b ∨ (port = f.rootport ∧ compareBpdu f b < 0) then newRoot port v f' b s
  else if memcmp f.root b.root = 0 then longerPath port v b s
  else fstSendbpdu v port 0 0 0 s

lemma goodBpdu_eq (h : SwitchInv free quiet s) (hin : Ingress s v port) (hf : s.fsttab v = some f)
    (hp : s.portv port = some pt) (b : Bpdu) :
    ∃ s' tc, Effect s s' v (fun _ c => c) (fun f => { f with tctime := tc }) ∧
      goodBpdu port v b s =
        election port v f { f with tctime := tc } (addPortCost port f pt.cost b) s' := by
  have htc : ∃ tc, Effect s (if b.flags &&& 0x01 ≠ 0 then topologyChange v port s else s) v
      (fun _ c => c) (fun f => { f with tctime := tc }) := by
    split
    · exact ⟨s.now, (topologyChange_effect (h.core.ready hin.valid) port).1⟩
    refine ⟨f.tctime, { Effect.refl s v with fst := ?_ }⟩
    rw [hf]
    rfl
  unfold goodBpdu
  generalize (if b.flags &&& 0x01 ≠ 0 then topologyChange v port s else s) = s' at htc
  obtain ⟨tc, he⟩ := htc
  have hf' : s'.fsttab v = some { f with tctime := tc } := by
    rw [he.fst, hf]
    rfl
  have hp' : s'.portv port = some pt := by
    rw [portv_of_shape he.shape, hp]
  refine ⟨s', tc, he, ?_⟩
  simp only [hf', hp']
  rfl

/-! ## Roots that are not worse than the switch itself -/

def RootsOk (s : Switch) : Prop := ∀ v f, s.fsttab v = some f → memcmp f.root s.myid ≤ 0

structure RootsInv (s : Switch) : Prop where
  myid : s.myid.length = 8
  length : ∀ v f, s.fsttab v = some f → f.root.length = 8
  root : RootsOk s

lemma RootsInv.keeps (h : RootsInv s) {s' : Switch} (hk : KeepsRoots s s') : RootsInv s' := by
  refine ⟨by rw [hk.myid]; exact h.myid, fun v f' hf' => ?_, fun v f' hf' => ?_⟩
  · rcases hk.root v f' hf' with hown | ⟨f, hf, heq⟩
    · rw [hown]
      exact h.myid
    rw [heq]
    exact h.length v f hf
  rw [hk.myid]
  rcases hk.root v f' hf' with hown | ⟨f, hf, heq⟩
  · rw [hown, memcmp_self]
  rw [heq]
  exact h.root v f hf

lemma RootsInv.newRoot (h : RootsInv s) (hr : Ready s v) (hp : (s.portv port).isSome = true)
    (hf : s.fsttab v = some f) {b : Bpdu} (hlen : b.root.length = 8)
    (hroot : memcmp b.root s.myid ≤ 0) : RootsInv (newRoot port v f b s) := by
  have he := (newRoot_effect hr hp hf b).1
  have hid := myid_of_shape he.shape
  have hnew : ∀ w f', (Vde.newRoot port v f b s).fsttab w = some f' →
      f'.root = b.root ∨ s.fsttab w = some f' := by
    intro w f' hf'
    by_cases hw : w = v
    · subst hw
      rw [he.fst, hf] at hf'
      obtain rfl := some.inj hf'
      exact .inl rfl
    rw [he.fstOther w hw] at hf'
    exact .inr hf'
  refine ⟨by rw [hid]; exact h.myid, fun w f' hf' => ?_, fun w f' hf' => ?_⟩
  · rcases hnew w f' hf' with heq | hold
    · rw [heq]
      exact hlen
    · exact h.length w f' hold
  rw [hid]
  rcases hnew w f' hf' with heq | hold
  · rw [heq]
    exact hroot
  · exact h.root w f' hold

lemma compareBpdu_pos {b : Bpdu} (h : 0 < compareBpdu f b) : memcmp b.root f.root ≤ 0 := by
  have hswap := memcmp_swap f.root b.root
  unfold compareBpdu at h
  dsimp only at h
  split at h
  · omega
  next hzero =>
  rw [not_not] at hzero
  omega

lemma addPortCost_root (port : Nat) (f : Vlst) (cost : Int) (b : Bpdu) :
    (addPortCost port f cost b).root = b.root := rfl

lemma packetBpdu_root (p : Packet) : p.bpdu.root.length = 8 := by
  simp [Packet.bpdu, packetBpdu, bpduAt, readBytes]

def SwitchEvent.Demotes (s : Switch) : SwitchEvent → Prop
  | packet port stack frame _ =>
    ∃ v f pt, BpduAccepted s port (recvPacket stack frame) v f pt ∧ port = f.rootport ∧
      0 < memcmp (recvPacket stack frame).bpdu.root s.myid
  | _ => False

lemma Effect.keepsRoots {s' : Switch} {g : Nat → Cell → Cell} {F : Vlst → Vlst}
    (he : Effect s s' v g F) (hF : ∀ f, (F f).root = f.root) : KeepsRoots s s' := by
  refine ⟨myid_of_shape he.shape, fun w f' hf' => .inr ?_⟩
  by_cases hw : w = v
  · subst hw
    rw [he.fst, map_eq_some_iff] at hf'
    obtain ⟨f, hf, rfl⟩ := hf'
    exact ⟨f, hf, hF f⟩
  rw [he.fstOther w hw] at hf'
  exact ⟨f', hf', rfl⟩

section

variable (h : BpduAccepted s port p v f pt) (hs : SwitchInv free quiet s) (ha : s.active port = true)

include h hs ha

lemma BpduAccepted.noted
    :
    let s1 := s.set (.rcvhist s.rcvhistindex) v port
    SwitchInv free quiet s1 ∧ Ingress s1 v port ∧ KeepsRoots s s1 ∧ s1.fsttab v = some f ∧
      s1.portv port = some pt := by
  have hin := ingress_of_ingressVlan hs h.portv ha h.vlan
  obtain ⟨h1, hin1⟩ := rcvhist_inv hs hin s.rcvhistindex
  have he := set_effect ((hs.core.ready hin.valid).tabs (.rcvhist s.rcvhistindex)) port
  refine ⟨h1, hin1, rootsFrame.set _ _ _ s, ?_, ?_⟩
  · rw [set_fsttab]
    exact h.fst
  rw [portv_of_shape he.shape]
  exact h.portv

lemma BpduAccepted.elected
    (malloc : Option Nat) :
    ∃ s2 tc, SwitchInv free quiet s2 ∧ s2.valid v = true ∧ KeepsRoots s s2 ∧
      s2.fsttab v = some { f with tctime := tc } ∧ s2.portv port = some pt ∧
      handleInPacket malloc port p s =
        election port v f { f with tctime := tc } (addPortCost port f pt.cost p.bpdu) s2 := by
  obtain ⟨h1, hin1, hk1, hf1, hp1⟩ := h.noted hs ha
  obtain ⟨s2, tc, he, heq⟩ := goodBpdu_eq h1 hin1 hf1 hp1 p.bpdu
  refine ⟨s2, tc, h1.effectNone hin1.valid he, ?_, hk1.trans (he.keepsRoots fun _ => rfl), ?_, ?_, ?_⟩
  · rw [valid_of_shape he.shape]
    exact hin1.valid
  · rw [he.fst, hf1]
    rfl
  · rw [portv_of_shape he.shape]
    exact hp1
  · rw [h.handle]
    exact heq

lemma BpduAccepted.rootsInv (hroots : RootsInv s) (hdem : port = f.rootport → memcmp p.bpdu.root s.myid ≤ 0)
    (malloc : Option Nat) : RootsInv (handleInPacket malloc port p s) := by
  obtain ⟨s2, tc, h2, hv2, hk2, hf2, hp2, heq⟩ := h.elected hs ha malloc
  have hr2 := h2.core.ready hv2
  have hroots2 := hroots.keeps hk2
  have hbroot := addPortCost_root port f pt.cost p.bpdu
  rw [heq]
  unfold election
  generalize addPortCost port f pt.cost p.bpdu = b at hbroot
  have hlen : b.root.length = 8 := by
    rw [hbroot]
    exact packetBpdu_root p
  split
  · exact hroots2.keeps (.setFst (.inr ⟨_, hf2, rfl⟩))
  split
  · next hbranch =>
    apply hroots2.newRoot hr2 (by simp [hp2]) hf2 hlen
    rw [hk2.myid]
    rcases hbranch with hbetter | ⟨hport, -⟩
    · exact memcmp_trans (hlen.trans (hroots.length v f h.fst).symm)
        ((hroots.length v f h.fst).trans hroots.myid.symm) (compareBpdu_pos hbetter)
        (hroots.root v f h.fst)
    rw [hbroot]
    exact hdem hport
  split
  · exact hroots2.keeps (rootsFrame.longerPath port v _ s2)
  · exact hroots2.keeps (rootsFrame.sendbpdu v port 0 0 0 s2)

lemma BpduAccepted.demoted (hroots : RootsInv s) (hport : port = f.rootport)
    (hworse : 0 < memcmp p.bpdu.root s.myid) (malloc : Option Nat) : ¬RootsOk (handleInPacket malloc port p s) := by
  obtain ⟨s2, tc, h2, hv2, hk2, hf2, hp2, heq⟩ := h.elected hs ha malloc
  have hr2 := h2.core.ready hv2
  -- the stored root is at most the switch, so it is better than the announced one
  have hlt : memcmp f.root p.bpdu.root < 0 := by
    by_contra hge
    have hle : memcmp p.bpdu.root f.root ≤ 0 := by
      rw [memcmp_swap]
      omega
    have := memcmp_trans ((packetBpdu_root p).trans (hroots.length v f h.fst).symm)
      ((hroots.length v f h.fst).trans hroots.myid.symm) hle (hroots.root v f h.fst)
    omega
  have hval : compareBpdu f (addPortCost port f pt.cost p.bpdu) < 0 := by
    unfold compareBpdu
    simp only [addPortCost_root]
    rw [if_pos (by omega)]
    exact hlt
  rw [heq, election, if_neg (by omega), if_pos (.inr ⟨hport, hval⟩)]
  intro hok
  have hnew := (newRoot_effect hr2 (show (s2.portv port).isSome = true by simp [hp2]) hf2
    (addPortCost port f pt.cost p.bpdu)).1
  have hroot := hok v _ (by rw [hnew.fst, hf2]; rfl)
  rw [myid_of_shape hnew.shape, hk2.myid] at hroot
  have hstored : (newRootVlst s2 (resetsFirst { f with tctime := tc } s2) port
      (addPortCost port f pt.cost p.bpdu) { f with tctime := tc }).root = p.bpdu.root := rfl
  rw [hstored] at hroot
  omega

end

lemma keepsRoots_packet (h : SwitchInv free quiet s) (ha : s.active port = true) {malloc : Option Nat}
    (hmalloc : ∀ a, malloc = some a → s.hash.heap.cells a = none) (hno : ∀ v f pt, ¬BpduAccepted s port p v f pt) :
    KeepsRoots s (handleInPacket malloc port p s) := by
  cases hhub : s.hub with
  | true =>
    obtain ⟨l, hl⟩ := hubPacket_eq port p s
    unfold handleInPacket
    rw [if_pos hhub, hl]
    exact .of_eq rfl rfl
  | false =>
    obtain ⟨pt, hp⟩ := isSome_iff_exists.mp (isSome_of_active ha)
    unfold handleInPacket
    simp only [hhub, Bool.false_eq_true, if_false, hp]
    cases hv : ingressVlan port pt p s with
    | none => exact .refl s
    | some v =>
      have hin := ingress_of_ingressVlan h hp ha hv
      dsimp only
      split
      · next hbpdu =>
        rw [Bool.and_eq_true] at hbpdu
        obtain ⟨f, hf⟩ := ne_none_iff_exists'.mp (h.core.ready hin.valid).fst
        unfold fstInBpdu
        simp only [hf]
        split
        · exact .refl s
        next hedge =>
        split
        · exact rootsFrame.set _ _ _ s
        next hgood =>
        exact absurd ⟨hhub, hbpdu.2, hbpdu.1, hp, hv, hf, by simpa using hedge,
          (Bool.not_eq_true _).mp hgood⟩ (hno v f pt)
      split
      · exact .refl s
      next hn =>
      rw [switchPacket_eq h hin (by simpa using hn) hmalloc]
      exact .of_eq rfl rfl

lemma SwitchStart.rootsInv (h : SwitchStart s) : RootsInv s := by
  obtain ⟨numports, switchmac, priority, hub, fstp, hashSize, now, -, hmac, -, -, -, rfl⟩ := h
  have hbase : ∀ s0 : Switch, s0.fsttab = (fun _ => none) → s0.myid.length = 8 → RootsInv s0 := by
    intro s0 hfst hid
    refine ⟨hid, fun v f hf => ?_, fun v f hf => ?_⟩ <;>
      · rw [hfst] at hf
        exact absurd hf (by simp)
  unfold portInit
  refine RootsInv.keeps ?_ (rootsFrame.create 0 _)
  cases fstp with
  | true => exact hbase _ rfl (by simp [fstinitpkt, hmac])
  | false => exact hbase _ rfl (by simp [hmac])

/-- The roots of a run are never worse than the switch exactly when no BPDU on a root port announces
a root that is. -/
theorem root_never_worse (belongs : BitVec 32 → BitVec 32 → Bool) (hs : SwitchStart s) (es : List SwitchEvent)
    (hes : (switchMachine belongs).Along (switchMachine belongs).enabled s es) :
    (switchMachine belongs).Always RootsOk s es ↔ (switchMachine belongs).Along (fun s e => ¬e.Demotes s) s es := by
  apply Machine.always_iff_along
    (fun s => (s.trap = true ∨ SwitchInv False False s) ∧ RootsInv s) _ _ _
    ⟨.inr hs.inv, hs.rootsInv⟩ es hes
  · exact fun s h => h.2.root
  · rintro s e ⟨hinv, hroots⟩ ⟨hlive, hlegal⟩ hdem
    have h := hinv.resolve_left (by simp [hlive])
    refine ⟨?_, ?_⟩
    · by_cases horphan : e.Orphans s
      · exact .inl (apply_trap belongs h horphan)
      · exact .inr (apply_inv belongs h hlegal False.elim horphan False.elim)
    have hother : (∀ port stack frame malloc, e ≠ .packet port stack frame malloc) →
        RootsInv (e.apply belongs s) := fun he => hroots.keeps (keepsRoots_apply belongs s he)
    cases e with
    | packet port stack frame malloc =>
      by_cases hacc : ∃ v f pt, BpduAccepted s port (recvPacket stack frame) v f pt
      · obtain ⟨v, f, pt, hacc⟩ := hacc
        apply hacc.rootsInv h hlegal.1 hroots
        intro hport
        by_contra hworse
        exact hdem ⟨v, f, pt, hacc, hport, by omega⟩
      apply hroots.keeps (keepsRoots_packet h hlegal.1 hlegal.2.2.2 _)
      exact fun v f pt hbpdu => hacc ⟨v, f, pt, hbpdu⟩
    | _ => exact hother nofun
  rintro s e ⟨hinv, hroots⟩ ⟨hlive, hlegal⟩ hdem
  have h := hinv.resolve_left (by simp [hlive])
  cases e with
  | packet port stack frame malloc =>
    obtain ⟨v, f, pt, hacc, hport, hworse⟩ := not_not.mp hdem
    exact hacc.demoted h hlegal.1 hroots hport hworse malloc
  | _ => exact absurd id hdem

end

def electRun : List SwitchEvent :=
  [.setupEp 1 10 10 0, .packet 1 (fun _ => 0) (bpduFrame 1 1 0) none]

lemma electRun_enabled : (switchMachine noGroups).Along
    (switchMachine noGroups).enabled (freshSwitch true) electRun :=
  ⟨⟨rfl, trivial⟩, ⟨by decide +kernel, by decide +kernel, by decide, by decide, nofun⟩, trivial⟩

theorem root_never_worse_electRun : (switchMachine noGroups).Always RootsOk (freshSwitch true) electRun := by
  apply (root_never_worse noGroups (freshSwitch_start true) electRun electRun_enabled).mpr
  refine ⟨id, ?_, trivial⟩
  rintro ⟨v, f, pt, -, -, hworse⟩
  exact absurd hworse (by decide +kernel)

def demoteRun : List SwitchEvent :=
  electRun ++ [.packet 1 (fun _ => 0) (bpduFrame 0xff 1 0) none]

theorem root_demoted : SwitchStart (freshSwitch true) ∧
    (switchMachine noGroups).Along (switchMachine noGroups).enabled (freshSwitch true) demoteRun ∧
    ((switchMachine noGroups).run (freshSwitch true) demoteRun).fstp = true ∧
    ¬(switchMachine noGroups).Always RootsOk (freshSwitch true) demoteRun := by
  refine ⟨freshSwitch_start true, electRun_enabled.append
    ⟨⟨by decide +kernel, by decide +kernel, by decide, by decide, nofun⟩, trivial⟩,
    by decide +kernel, fun h => ?_⟩
  have hworse : (((switchMachine noGroups).run (freshSwitch true) demoteRun).fsttab 0).any (fun f =>
      decide (0 < memcmp f.root ((switchMachine noGroups).run (freshSwitch true) demoteRun).myid)) =
        true := by
    decide +kernel
  obtain ⟨f, hf, hlt⟩ := (any_eq_true _ _).mp hworse
  rw [decide_eq_true_eq] at hlt
  have hle := h.last 0 f hf
  omega

/-! ## The ports after an election -/

def takesNewRoot (port : Nat) (f : Vlst) (pt : Port) (b : Bpdu) : Prop :=
  let val := compareBpdu f (addPortCost port f pt.cost b)
  0 < val ∨ (port = f.rootport ∧ val < 0)

section

variable {free quiet : Prop} {s : Switch} {r v : Nat} {p : Packet} {f : Vlst} {pt : Port}

lemma CellInv.blockLoops {e a u va : Bool} {c : Cell} (h : CellInv free quiet e a u va c)
    (ha : a = true) (ht : c .table = true) (hedge : c .edge = false)
    (hact : (c (.rcvhist false) || c (.rcvhist true)) = true) {q : Nat} (hq : q ≠ r) :
    let c' := blockLoopCell .tagged r q (blockLoopCell .untag r q c)
    c' .backup = true ∧ c' .notlearning = true ∧ c' .bctag = false ∧ c' .bcuntag = false := by
  have hblock : ∀ t, c t = true → c .backup = false → blockLoopCell t r q c = blockCell c := by
    intro t hct hb
    simp [blockLoopCell, designatedCell, hct, hb, hedge, hact, hq]
  have hblocked : blockCell c .backup = true ∧ blockCell c .notlearning = true ∧
      blockCell c .bctag = false ∧ blockCell c .bcuntag = false := by
    simp [blockCell, statusCell, ht]
  have huntag := h.untag
  have htagged := h.tagged
  rw [ha] at huntag htagged
  cases hb : c .backup with
  | true =>
    obtain ⟨hn, hbt, hbu⟩ := h.blocked hb hedge
    have hsame : ∀ t, blockLoopCell t r q c = c := by
      intro t
      simp [blockLoopCell, designatedCell, hb]
    rw [hsame, hsame]
    exact ⟨hb, hn, hbt, hbu⟩
  | false =>
    cases hu : u with
    | true =>
      rw [hu] at huntag htagged
      have hstay : blockLoopCell .tagged r q (blockCell c) = blockCell c := by
        simp [blockLoopCell, blockCell, statusCell, ht, htagged]
      rw [hblock .untag huntag hb, hstay]
      exact hblocked
    | false =>
      rw [hu, ht] at htagged
      rw [hu] at huntag
      have hstay : blockLoopCell .untag r q c = c := by
        simp [blockLoopCell, huntag]
      rw [hstay, hblock .tagged htagged hb]
      exact hblocked

lemma blockLoopCell_other (t : Tab) (r q : Nat) (c : Cell) {t' : Tab} (ht : t'.isStatus = false)
    (hb : t' ≠ .backup) : blockLoopCell t r q c t' = c t' := by
  unfold blockLoopCell
  split
  · split
    · rw [blockCell, Function.update_of_ne hb, statusCell_other _ _ _ ht]
    · rfl
  · rfl

lemma BpduAccepted.newRoot (h : BpduAccepted s r p v f pt) (hs : SwitchInv free quiet s)
    (ha : s.active r = true) (hnew : takesNewRoot r f pt p.bpdu) (malloc : Option Nat) :
    (∀ q, q ≠ r → (handleInPacket malloc r p s).active q = true →
      (handleInPacket malloc r p s).check .table v q = true →
      (handleInPacket malloc r p s).check .edge v q = false →
      fstpActive v q (handleInPacket malloc r p s) = true →
      let c := (handleInPacket malloc r p s).cell v q
      c .backup = true ∧ c .notlearning = true ∧ c .bctag = false ∧ c .bcuntag = false) ∧
      HashClear v (handleInPacket malloc r p s).hash := by
  obtain ⟨s2, tc, h2, hv2, -, hf2, hp2, heq⟩ := h.elected hs ha malloc
  unfold takesNewRoot at hnew
  dsimp only at hnew
  rw [heq, election, if_neg (by omega), if_pos hnew]
  obtain ⟨hn, hclear⟩ :=
    newRoot_effect (h2.core.ready hv2) (isSome_of_mem hp2) hf2 (addPortCost r f pt.cost p.bpdu)
  refine ⟨fun q hq hact htab hedge hspeaks => ?_, hclear h2.core.hash⟩
  -- the cell before the loops: as it was, or opened by the reset of the VLAN
  have hcell := hn.cell q
  unfold newRootCell fastCell at hcell
  rw [atPort, if_neg hq] at hcell
  have hc : CellInv free quiet (s2.portv q).isSome (s2.active q) (s2.untagged v q) true
      (if resetsFirst { f with tctime := tc } s2 then newvlanCell (s2.untagged v q) (s2.cell v q)
        else s2.cell v q) := by
    split
    · exact (h2.core.cellOk hv2 q).newvlan
    · exact h2.core.cellOk hv2 q
  rw [hcell]
  have hother := fun (t : Tab) (ht : t.isStatus = false) (hb : t ≠ .backup) =>
    (congrFun hcell t).trans ((blockLoopCell_other .tagged r q _ ht hb).trans
      (blockLoopCell_other .untag r q _ ht hb))
  rw [active_of_shape hn.shape] at hact
  refine hc.blockLoops hact ((hother .table rfl (by simp)).symm.trans htab)
    ((hother .edge rfl (by simp)).symm.trans hedge) ?_ hq
  rw [← hother (.rcvhist false) rfl (by simp), ← hother (.rcvhist true) rfl (by simp)]
  exact hspeaks

/-- After a BPDU that changes the root, only the new root port, edge ports and ports that have not
heard a BPDU forward; the other active members of the VLAN are blocked, and nothing is learned. -/
theorem newRoot_blocks_first (belongs : BitVec 32 → BitVec 32 → Bool)
    (hs : (switchMachine belongs).Reach SwitchStart s) (hlive : s.trap = false) {stack : Mem}
    {frame : List UInt8} {malloc : Option Nat}
    (hlegal : (SwitchEvent.packet r stack frame malloc).Legal s)
    (hacc : BpduAccepted s r (recvPacket stack frame) v f pt)
    (hnew : takesNewRoot r f pt (recvPacket stack frame).bpdu) :
    let s' := (switchMachine belongs).step s (.packet r stack frame malloc)
    (∀ q, s'.check .bctag v q = true ∨ s'.check .bcuntag v q = true →
        q = r ∨ s'.check .edge v q = true ∨ fstpActive v q s' = false) ∧
      (∀ q, q ≠ r → s'.check .edge v q = false → fstpActive v q s' = true →
        s'.active q = true → s'.check .table v q = true →
        portGetStatus q v s' = .discarding ∧ s'.check .backup v q = true) ∧
      HashClear v s'.hash := by
  intro s'
  have h := live_inv belongs hs hlive
  have h' : SwitchInv False False s' := handleInPacket_inv h False.elim hlegal.1 hlegal.2.2.2 _
  have hin := ingress_of_ingressVlan h hacc.portv hlegal.1 hacc.vlan
  obtain ⟨hblock, hclear⟩ := hacc.newRoot h hlegal.1 hnew malloc
  refine ⟨fun q hq => ?_, fun q hqr hedge hspeaks hact htab => ?_, hclear⟩
  · by_contra hno
    simp only [not_or, Bool.not_eq_true, Bool.not_eq_false] at hno
    obtain ⟨hqr, hedge, hspeaks⟩ := hno
    have hcell := h'.core.cells v q (h.core.ne_noVlan hin.valid)
    have hmem : s'.active q = true ∧ s'.check .table v q = true := by
      rcases hq with hq | hq
      · exact ⟨(hcell.bctag hq).1, (hcell.bctag hq).2.1⟩
      obtain ⟨ha, hu⟩ := hcell.bcuntag hq
      exact ⟨ha, (hcell.own (isSome_of_active ha) hu).2⟩
    obtain ⟨-, -, hbt, hbu⟩ := hblock q hqr hmem.1 hmem.2 hedge hspeaks
    rcases hq with hq | hq
    · exact absurd (hbt.symm.trans hq) (by simp)
    · exact absurd (hbu.symm.trans hq) (by simp)
  obtain ⟨hb, hn, -, -⟩ := hblock q hqr hact htab hedge hspeaks
  have hdisc : s'.check .notlearning v q = true := hn
  exact ⟨by simp [portGetStatus, hdisc], hb⟩

lemma exists_bpduAccepted (hhub : s.hub = false) (hfstp : s.fstp = true) (hbpdu : isBpdu p = true)
    (hedge : s.check .edge v r = false)
    (hgood : faultyBpdu p.bpdu p.len.toNat p.isTagged = false)
    (hval : (s.fsttab v).any (fun f => (s.portv r).any (fun pt =>
      decide (ingressVlan r pt p s = some v ∧
        0 < compareBpdu f (addPortCost r f pt.cost p.bpdu)))) = true) :
    ∃ f pt, BpduAccepted s r p v f pt ∧ takesNewRoot r f pt p.bpdu := by
  obtain ⟨f, hf, hval⟩ := (any_eq_true _ _).mp hval
  obtain ⟨pt, hp, hval⟩ := (any_eq_true _ _).mp hval
  rw [decide_eq_true_eq] at hval
  exact ⟨f, pt, ⟨hhub, hfstp, hbpdu, hp, hval.1, hf, hedge, hgood⟩, .inl hval.2⟩

end

def secondRun : List SwitchEvent :=
  [.setupEp 1 10 10 0, .setupEp 2 11 11 0, .packet 2 (fun _ => 0) (bpduFrame 2 2 0) none]

def secondState : Switch := (switchMachine noGroups).run (freshSwitch true) secondRun

lemma secondRun_enabled :
    (switchMachine noGroups).Along (switchMachine noGroups).enabled (freshSwitch true) secondRun :=
  ⟨⟨rfl, trivial⟩, ⟨by decide +kernel, trivial⟩,
    ⟨by decide +kernel, by decide +kernel, by decide, by decide, nofun⟩, trivial⟩

theorem newRoot_blocks_first_secondRun : ∃ f pt,
    BpduAccepted secondState 1 (recvPacket (fun _ => 0) (bpduFrame 1 1 0)) 0 f pt ∧
    takesNewRoot 1 f pt (recvPacket (fun _ => 0) (bpduFrame 1 1 0)).bpdu ∧
    portGetStatus 2 0 ((switchMachine noGroups).step secondState (.packet 1 (fun _ => 0) (bpduFrame 1 1 0) none)) =
    .discarding := by
  obtain ⟨f, pt, hacc, hnew⟩ := exists_bpduAccepted (s := secondState) (r := 1)
    (p := recvPacket (fun _ => 0) (bpduFrame 1 1 0)) (v := 0) (by decide +kernel)
    (by decide +kernel) (by decide +kernel) (by decide +kernel) (by decide +kernel)
    (by decide +kernel)
  have hlegal : (SwitchEvent.packet 1 (fun _ => 0) (bpduFrame 1 1 0) none).Legal secondState :=
    ⟨by decide +kernel, by decide, by decide, nofun⟩
  have h := newRoot_blocks_first noGroups
    ((Machine.Reach.init _ (freshSwitch_start true)).run secondRun secondRun_enabled)
    (by decide +kernel) hlegal hacc hnew
  exact ⟨f, pt, hacc, hnew, (h.2.1 2 (by decide) (by decide +kernel) (by decide +kernel)
    (by decide +kernel) (by decide +kernel)).1⟩

def closedState : Switch :=
  (switchMachine noGroups).run (freshSwitch true) (secondRun ++ [.closeEp 2 11])

theorem newRoot_closed_port :
    (switchMachine noGroups).Reach SwitchStart closedState ∧ closedState.trap = false ∧
      (SwitchEvent.packet 1 (fun _ => 0) (bpduFrame 1 1 0) none).Legal closedState ∧
      (∃ f pt, BpduAccepted closedState 1 (recvPacket (fun _ => 0) (bpduFrame 1 1 0)) 0 f pt ∧
        takesNewRoot 1 f pt (recvPacket (fun _ => 0) (bpduFrame 1 1 0)).bpdu) ∧
      let s' := (switchMachine noGroups).step closedState
        (.packet 1 (fun _ => 0) (bpduFrame 1 1 0) none)
      ¬∀ q, q ≠ 1 → s'.check .edge 0 q = false → fstpActive 0 q s' = true →
        portGetStatus q 0 s' = .discarding ∧ s'.check .backup 0 q = true := by
  have henabled : (switchMachine noGroups).Along (switchMachine noGroups).enabled
      (freshSwitch true) (secondRun ++ [.closeEp 2 11]) :=
    secondRun_enabled.append ⟨⟨by decide +kernel, trivial⟩, trivial⟩
  refine ⟨(Machine.Reach.init _ (freshSwitch_start true)).run _ henabled, by decide +kernel,
    ⟨by decide +kernel, by decide, by decide, nofun⟩, ?_, fun h => ?_⟩
  · exact exists_bpduAccepted (by decide +kernel) (by decide +kernel) (by decide +kernel)
      (by decide +kernel) (by decide +kernel) (by decide +kernel)
  have hb := (h 2 (by decide) (by decide +kernel) (by decide +kernel)).2
  revert hb
  decide +kernel

end Vde
