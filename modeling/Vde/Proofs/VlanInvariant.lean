import Vde.Proofs.LeaveInvariant

/-!
# Leaving and joining VLANs

The commands that move ports between VLANs and those that create and remove VLANs. `Works` composes
changes made in different VLANs, as `portsetvlan` makes them in the old and the new VLAN of a port.
-/

namespace Vde

open Function

/-- The cells of `s'` are those of `s` changed by `h`; VLANs in use stay ready all the time. -/
structure Works (s s' : Switch) (h : Nat → Nat → Cell → Cell) : Prop where
  reworks : Reworks s s'
  vlans : VlansOk s'
  cell : ∀ v q, v ≠ noVlan → s'.cell v q = h v q (s.cell v q)

def atVlan (v : Nat) (g : Nat → Cell → Cell) : Nat → Nat → Cell → Cell :=
  fun w q c => if w = v then g q c else c

section

variable {s s' s'' : Switch} {h h' : Nat → Nat → Cell → Cell} {v p : Nat} {g : Nat → Cell → Cell}
  {F : Vlst → Vlst}

lemma Works.trans (hw : Works s s' h) (hw' : Works s' s'' h') : Works s s'' (fun v q c => h' v q (h v q c)) where
  reworks := hw.reworks.trans hw'.reworks
  vlans := hw'.vlans
  cell w q hne := by rw [hw'.cell w q hne, hw.cell w q hne]

lemma Effect.works (he : Effect s s' v g F) (hs : VlansOk s) (hr : Ready s' v) : Works s s' (atVlan v g) where
  reworks := he.reworks
  vlans := hs.effect he hr
  cell w q _ := by
    unfold atVlan
    split
    · next hw =>
      rw [hw]
      exact he.cell q
    · next hw => exact he.other w q hw

lemma Effect.worksAt {b : Cell → Cell} (he : Effect s s' v (atPort p b) F) (hs : VlansOk s) (hv : s.valid v = true)
    (hp : (s.portv p).isSome = true) : Works s s' (atVlan v (atPort p b)) :=
  he.works hs ((hs.ready v hv).effectAt he hp)

lemma Works.whenVlan (hs : VlansOk s) (hw : v ≠ noVlan → Works s s' (atVlan v g)) :
    Works s (if v ≠ noVlan then s' else s) (atVlan v g) := by
  by_cases hv : v = noVlan
  · rw [if_neg (by simpa using hv)]
    refine ⟨Reworks.refl s, hs, fun w q hne => ?_⟩
    rw [atVlan, if_neg (by rwa [hv])]
  rw [if_pos hv]
  exact hw hv

lemma Works.valid (hw : Works s s' h) (v : Nat) : s'.valid v = s.valid v :=
  valid_of_shape hw.reworks.shape v

lemma Works.isSome (hw : Works s s' h) (hp : (s.portv p).isSome = true) : (s'.portv p).isSome = true := by
  rwa [portv_of_shape hw.reworks.shape]

lemma fstdelport_works (hs : VlansOk s) (hv : s.valid v = true) (hp : (s.portv p).isSome = true) :
    ∃ root, Works s (fstdelport v p s) (atVlan v (delPlane (s.untagged v) root p)) := by
  have hr := hs.ready v hv
  obtain ⟨f, hf⟩ := Option.ne_none_iff_exists'.mp hr.fst
  have he := (fstdelport_effect hr hp hf).1
  exact ⟨_, he.works hs (hr.delPlane he)⟩

end

/-! ## Moving a port to another VLAN -/

def quitCell (active : Bool) (c : Cell) : Cell :=
  update (if active then delCell (update c .bcuntag false) else c) .table false

def enterCell (active : Bool) (c : Cell) : Cell :=
  update (if active then
    addCell false (update (update c .bcuntag true) .bctag false) else c) .table true

lemma moveActive_works {s : Switch} (hs : VlansOk s) {old v i : Nat}
    (hp : (s.portv i).isSome = true) (hold : old ≠ noVlan → s.valid old = true)
    (hv : v ≠ noVlan → s.valid v = true) :
    ∃ root, Works s
      (let s := if old ≠ noVlan then s.clr .bcuntag old i else s
       let s := if v ≠ noVlan then (s.set .bcuntag v i).clr .bctag v i else s
       let s := if old ≠ noVlan then fstdelport old i s else s
       if v ≠ noVlan then fstaddport v i false s else s)
      (fun w q c =>
        atVlan v (atPort i (addCell false)) w q
          (atVlan old (delPlane (s.untagged old) root i) w q
            (atVlan v (atPort i (fun c => update (update c .bcuntag true) .bctag
              false)) w q
              (atVlan old (atPort i (fun c => update c .bcuntag false)) w q c)))) := by
  dsimp only
  have h1 : Works s (if old ≠ noVlan then s.clr .bcuntag old i else s)
      (atVlan old (atPort i (fun c => update c .bcuntag false))) := by
    apply Works.whenVlan hs
    intro hne
    exact (clr_effect ((hs.ready old (hold hne)).tabs .bcuntag) i).worksAt hs (hold hne) hp
  generalize (if old ≠ noVlan then s.clr .bcuntag old i else s) = s1 at h1
  have h2 : Works s1 (if v ≠ noVlan then (s1.set .bcuntag v i).clr .bctag v i else s1)
      (atVlan v (atPort i (fun c => update (update c .bcuntag true) .bctag
        false))) := by
    apply Works.whenVlan h1.vlans
    intro hne
    have hv1 : s1.valid v = true := by rw [h1.valid, hv hne]
    have hr := h1.vlans.ready v hv1
    exact (((Effect.start s1 v i).set hr .bcuntag).clr hr .bctag).worksAt h1.vlans hv1 (h1.isSome hp)
  have h12 := h1.trans h2
  generalize (if v ≠ noVlan then (s1.set .bcuntag v i).clr .bctag v i else s1) = s2 at h2 h12
  have h3 : ∃ root, Works s2 (if old ≠ noVlan then fstdelport old i s2 else s2)
      (atVlan old (delPlane (s.untagged old) root i)) := by
    have hu : s2.untagged old = s.untagged old := by
      funext q
      rw [untagged_of_shape h12.reworks.shape]
    by_cases hne : old = noVlan
    · refine ⟨false, Works.whenVlan h12.vlans (fun h => absurd hne h)⟩
    obtain ⟨root, hroot⟩ := fstdelport_works (p := i) h12.vlans
      (by rw [h12.valid, hold hne]) (h12.isSome hp)
    rw [hu] at hroot
    exact ⟨root, Works.whenVlan h12.vlans (fun _ => hroot)⟩
  obtain ⟨root, h3⟩ := h3
  have h123 := h12.trans h3
  generalize (if old ≠ noVlan then fstdelport old i s2 else s2) = s3 at h3 h123
  have h4 : Works s3 (if v ≠ noVlan then fstaddport v i false s3 else s3)
      (atVlan v (atPort i (addCell false))) := by
    apply Works.whenVlan h123.vlans
    intro hne
    have hv3 : s3.valid v = true := by rw [h123.valid, hv hne]
    exact (fstaddport_effect (h123.vlans.ready v hv3) (h123.isSome hp) false).1.worksAt h123.vlans
      hv3 (h123.isSome hp)
  exact ⟨root, h123.trans h4⟩

lemma moveTables_spec {s : Switch} (hs : VlansOk s) {v i : Nat} (hp : (s.portv i).isSome = true)
    (port : Port) (hold : port.vlanuntag ≠ noVlan → s.valid port.vlanuntag = true)
    (hv : v ≠ noVlan → s.valid v = true) :
    Reworks s (moveTables i port v s) ∧
      (∀ w, w ≠ noVlan → (moveTables i port v s).cell w i =
        if w = v then enterCell (port.ep ≠ []) (s.cell w i)
        else if w = port.vlanuntag then quitCell (port.ep ≠ []) (s.cell w i) else s.cell w i) ∧
      ∀ w q, w ≠ noVlan → q ≠ i → (moveTables i port v s).cell w q = s.cell w q ∨
        (moveTables i port v s).cell w q = newvlanCell (s.untagged w q) (s.cell w q) := by
  unfold moveTables
  dsimp only
  generalize port.vlanuntag = old at hold
  -- the tables of members come last, for inactive ports as well
  have hfirst : ∃ k, Works s (if port.ep ≠ [] then
        (let s := if old ≠ noVlan then s.clr .bcuntag old i else s
         let s := if v ≠ noVlan then (s.set .bcuntag v i).clr .bctag v i else s
         let s := if old ≠ noVlan then fstdelport old i s else s
         if v ≠ noVlan then fstaddport v i false s else s) else s) k ∧
      (∀ w c, k w i c = if port.ep ≠ [] then
        atVlan v (fun _ => addCell false) w i (atVlan old (fun _ => delCell) w i
          (atVlan v (fun _ c => update (update c .bcuntag true) .bctag false) w i
            (atVlan old (fun _ c => update c .bcuntag false) w i c))) else c) ∧
      ∀ w q c, q ≠ i → k w q c = c ∨ k w q c = newvlanCell (s.untagged w q) c := by
    by_cases hact : port.ep ≠ []
    · obtain ⟨root, hw⟩ := moveActive_works hs hp hold hv
      simp only [if_pos hact]
      refine ⟨_, hw, fun w c => ?_, fun w q c hq => ?_⟩
      · unfold atVlan atPort
        simp only [delPlane_self, if_true]
      simp only [atVlan, atPort, hq, if_false, ite_self]
      split
      · next hwo =>
        rw [delPlane_other hq, hwo]
        split
        · exact .inr rfl
        · exact .inl rfl
      · exact .inl rfl
    simp only [if_neg hact]
    exact ⟨fun _ _ c => c, ⟨Reworks.refl s, hs, fun _ _ _ => rfl⟩, fun _ _ => rfl,
      fun _ _ _ _ => .inl rfl⟩
  obtain ⟨k, h1, hself, hother⟩ := hfirst
  dsimp only at h1
  generalize (if port.ep ≠ [] then _ else s) = s1 at h1
  have h2 : Works s1 (if old ≠ noVlan then s1.clr .table old i else s1)
      (atVlan old (atPort i (fun c => update c .table false))) := by
    apply Works.whenVlan h1.vlans
    intro hne
    have hv1 : s1.valid old = true := by rw [h1.valid, hold hne]
    exact (clr_effect ((h1.vlans.ready old hv1).tabs .table) i).worksAt h1.vlans hv1 (h1.isSome hp)
  have h12 := h1.trans h2
  generalize (if old ≠ noVlan then s1.clr .table old i else s1) = s2 at h2 h12
  have h3 : Works s2 (if v ≠ noVlan then s2.set .table v i else s2)
      (atVlan v (atPort i (fun c => update c .table true))) := by
    apply Works.whenVlan h12.vlans
    intro hne
    have hv2 : s2.valid v = true := by rw [h12.valid, hv hne]
    exact (set_effect ((h12.vlans.ready v hv2).tabs .table) i).worksAt h12.vlans hv2 (h12.isSome hp)
  have hall := h12.trans h3
  refine ⟨hall.reworks, fun w hw => ?_, fun w q hw hq => ?_⟩
  · rw [hall.cell w i hw, hself]
    by_cases hwv : w = v
    · subst hwv
      by_cases hwo : w = old
      · subst hwo
        simp only [atVlan, atPort, if_true, enterCell, update_idem]
        by_cases hact : port.ep = []
        · simp [hact]
        · simp only [ne_eq, hact, not_false_eq_true, decide_true, if_true]
          congr 1
          funext t
          cases t <;> simp [addCell, delCell]
      · by_cases hact : port.ep = [] <;> simp [atVlan, atPort, hwo, enterCell, hact]
    by_cases hwo : w = old
    · subst hwo
      by_cases hact : port.ep = [] <;> simp [atVlan, atPort, hwv, quitCell, hact]
    · by_cases hact : port.ep = [] <;> simp [atVlan, hwv, hwo, hact]
  rw [hall.cell w q hw]
  simp only [atVlan, atPort, hq, if_false, ite_self]
  exact hother w q _ hq

variable {a u : Bool} {c : Cell}

section

variable {free quiet : Prop} {s : Switch} {i : Nat}

lemma CellInv.enter (h : CellInv free quiet true a u true c)
    (hfree : free → a = true → c .notlearning = false) : CellInv free quiet true a true true (enterCell a c) := by
  have hsilent : quiet → c .notlearning = false := fun hq => (h.silent hq).1
  cases a with
  | true =>
    constructor
    case learns => simpa [enterCell, addCell] using hfree
    case silent => simpa [enterCell, addCell] using hsilent
    all_goals simp [enterCell, addCell]
  | false =>
    obtain ⟨hbcuntag, hbctag, huntag, htagged, hbackup⟩ := h.inactive
    constructor
    case silent => simpa [enterCell, hbackup] using hsilent
    all_goals simp [enterCell, hbcuntag, hbctag, huntag, htagged, hbackup]

lemma CellInv.quit {va : Bool} (h : CellInv free quiet true a true va c) :
    CellInv free quiet true a false va (quitCell a c) := by
  have hsilent : quiet → c .notlearning = false := fun hq => (h.silent hq).1
  cases a with
  | true =>
    constructor
    case silent => simpa [quitCell, delCell] using hsilent
    all_goals simp [quitCell, delCell, h.bctag_of_untagged]
  | false =>
    obtain ⟨hbcuntag, hbctag, huntag, htagged, hbackup⟩ := h.inactive
    constructor
    case silent => simpa [quitCell, hbackup] using hsilent
    all_goals simp [quitCell, hbcuntag, hbctag, huntag, htagged, hbackup]

lemma move_reworks (h : SwitchInv free quiet s) {port : Port} (hp : s.portv i = some port) {v : Nat}
    (hv : v ≠ noVlan → s.valid v = true) :
    let s1 := s.setPort i (some { port with vlanuntag := noVlan })
    BaseInv s1 ∧ Reworks s1 (moveTables i port v s1) ∧
      (∀ w, w ≠ noVlan → (moveTables i port v s1).cell w i =
        if w = v then enterCell (port.ep ≠ []) (s.cell w i)
        else if w = port.vlanuntag then quitCell (port.ep ≠ []) (s.cell w i) else s.cell w i) ∧
      ∀ w q, w ≠ noVlan → q ≠ i → (moveTables i port v s1).cell w q = s.cell w q ∨
        (moveTables i port v s1).cell w q = newvlanCell (s1.untagged w q) (s.cell w q) := by
  have hsome : (s.portv i).isSome = true := by simp [hp]
  have hvlans : VlansOk (s.setPort i (some { port with vlanuntag := noVlan })) :=
    h.core.vlans.setPort hp
  refine ⟨h.core.base.setPort (h.core.range i hsome) (Nat.le_refl _),
    moveTables_spec hvlans (by rw [setPort_portv]; simp) port (fun hne => ?_) hv⟩
  exact ((h.core.cells _ i hne).own hsome (by simp [Switch.untagged, hp])).1

lemma move_inv (h : SwitchInv free quiet s) (hdel : HashFree i s.hash) {port : Port}
    (hp : s.portv i = some port) {v : Nat} (hv : v ≠ noVlan → s.valid v = true) (hle : v ≤ noVlan)
    (hfree : free → s.active i = true → s.cell v i .notlearning = false) :
    SwitchInv free quiet ((moveTables i port v
      (s.setPort i (some { port with vlanuntag := noVlan }))).setPort i
        (some { port with vlanuntag := v })) := by
  have hsome : (s.portv i).isSome = true := by simp [hp]
  have hlt := h.core.range i hsome
  have huv : ∀ w, s.untagged w i = (port.vlanuntag == w) := by
    intro w
    simp [Switch.untagged, hp]
  have hact : s.active i = decide (port.ep ≠ []) := by
    cases hep : port.ep <;> simp [Switch.active, hp, hep]
  obtain ⟨hbase, hre, hself, hother⟩ := move_reworks h hp hv
  generalize moveTables i port v
    (s.setPort i (some { port with vlanuntag := noVlan })) = s' at hre hself hother
  have hportv : ∀ q, (s'.setPort i (some { port with vlanuntag := v })).portv q =
      if q = i then some { port with vlanuntag := v } else s.portv q := by
    intro q
    rw [setPort_portv, portv_of_shape hre.shape, setPort_portv]
    split <;> rfl
  have hvalid : ∀ w, (s'.setPort i (some { port with vlanuntag := v })).valid w = s.valid w :=
    fun w => (valid_of_shape hre.shape w : s'.valid w = s.valid w)
  have hle' : HashLe s.hash (s'.setPort i (some { port with vlanuntag := v })).hash := hre.hash
  have hunt : ∀ w q, q ≠ i →
      (s.setPort i (some { port with vlanuntag := noVlan })).untagged w q = s.untagged w q := by
    intro w q hq
    rw [untagged_setPort, if_neg hq]
  have hbase' : BaseInv (s'.setPort i (some { port with vlanuntag := v })) :=
    (hre.base hbase).setPort (by rw [numports_of_shape hre.shape]; exact hlt) hle
  refine ⟨hbase'.core (fun w q hw => ?_), ?_⟩
  · have hold := h.core.cells w q hw
    unfold Switch.CellOk at hold ⊢
    rw [hvalid]
    by_cases hq : q = i
    · subst hq
      have hactive : (s'.setPort q (some { port with vlanuntag := v })).active q =
          decide (port.ep ≠ []) := by
        rw [← hact]
        simp [Switch.active, hportv, hp]
      have huntagged : (s'.setPort q (some { port with vlanuntag := v })).untagged w q = (v == w) := by
        simp [Switch.untagged, hportv]
      have hcell : (s'.setPort q (some { port with vlanuntag := v })).cell w q = _ := hself w hw
      rw [hcell, hactive, huntagged, hportv, if_pos rfl, Option.isSome_some]
      rw [hact, huv, hsome] at hold
      by_cases hwv : w = v
      · subst hwv
        have hvw := hv hw
        rw [hvw] at hold ⊢
        rw [if_pos rfl, beq_self_eq_true]
        apply hold.enter
        intro hfr ha
        exact hfree hfr (by rw [hact]; exact ha)
      have hvw : (v == w) = false := by simpa using fun heq => hwv heq.symm
      rw [if_neg hwv, hvw]
      by_cases hwo : w = port.vlanuntag
      · rw [hwo, beq_self_eq_true] at hold
        rw [if_pos hwo, hwo]
        exact hold.quit
      have how : (port.vlanuntag == w) = false := by simpa using fun heq => hwo heq.symm
      rw [how] at hold
      rw [if_neg hwo]
      exact hold
    have hactive : (s'.setPort i (some { port with vlanuntag := v })).active q = s.active q := by
      simp [Switch.active, hportv, hq]
    have huntagged : (s'.setPort i (some { port with vlanuntag := v })).untagged w q =
        s.untagged w q := by
      simp [Switch.untagged, hportv, hq]
    rw [hactive, huntagged, hportv, if_neg hq]
    have ho := hother w q hw hq
    rw [hunt w q hq] at ho
    rcases ho with hsame | hnew
    · have hcell : (s'.setPort i (some { port with vlanuntag := v })).cell w q = _ := hsame
      rw [hcell]
      exact hold
    have hcell : (s'.setPort i (some { port with vlanuntag := v })).cell w q = _ := hnew
    rw [hcell]
    exact hold.newvlan
  · apply h.entries.without h.core.hash hle' (hdel.le h.core.hash hle')
    rintro w q hq ⟨h1, h2, h3⟩
    have hw := h.core.ne_noVlan (h.core.valid_of_check h2)
    have hkeep : s'.cell w q .table = true ∧ s'.cell w q .notlearning = false := by
      rcases hother w q hw hq with hsame | hnew
      · rw [hsame]
        exact ⟨h2, h3⟩
      rw [hnew]
      exact newvlanCell_keeps _ h2 h3
    refine ⟨?_, hkeep.1, hkeep.2⟩
    unfold Switch.active at h1 ⊢
    rw [hportv, if_neg hq]
    exact h1

def moveTrap (port vlan : Int) (s : Switch) : Prop :=
  0 ≤ port ∧ 0 ≤ vlan ∧ s.active port.toNat = true ∧
    s.cell vlan.toNat port.toNat .notlearning = true

lemma portsetvlan_inv (h : SwitchInv free quiet s) (arg : Option (Int × Int))
    (hfree : free → ∀ port vlan, arg = some (port, vlan) → ¬moveTrap port vlan s) :
    SwitchInv free quiet (portsetvlan arg s).2 := by
  cases arg with
  | none => exact h
  | some arg =>
    obtain ⟨port, vlan⟩ := arg
    unfold portsetvlan
    dsimp only
    split
    · exact h
    next hrange =>
    have hpos : 0 ≤ port ∧ 0 ≤ vlan ∧ vlan.toNat ≤ noVlan := by
      unfold numOfVlan at hrange
      unfold noVlan
      omega
    split
    · exact h
    next pt hp =>
    split
    · exact h
    next hvalid =>
    have h1 : SwitchInv free quiet { s with hash := hashDeletePort port.toNat s.hash } :=
      h.hashLe (hashLe_forAllHash _ _)
    have hmove := move_inv (v := vlan.toNat) h1 (hashFree_deletePort h.core.hash) hp
      (fun hne => by
        have hv : s.valid vlan.toNat = true := by
          by_contra hv
          exact hvalid ⟨hne, by simpa using hv⟩
        exact hv)
      hpos.2.2
      (fun hfr ha => by
        have hn : s.cell vlan.toNat port.toNat .notlearning = false := by
          by_contra hn
          exact hfree hfr port vlan rfl ⟨hpos.1, hpos.2.1, ha, by simpa using hn⟩
        exact hn)
    exact hmove

/-! ## Members with a tag -/

lemma withVlanPort_inv (h : SwitchInv free quiet s) (arg : Option (Int × Int))
    {f : Nat → Nat → Port → Errno × Switch}
    (hf : ∀ vlan port pt, arg = some (vlan, port) → 0 ≤ vlan → vlan < numOfVlan - 1 → 0 ≤ port →
      s.valid vlan.toNat = true → s.portv port.toNat = some pt →
      SwitchInv free quiet (f vlan.toNat port.toNat pt).2) :
    SwitchInv free quiet (withVlanPort arg f s).2 := by
  cases arg with
  | none => exact h
  | some arg =>
    obtain ⟨vlan, port⟩ := arg
    unfold withVlanPort
    dsimp only
    split
    · exact h
    next hrange =>
    split
    · exact h
    next hv =>
    split
    · exact h
    next pt hp =>
    exact hf vlan port pt rfl (by omega) (by omega) (by omega) (by simpa using hv) hp

lemma CellInv.join (h : CellInv free quiet true true false true c)
    (hfree : free → c .notlearning = false) :
    CellInv free quiet true true false true
      (Function.update (addCell true (Function.update c .bctag true)) .table true) := by
  constructor
  case learns => simpa [addCell] using hfree
  case silent => simpa [addCell] using fun hq => (h.silent hq).1
  all_goals simp [addCell, h.bcuntag_of_tagged]

lemma CellInv.member (h : CellInv free quiet true a u true c)
    (hau : a = false ∨ u = true) : CellInv free quiet true a u true (Function.update c .table true) := by
  cases u with
  | true =>
    have hsame : Function.update c .table true = c :=
      Function.update_eq_self_iff.mpr (h.own rfl rfl).2.symm
    rw [hsame]
    exact h
  | false =>
    obtain rfl : a = false := hau.resolve_right (by simp)
    obtain ⟨hbcuntag, hbctag, huntag, htagged, hbackup⟩ := h.inactive
    constructor
    case silent => simpa using h.silent
    all_goals simp [hbcuntag, hbctag, huntag, htagged, hbackup]

def addTrap (vlan port : Int) (s : Switch) : Prop :=
  0 ≤ vlan ∧ vlan < numOfVlan - 1 ∧ 0 ≤ port ∧ s.active port.toNat = true ∧
    s.untagged vlan.toNat port.toNat = false ∧ s.cell vlan.toNat port.toNat .notlearning = true

lemma joinTables_effect {v : Nat} (hr : Ready s v) (hp : (s.portv i).isSome = true) :
    ∃ F, Effect s ((fstaddport v i true (s.set .bctag v i)).set .table v i) v (atPort i (fun c =>
      update (addCell true (update c .bctag true)) .table true)) F := by
  have h1 := (Effect.start s v i).set hr .bctag
  have hr1 := hr.effectAt h1 hp
  exact ⟨_, (h1.transAt (fstaddport_effect hr1 (h1.isSome hp) true).1).set hr .table⟩

lemma vlanaddport_inv (h : SwitchInv free quiet s) (arg : Option (Int × Int))
    (hfree : free → ∀ vlan port, arg = some (vlan, port) → ¬addTrap vlan port s) :
    SwitchInv free quiet (vlanaddport arg s).2 := by
  apply withVlanPort_inv h
  intro vlan port pt harg hvlan hvlan' hport hv hp
  have hr := h.core.ready hv
  have hsome : (s.portv port.toNat).isSome = true := by simp [hp]
  have hu : s.untagged vlan.toNat port.toNat = (pt.vlanuntag == vlan.toNat) := by
    simp [Switch.untagged, hp]
  have hact : s.active port.toNat = decide (pt.ep ≠ []) := by
    cases hep : pt.ep <;> simp [Switch.active, hp, hep]
  dsimp only
  by_cases hadd : pt.ep ≠ [] ∧ pt.vlanuntag ≠ vlan.toNat
  · obtain ⟨F, he⟩ := joinTables_effect hr hsome
    have hua : s.untagged vlan.toNat port.toNat = false := by
      rw [hu]
      simpa using hadd.2
    have haa : s.active port.toNat = true := by
      rw [hact]
      simpa using hadd.1
    simp only [if_pos hadd]
    apply h.effectAt hv he
    · intro hc
      rw [hsome, haa, hua] at hc ⊢
      apply hc.join
      intro hfr
      by_contra hn
      exact hfree hfr vlan port harg ⟨hvlan, hvlan', hport, haa, hua, by simpa using hn⟩
    intro ht hn
    exact ⟨by simp, by simpa [addCell] using hn⟩
  simp only [if_neg hadd]
  apply h.effectAt hv (set_effect (hr.tabs .table) port.toNat)
  · intro hc
    rw [hsome] at hc ⊢
    apply hc.member
    by_cases hep : pt.ep = []
    · left
      rw [hact]
      simpa using hep
    right
    rw [hu]
    simpa [hep] using hadd
  intro ht hn
  simpa using hn

def dropCell (active : Bool) (c : Cell) : Cell :=
  update (if active then delCell (update c .bctag false) else c) .table false

lemma CellInv.drop {a : Bool} {c : Cell} (h : CellInv free quiet true a false true c) :
    CellInv free quiet true a false true (dropCell a c) := by
  have hsilent : quiet → c .notlearning = false := fun hq => (h.silent hq).1
  cases a with
  | true =>
    constructor
    case silent => simpa [dropCell, delCell] using hsilent
    all_goals simp [dropCell, delCell, h.bcuntag_of_tagged]
  | false =>
    obtain ⟨hbcuntag, hbctag, huntag, htagged, hbackup⟩ := h.inactive
    constructor
    case silent => simpa [dropCell, hbackup] using hsilent
    all_goals simp [dropCell, hbcuntag, hbctag, huntag, htagged, hbackup]

lemma dropTables_spec (hs : VlansOk s) {v : Nat} (hv : s.valid v = true)
    (hp : (s.portv i).isSome = true) (active : Prop) [Decidable active] :
    ∃ root : Bool, Works s ((if active then fstdelport v i (s.clr .bctag v i) else s).clr .table v i)
      (fun w q c => atVlan v (fun q c => if q = i then dropCell active c
        else if root then newvlanCell (s.untagged v q) c else c) w q c) := by
  have hr := hs.ready v hv
  have hfirst : ∃ root : Bool, Works s (if active then fstdelport v i (s.clr .bctag v i) else s)
      (atVlan v (fun q c => if q = i then (if active then delCell (update c .bctag false)
        else c) else if root then newvlanCell (s.untagged v q) c else c)) := by
    by_cases hact : active
    · have h1 := clr_effect (hr.tabs .bctag) i
      have hw1 := h1.worksAt hs hv hp
      obtain ⟨root, hw2⟩ := fstdelport_works (p := i) hw1.vlans (by rw [hw1.valid, hv]) (hw1.isSome hp)
      have hu : (s.clr .bctag v i).untagged v = s.untagged v := by
        funext q
        rw [untagged_of_shape h1.shape]
      rw [hu] at hw2
      have hw := hw1.trans hw2
      simp only [if_pos hact]
      refine ⟨root, { hw with cell := fun w q hne => ?_ }⟩
      rw [hw.cell w q hne]
      by_cases hwv : w = v
      · by_cases hq : q = i
        · subst hq
          simp [atVlan, hwv, atPort, delPlane_self]
        · simp [atVlan, hwv, atPort, hq, delPlane_other hq]
      · simp [atVlan, hwv]
    simp only [if_neg hact]
    refine ⟨false, Reworks.refl s, hs, fun w q _ => ?_⟩
    simp [atVlan]
  obtain ⟨root, h1⟩ := hfirst
  generalize (if active then fstdelport v i (s.clr .bctag v i) else s) = s1 at h1
  have hv1 : s1.valid v = true := by rw [h1.valid, hv]
  have h2 := (clr_effect ((h1.vlans.ready v hv1).tabs .table) i).worksAt h1.vlans hv1 (h1.isSome hp)
  have hw := h1.trans h2
  refine ⟨root, { hw with cell := fun w q hne => ?_ }⟩
  rw [hw.cell w q hne]
  by_cases hwv : w = v
  · by_cases hq : q = i
    · simp [atVlan, hwv, atPort, hq, dropCell]
    · simp [atVlan, hwv, atPort, hq]
  · simp [atVlan, hwv]

lemma vlandelport_inv (h : SwitchInv free quiet s) (arg : Option (Int × Int)) :
    SwitchInv free quiet (vlandelport arg s).2 := by
  apply withVlanPort_inv h
  intro vlan port pt _ _ _ _ hv hp
  dsimp only
  split
  · exact h
  next hne =>
  have hsome : (s.portv port.toNat).isSome = true := by simp [hp]
  have hu : s.untagged vlan.toNat port.toNat = false := by
    simpa [Switch.untagged, hp] using hne
  have hact : s.active port.toNat = decide (pt.ep ≠ []) := by
    cases hep : pt.ep <;> simp [Switch.active, hp, hep]
  obtain ⟨root, hw⟩ := dropTables_spec h.core.vlans hv hsome (pt.ep ≠ [])
  generalize ((if pt.ep ≠ [] then fstdelport vlan.toNat port.toNat
    (s.clr .bctag vlan.toNat port.toNat) else s).clr .table vlan.toNat port.toNat) = s' at hw
  have hcore : CoreInv free quiet s' := by
    apply (hw.reworks.base h.core.base).core
    intro w q hwn
    apply hw.reworks.cellOk
    have hold := h.core.cells w q hwn
    unfold Switch.CellOk at hold
    rw [hw.cell w q hwn, atVlan]
    by_cases hwv : w = vlan.toNat
    · subst hwv
      rw [if_pos rfl]
      rw [hv] at hold ⊢
      by_cases hq : q = port.toNat
      · subst hq
        rw [hsome, hact, hu] at hold ⊢
        rw [if_pos rfl]
        exact hold.drop
      rw [if_neg hq]
      split
      · exact hold.newvlan
      · exact hold
    rw [if_neg hwv]
    exact hold
  have hle : HashLe s.hash (hashDeletePort port.toNat s'.hash) :=
    hw.reworks.hash.trans (hashLe_forAllHash _ _)
  have hsame : SameTables s' { s' with hash := hashDeletePort port.toNat s'.hash } :=
    ⟨rfl, rfl, rfl, rfl, rfl, rfl⟩
  refine ⟨hsame.core hcore (hle h.core.hash).1, ?_⟩
  apply h.entries.without h.core.hash hle (hashFree_deletePort hcore.hash)
  rintro w q hq ⟨h1, h2, h3⟩
  apply hsame.entryOk
  have hwn := h.core.ne_noVlan (h.core.valid_of_check h2)
  have hkeep : s'.cell w q .table = true ∧ s'.cell w q .notlearning = false := by
    rw [hw.cell w q hwn, atVlan]
    split
    · split
      · exact newvlanCell_keeps _ h2 h3
      · exact ⟨h2, h3⟩
    · exact ⟨h2, h3⟩
  refine ⟨?_, hkeep.1, hkeep.2⟩
  rw [active_of_shape hw.reworks.shape]
  exact h1

/-! ## Creating and removing VLANs -/

def Switch.setVlan (v : Nat) (x : Option BitArray) (f : Option Vlst) (valid : Bac) (s : Switch) :
    Switch :=
  { s with
    tabs := fun t w => if w = v then x else s.tabs t w
    fsttab := update s.fsttab v f
    validvlan := valid }

lemma forPorts_empty {t : Tab} {v : Nat} (hx : s.tabs t v = some baAlloc)
    (body : Nat → Switch → Switch) : s.forPorts t v body = s := by
  have hwords : s.words t v = baAlloc := by simp [Switch.words, hx]
  have hnil : baMembers (s.words t v) s.numports = [] := by
    apply List.eq_nil_iff_forall_not_mem.mpr
    intro q hq
    rw [mem_baMembers, hwords] at hq
    simp at hq
  simp only [Switch.forPorts, hx]
  rw [baForall_eq (fun _ => True) trivial (fun _ _ _ _ => trivial) (by simp [hnil]), hnil]
  rfl

def newVlst (myid : List UInt8) : Vlst := Vlst.reset myid ⟨[], [], [], [], 0, 0, 0, 0, 0⟩

lemma vlancreateNocheck_eq {v : Nat} (hf : s.fsttab v = none) : vlancreateNocheck v s =
    s.setVlan v (some baAlloc) (some (newVlst s.myid)) (bacSet s.validvlan v) := by
  unfold vlancreateNocheck
  dsimp only
  generalize hs1 : (((s.store .table v (some baAlloc)).store .bctag v (some baAlloc)).store .bcuntag v
    (some baAlloc)).store .notlearning v (some baAlloc) = s1
  have hf1 : s1.fsttab v = none := by
    rw [← hs1]
    exact hf
  have hnew : fstnewvlan v s1 = (s1.allocFst v).setFst v (newVlst s1.myid) := by
    unfold fstnewvlan
    simp only [hf1]
    apply forPorts_empty
    simp [Switch.allocFst, Switch.setFst, Switch.store]
  rw [hnew, ← hs1]
  unfold Switch.setVlan Switch.allocFst Switch.setFst Switch.store
  dsimp only
  congr 1
  funext t w
  by_cases hw : w = v
  · subst hw
    cases t with
    | rcvhist b => cases b <;> simp
    | _ => simp
  cases t with
  | rcvhist b => cases b <;> simp [hw]
  | _ => simp [hw]

lemma setVlan_cell (v : Nat) (x : Option BitArray) (f : Option Vlst) (b : Bac) (s : Switch)
    (w q : Nat) (hx : x = none ∨ x = some baAlloc) :
    (s.setVlan v x f b).cell w q = if w = v then fun _ => false else s.cell w q := by
  funext t
  unfold Switch.setVlan Switch.cell Switch.check
  by_cases hw : w = v
  · rcases hx with rfl | rfl <;> simp [hw]
  · simp [hw]

lemma CellInv.emptied {e va : Bool} (h : CellInv free quiet e a u va c) (ht : c .table = false)
    (ha : a = true → e = true) (va' : Bool) : CellInv free quiet e a u va' (fun _ => false) := by
  have hu : e = true → u = false := by
    intro he
    by_contra hu
    rw [(h.own he (by simpa using hu)).2] at ht
    cases ht
  constructor <;> cases a <;> simp_all

lemma SwitchInv.setVlan (h : SwitchInv free quiet s) {v : Nat} {x : Option BitArray} {f : Option Vlst} {b : Bac}
    (va : Bool) (hlt : v < numOfVlan) (hcard : b.WF numOfVlan)
    (hvalid : ∀ w, bacCheck b w = if w = v then va else s.valid w) (hx : x = if va then some baAlloc else none)
    (hf : f.isSome = va) (hempty : ∀ q, s.cell v q .table = false) : SwitchInv free quiet (s.setVlan v x f b) := by
  have hvalid' : ∀ w, (s.setVlan v x f b).valid w = if w = v then va else s.valid w := hvalid
  have hcell := fun w q => setVlan_cell v x f b s w q (by cases va <;> simp [hx])
  refine ⟨BaseInv.core ⟨hcard, fun w hw => ?_, fun w hw => ?_, fun w hw => ?_, h.core.range,
    h.core.vlanuntag, h.core.hash, h.core.live⟩ (fun w q hw => ?_), fun key e hl => ?_⟩
  · by_cases hwv : w = v
    · rw [hwv]
      exact hlt
    rw [hvalid', if_neg hwv] at hw
    exact h.core.vlans.lt w hw
  · rw [hvalid'] at hw
    by_cases hwv : w = v
    · rw [if_pos hwv] at hw
      rw [hw] at hx hf
      simp [Switch.setVlan, hwv, hx, Option.isSome_iff_ne_none.mp hf]
    rw [if_neg hwv] at hw
    simpa [Switch.setVlan, hwv] using h.core.base.alloc w hw
  · rw [hvalid'] at hw
    by_cases hwv : w = v
    · rw [if_pos hwv] at hw
      rw [hw] at hx hf
      rw [Option.isSome_eq_false_iff, Option.isNone_iff_eq_none] at hf
      simp [Switch.setVlan, hwv, hx, hf]
    rw [if_neg hwv] at hw
    simpa [Switch.setVlan, hwv] using h.core.unused w hw
  · have hold := h.core.cells w q hw
    unfold Switch.CellOk at hold ⊢
    rw [hvalid', hcell]
    by_cases hwv : w = v
    · subst hwv
      rw [if_pos rfl, if_pos rfl]
      exact hold.emptied (hempty q) isSome_of_active va
    rw [if_neg hwv, if_neg hwv]
    exact hold
  · obtain ⟨h1, h2, h3⟩ := h.entries key e hl
    have hwv : (emac2vlan key).toNat ≠ v := by
      intro heq
      have ht : s.cell v e.port .table = true := by
        rw [heq] at h2
        exact h2
      rw [hempty] at ht
      cases ht
    have hc := hcell (emac2vlan key).toNat e.port
    rw [if_neg hwv] at hc
    exact ⟨h1, (congrFun hc .table).trans h2, (congrFun hc .notlearning).trans h3⟩

lemma word_of_vlan {v : Nat} (hlt : v < numOfVlan) : v / 64 < wordSizeRound numOfVlan := by
  rw [wordSizeRound_eq]
  unfold numOfVlan at *
  omega

lemma vlancreateNocheck_inv (h : SwitchInv free quiet s) {v : Nat} (hlt : v < numOfVlan)
    (hv : s.valid v = false) : SwitchInv free quiet (vlancreateNocheck v s) := by
  rw [vlancreateNocheck_eq (h.core.unused v hv).2]
  apply h.setVlan true hlt (h.core.vlans.card.set (word_of_vlan hlt)) (fun w => ?_) rfl rfl
    (fun q => ?_)
  · rw [bacCheck_bacSet]
    by_cases hwv : w = v <;> simp [hwv, Switch.valid]
  by_contra ht
  have hcheck : s.check .table v q = true := (Bool.not_eq_false _).mp ht
  rw [h.core.valid_of_check hcheck] at hv
  cases hv

lemma vlancreate_inv (h : SwitchInv free quiet s) (vlan : Int) : SwitchInv free quiet (vlancreate vlan s).2 := by
  unfold vlancreate
  split
  · next hrange =>
    split
    · exact h
    next hv =>
    apply vlancreateNocheck_inv h _ (by simpa using hv)
    omega
  · exact h

lemma used_eq (t : Tab) (v : Nat) (s : Switch) :
    baForall (fun _ => s.words t v) s.numports (fun _ used => used + 1) 0 = (s.members t v).length := by
  have hfold : baForall (fun _ => s.words t v) s.numports (fun _ used => used + 1) 0 =
      (s.members t v).foldl (fun used _ => used + 1) 0 :=
    baForall_eq (fun _ => True) trivial (fun _ _ _ _ => trivial) (fun _ _ _ _ _ _ => rfl)
  have hcount : ∀ (l : List Nat) n, l.foldl (fun used _ => used + 1) n = n + l.length := by
    intro l
    induction l with
    | nil => simp
    | cons p l ih =>
      intro n
      rw [List.foldl_cons, ih, List.length_cons]
      omega
  rw [hfold, hcount, Nat.zero_add]

lemma removed_eq {v : Nat} {f : Vlst} (hf : s.fsttab v = some f) :
    (fstremovevlan v ((((({ s with validvlan := bacClr s.validvlan v } : Switch).store .table v
      none).store .bctag v none).store .bcuntag v none).store .notlearning v none)).2 =
      s.setVlan v none none (bacClr s.validvlan v) := by
  generalize hs1 : (((({ s with validvlan := bacClr s.validvlan v } : Switch).store .table v
    none).store .bctag v none).store .bcuntag v none).store .notlearning v none = s1
  have hf1 : s1.fsttab v = some f := by
    rw [← hs1]
    exact hf
  unfold fstremovevlan
  simp only [hf1]
  rw [← hs1]
  unfold Switch.setVlan Switch.store
  dsimp only
  congr 1
  funext t w
  by_cases hw : w = v
  · subst hw
    cases t with
    | rcvhist b => cases b <;> simp
    | _ => simp
  cases t with
  | rcvhist b => cases b <;> simp [hw]
  | _ => simp [hw]

lemma vlanremove_inv (h : SwitchInv free quiet s) (vlan : Int) : SwitchInv free quiet (vlanremove vlan s).2 := by
  unfold vlanremove
  split
  · dsimp only
    split
    · next hv =>
      rw [used_eq]
      split
      · exact h
      next hused =>
      have hr := h.core.ready hv
      have hlt := h.core.vlans.lt _ hv
      obtain ⟨f, hf⟩ := Option.ne_none_iff_exists'.mp hr.fst
      rw [removed_eq hf]
      apply h.setVlan false hlt (h.core.vlans.card.clr (word_of_vlan hlt)) (fun w => ?_) rfl rfl
        (fun q => ?_)
      · rw [bacCheck_bacClr]
        by_cases hwv : w = vlan.toNat <;> simp [hwv, Switch.valid]
      by_contra ht
      have hcheck : s.check .table vlan.toNat q = true := (Bool.not_eq_false _).mp ht
      have hmem := (mem_members hr rfl).mpr hcheck
      have hnil : s.members .table vlan.toNat = [] :=
        List.length_eq_zero_iff.mp (by simpa using hused)
      rw [hnil] at hmem
      exact absurd hmem (by simp)
    · exact h
  · exact h

end

end Vde
