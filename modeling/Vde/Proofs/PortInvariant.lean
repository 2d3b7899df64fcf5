import Vde.Proofs.FstpInvariant

/-!
# The management commands keep the invariant

Every command on ports, endpoints and VLANs. Only two things can go wrong: a port is created while
VLAN 0 does not exist, which ends the process, and a port becomes a member of a VLAN in which it
was left in the discarding state, against which `free` needs a hypothesis.
-/

namespace Vde

open Function

variable {e a u va : Bool} {c : Cell}

section

variable {free quiet : Prop} {s s' : Switch} {v p : Nat} {F : Vlst → Vlst}

lemma SwitchInv.effectAt (h : SwitchInv free quiet s) (hv : s.valid v = true) {b : Cell → Cell}
    (he : Effect s s' v (atPort p b) F)
    (hb : CellInv free quiet (s.portv p).isSome (s.active p) (s.untagged v p) true (s.cell v p) →
      CellInv free quiet (s.portv p).isSome (s.active p) (s.untagged v p) true (b (s.cell v p)))
    (hkeep : s.cell v p .table = true → s.cell v p .notlearning = false →
      b (s.cell v p) .table = true ∧ b (s.cell v p) .notlearning = false) :
    SwitchInv free quiet s' := by
  refine ⟨h.core.effect hv he ?_, h.entries.keep h.core.hash he ?_⟩
  · intro q _
    have hc := h.core.cellOk hv q
    by_cases hq : q = p
    · subst hq
      rw [atPort, if_pos rfl]
      exact hb hc
    rw [atPort, if_neg hq]
    exact hc
  intro q ht hn
  by_cases hq : q = p
  · subst hq
    rw [atPort, if_pos rfl]
    exact hkeep ht hn
  rw [atPort, if_neg hq]
  exact ⟨ht, hn⟩

lemma CellInv.setEdge (h : CellInv free quiet e a u va c) :
    CellInv free quiet e a u va (Function.update c .edge true) where
  table := by simpa using h.table
  own := by simpa using h.own
  bcuntag := by simpa using h.bcuntag
  bctag := by simpa using h.bctag
  untag := by simpa using h.untag
  tagged := by simpa using h.tagged
  backup := by simpa using h.backup
  blocked := by simp
  opened := by simpa using h.opened
  learns := by simp
  silent := by simpa using h.silent

lemma CellInv.forwardEdge (h : CellInv free quiet e a u va c) (ha : a = true)
    (ht : c .table = true) (hedge : c .edge = true) : CellInv free quiet e a u va (statusCell u .forwarding c) := by
  subst ha
  obtain ⟨hva, he⟩ := h.table ht
  cases u with
  | true =>
    constructor
    case silent => simpa [statusCell, ht] using fun hq => (h.silent hq).2
    all_goals simp [statusCell, ht, hva, he, hedge, h.untag, h.tagged, h.bctag_of_untagged]
  | false =>
    constructor
    case silent => simpa [statusCell, ht] using fun hq => (h.silent hq).2
    all_goals simp [statusCell, ht, hva, he, hedge, h.untag, h.tagged, h.bcuntag_of_tagged]

lemma CellInv.clrEdge (h : CellInv free quiet e a u va c)
    (hfree : free → a = true → c .table = true → c .notlearning = false) :
    CellInv free quiet e a u va (Function.update (Function.update c .edge false) .backup false) where
  table := by simpa using h.table
  own := by simpa using h.own
  bcuntag := by simpa using h.bcuntag
  bctag := by simpa using h.bctag
  untag := by simpa using h.untag
  tagged := by simpa using h.tagged
  backup := by simp
  blocked := by simp
  opened := by simpa using h.opened
  learns := by simpa using hfree
  silent := by simpa using fun hq => (h.silent hq).1

/-- The port that `fstsetedge` turns into an ordinary one would stay blocked. -/
def edgeTrap (vlan port : Int) (s : Switch) : Prop :=
  0 ≤ vlan ∧ 0 ≤ port ∧ s.active port.toNat = true ∧
    s.cell vlan.toNat port.toNat .table = true ∧ s.cell vlan.toNat port.toNat .notlearning = true

lemma fstsetedge_inv (h : SwitchInv free quiet s) (arg : Option (Int × Int × Int))
    (hfree : free → ∀ vlan port, arg = some (vlan, port, 0) → ¬edgeTrap vlan port s) :
    SwitchInv free quiet (fstsetedge arg s).2 := by
  cases arg with
  | none => exact h
  | some arg =>
    obtain ⟨vlan, port, val⟩ := arg
    unfold fstsetedge
    dsimp only
    split
    · exact h
    next hrange =>
    split
    · exact h
    next hv =>
    have hv' : s.valid vlan.toNat = true := by simpa using hv
    have hr := h.core.ready hv'
    have h0 := Effect.start s vlan.toNat port.toNat
    split
    · have he1 := h0.set hr .edge
      have h1 := h.effectAt hv' he1 CellInv.setEdge (fun ht hn => by simpa using ⟨ht, hn⟩)
      have hv1 : (s.set .edge vlan.toNat port.toNat).valid vlan.toNat = true := by
        rw [valid_of_shape he1.shape]
        exact hv'
      have hedge : (s.set .edge vlan.toNat port.toNat).cell vlan.toNat port.toNat .edge = true := by
        rw [he1.cell]
        simp [atPort]
      generalize s.set .edge vlan.toNat port.toNat = s1 at h1 hv1 hedge
      dsimp only
      split
      · next hu =>
        have hut : s1.cell vlan.toNat port.toNat .untag = true := by
          unfold Switch.cell
          simpa using hu
        apply h1.effectAt hv1 (portSetStatus_effect (h1.core.ready hv1) .forwarding)
        · intro hc
          rw [hc.untag, Bool.and_eq_true] at hut
          exact hc.forwardEdge hut.1 (hc.own (isSome_of_active hut.1) hut.2).2 hedge
        intro ht _
        cases s1.untagged vlan.toNat port.toNat <;> simp [statusCell, ht]
      · exact h1
    next hval =>
    have hval' : val = 0 := by simpa using hval
    apply h.effectAt hv' ((h0.clr hr .edge).clr hr .backup)
    · intro hc
      apply hc.clrEdge
      intro hfr ha ht
      by_contra hn
      exact hfree hfr vlan port (by rw [hval'])
        ⟨by omega, by omega, ha, ht, by simpa using hn⟩
    intro ht hn
    simpa using ⟨ht, hn⟩

end

/-! ## Records of ports -/

section

variable {free quiet : Prop} {s : Switch} {p : Nat} {port port' : Port}

lemma setPort_portv (s : Switch) (p q : Nat) (port : Option Port) :
    (s.setPort p port).portv q = if q = p then port else s.portv q := by
  unfold Switch.setPort
  by_cases hq : q = p
  · subst hq
    simp
  · simp [hq]

lemma Ready.setPort {v : Nat} (h : Ready s v) (hp : s.portv p = some port) :
    Ready (s.setPort p (some port')) v := by
  have hsome : ∀ q, ((s.setPort p (some port')).portv q).isSome = (s.portv q).isSome := by
    intro q
    rw [setPort_portv]
    split
    · next hq => simp [hq, hp]
    · rfl
  refine ⟨h.tabs, h.fst, fun t q ht hc => ?_, fun q hq => ?_⟩
  · rw [hsome]
    exact h.ports t q ht hc
  rw [hsome] at hq
  exact h.range q hq

lemma VlansOk.setPort (h : VlansOk s) (hp : s.portv p = some port) : VlansOk (s.setPort p (some port')) :=
  ⟨h.card, h.lt, fun v hv => (h.ready v hv).setPort hp⟩

lemma active_setPort (s : Switch) (p q : Nat) (port : Port) :
    (s.setPort p (some port)).active q = if q = p then !port.ep.isEmpty else s.active q := by
  unfold Switch.active
  rw [setPort_portv]
  split <;> simp

lemma untagged_setPort (s : Switch) (v p q : Nat) (port : Port) :
    (s.setPort p (some port)).untagged v q = if q = p then port.vlanuntag == v else s.untagged v q := by
  unfold Switch.untagged
  rw [setPort_portv]
  split <;> simp

section

variable (h : SwitchInv free quiet s)

include h

lemma SwitchInv.setPort (hp : s.portv p = some port) (hep : port'.ep.isEmpty = port.ep.isEmpty)
    (hvlan : port'.vlanuntag = port.vlanuntag) : SwitchInv free quiet (s.setPort p (some port')) := by
  have hactive : ∀ q, (s.setPort p (some port')).active q = s.active q := by
    intro q
    rw [active_setPort]
    split
    · next hq => simp [hq, Switch.active, hp, hep]
    · rfl
  have huntagged : ∀ v q, (s.setPort p (some port')).untagged v q = s.untagged v q := by
    intro v q
    rw [untagged_setPort]
    split
    · next hq => simp [hq, Switch.untagged, hp, hvlan]
    · rfl
  have hsome : ∀ q, ((s.setPort p (some port')).portv q).isSome = (s.portv q).isSome := by
    intro q
    rw [setPort_portv]
    split
    · next hq => simp [hq, hp]
    · rfl
  refine ⟨⟨h.core.vlans.setPort hp, h.core.unused, fun q hq => ?_, fun q pt hq => ?_, fun v q hv => ?_,
    h.core.hash, h.core.live⟩, fun key e hl => ?_⟩
  · rw [hsome] at hq
    exact h.core.range q hq
  · rw [setPort_portv] at hq
    split at hq
    · obtain rfl := Option.some.inj hq
      rw [hvlan]
      exact h.core.vlanuntag p port hp
    · exact h.core.vlanuntag q pt hq
  · unfold Switch.CellOk
    rw [hsome, hactive, huntagged]
    exact h.core.cells v q hv
  · obtain ⟨h1, h2, h3⟩ := h.entries key e hl
    exact ⟨by rwa [hactive], h2, h3⟩

lemma withPort_inv (val : Int) {f : Nat → Port → Errno × Switch}
    (hf : ∀ i port, s.portv i = some port → SwitchInv free quiet (f i port).2) :
    SwitchInv free quiet (withPort val f s).2 := by
  unfold withPort
  split
  · exact h
  split
  · exact h
  · next hp => exact hf _ _ hp

lemma portallocatable_inv (arg : Option (Int × Int)) : SwitchInv free quiet (portallocatable arg s).2 := by
  cases arg with
  | none => exact h
  | some arg =>
    apply withPort_inv h
    intro i port hp
    exact h.setPort hp rfl rfl

lemma portsetuser_inv (arg : Option (Int × Option (BitVec 32))) : SwitchInv free quiet (portsetuser arg s).2 := by
  cases arg with
  | none => exact h
  | some arg =>
    apply withPort_inv h
    intro i port hp
    cases arg.2 with
    | none => exact h
    | some user => exact h.setPort hp rfl rfl

lemma portsetgroup_inv (arg : Option (Int × Option (BitVec 32))) : SwitchInv free quiet (portsetgroup arg s).2 := by
  cases arg with
  | none => exact h
  | some arg =>
    apply withPort_inv h
    intro i port hp
    cases arg.2 with
    | none => exact h
    | some group => exact h.setPort hp rfl rfl

end

end

/-! ## Rebuilding the invariant

A command changes records of ports first and then works on the tables. `BaseInv` is what holds all
the way through; the cells are looked at when the command is done. -/

structure BaseInv (s : Switch) : Prop where
  card : s.validvlan.WF numOfVlan
  lt : ∀ v, s.valid v = true → v < numOfVlan
  alloc : ∀ v, s.valid v = true → (∀ t, s.tabs t v ≠ none) ∧ s.fsttab v ≠ none
  unused : ∀ v, s.valid v = false → (∀ t, s.tabs t v = none) ∧ s.fsttab v = none
  range : ∀ p, (s.portv p).isSome = true → p < s.numports
  vlanuntag : ∀ p port, s.portv p = some port → port.vlanuntag ≤ noVlan
  hash : HashOk s.hash
  live : s.trap = false

/-- `s'` has the same ports and VLANs as `s` and no new hash entries. -/
structure Reworks (s s' : Switch) : Prop where
  shape : s'.shape = s.shape
  null : ∀ t v, s'.tabs t v = none ↔ s.tabs t v = none
  fst : ∀ v, s'.fsttab v = none ↔ s.fsttab v = none
  hash : HashLe s.hash s'.hash

section

variable {free quiet : Prop} {s s' s'' : Switch}

lemma CoreInv.base (h : CoreInv free quiet s) : BaseInv s where
  card := h.vlans.card
  lt := h.vlans.lt
  alloc v hv := ⟨(h.vlans.ready v hv).tabs, (h.vlans.ready v hv).fst⟩
  unused := h.unused
  range := h.range
  vlanuntag := h.vlanuntag
  hash := h.hash
  live := h.live

lemma BaseInv.core (h : BaseInv s) (hcells : ∀ v p, v ≠ noVlan → s.CellOk free quiet v p) :
    CoreInv free quiet s where
  vlans := by
    refine ⟨h.card, h.lt, fun v hv => ⟨(h.alloc v hv).1, (h.alloc v hv).2, fun t q ht hc => ?_, h.range⟩⟩
    have hne : v ≠ noVlan := by
      have hlt := h.lt v hv
      unfold numOfVlan at hlt
      unfold noVlan
      omega
    exact (hcells v q hne).isPort isSome_of_active ht hc
  unused := h.unused
  range := h.range
  vlanuntag := h.vlanuntag
  cells := hcells
  hash := h.hash
  live := h.live

lemma Reworks.refl (s : Switch) : Reworks s s :=
  ⟨rfl, fun _ _ => Iff.rfl, fun _ => Iff.rfl, HashLe.refl _⟩

lemma Reworks.trans (h : Reworks s s') (h' : Reworks s' s'') : Reworks s s'' where
  shape := h'.shape.trans h.shape
  null t v := (h'.null t v).trans (h.null t v)
  fst v := (h'.fst v).trans (h.fst v)
  hash := h.hash.trans h'.hash

lemma Effect.reworks {v : Nat} {g : Nat → Cell → Cell} {F : Vlst → Vlst} (h : Effect s s' v g F) :
    Reworks s s' where
  shape := h.shape
  null := h.null
  fst v' := by
    by_cases hv : v' = v
    · rw [hv, h.fst]
      simp
    · rw [h.fstOther v' hv]
  hash := h.hash

lemma Effects.reworks {g : Nat → Option Vlst → Nat → Cell → Cell}
    {F : Nat → (Nat → Cell) → Vlst → Vlst} (h : Effects s s' g F) : Reworks s s' where
  shape := h.shape
  null := h.null
  fst v := by
    rw [h.fst]
    split <;> simp
  hash := h.hash

lemma Reworks.base (h : Reworks s s') (hb : BaseInv s) : BaseInv s' where
  card := by
    rw [validvlan_of_shape h.shape]
    exact hb.card
  lt v hv := by
    rw [valid_of_shape h.shape] at hv
    exact hb.lt v hv
  alloc v hv := by
    rw [valid_of_shape h.shape] at hv
    obtain ⟨htabs, hfst⟩ := hb.alloc v hv
    exact ⟨fun t hnone => htabs t ((h.null t v).mp hnone), fun hnone => hfst ((h.fst v).mp hnone)⟩
  unused v hv := by
    rw [valid_of_shape h.shape] at hv
    obtain ⟨htabs, hfst⟩ := hb.unused v hv
    exact ⟨fun t => (h.null t v).mpr (htabs t), (h.fst v).mpr hfst⟩
  range p hp := by
    rw [portv_of_shape h.shape] at hp
    rw [numports_of_shape h.shape]
    exact hb.range p hp
  vlanuntag p port hp := by
    rw [portv_of_shape h.shape] at hp
    exact hb.vlanuntag p port hp
  hash := (h.hash hb.hash).1
  live := by
    change s'.shape.trap = false
    rw [h.shape]
    exact hb.live

lemma Reworks.cellOk (h : Reworks s s') {v p : Nat}
    (hc : CellInv free quiet (s.portv p).isSome (s.active p) (s.untagged v p) (s.valid v) (s'.cell v p)) :
    s'.CellOk free quiet v p := by
  unfold Switch.CellOk
  rwa [portv_of_shape h.shape, active_of_shape h.shape, untagged_of_shape h.shape,
    valid_of_shape h.shape]

lemma BaseInv.setPort (h : BaseInv s) {p : Nat} {port : Port} (hp : p < s.numports)
    (hvlan : port.vlanuntag ≤ noVlan) : BaseInv (s.setPort p (some port)) := by
  refine ⟨h.card, h.lt, h.alloc, h.unused, fun q hq => ?_, fun q pt hq => ?_, h.hash, h.live⟩
  · rw [setPort_portv] at hq
    split at hq
    · next heq =>
      rw [heq]
      exact hp
    · exact h.range q hq
  rw [setPort_portv] at hq
  split at hq
  · obtain rfl := Option.some.inj hq
    exact hvlan
  · exact h.vlanuntag q pt hq

lemma EntriesOk.rework (h : EntriesOk s) (hok : HashOk s.hash) (hle : HashLe s.hash s'.hash)
    (hent : ∀ v q, EntryOk s v q → (∃ key e, lookup s'.hash key = some e ∧ e.port = q) → EntryOk s' v q) :
    EntriesOk s' := by
  intro key e hl
  exact hent _ _ (h key e ((hle hok).2 key e hl)) ⟨key, e, hl, rfl⟩

end

/-! ## New ports -/

variable {portno : Int}

section

variable {free quiet : Prop} {s : Switch}

lemma newPort_cell {i : Nat} (h0 : ∀ t, s.tabs t 0 ≠ none) (v q : Nat) :
    ((s.setPort i (some newPort)).set .table 0 i).cell v q = if v = 0 ∧ q =
    i then update (s.cell v q) .table true else s.cell v q := by
  have he : Effect (s.setPort i (some newPort)) ((s.setPort i (some newPort)).set .table 0 i) 0
      (atPort i (fun c => update c .table true)) id :=
    set_effect (s := s.setPort i (some newPort)) (h0 .table) i
  by_cases hv : v = 0
  · subst hv
    rw [he.cell]
    unfold atPort
    by_cases hq : q = i
    · simp only [hq, and_self, if_true]
      rfl
    simp only [hq, and_false, if_false]
    rfl
  rw [he.other v q hv]
  simp only [hv, false_and, if_false]
  rfl

lemma newPort_portv (s : Switch) (i : Nat) :
    ((s.setPort i (some newPort)).set .table 0 i).portv i = some newPort := by
  unfold Switch.set
  split <;> simp [Switch.crash, Switch.store, Switch.setPort]

lemma CellInv.created (h : CellInv free quiet false false false va c) :
    CellInv free quiet true false false va c := by
  obtain ⟨hbcuntag, hbctag, huntag, htagged, hbackup⟩ := h.inactive
  have ht : c .table = false := Bool.eq_false_iff.mpr (fun hc => Bool.noConfusion (h.table hc).2)
  constructor
  case silent => exact h.silent
  all_goals simp [ht, hbcuntag, hbctag, huntag, htagged, hbackup]

lemma CellInv.created_own (h : CellInv free quiet false false false true c) :
    CellInv free quiet true false true true (Function.update c .table true) := by
  obtain ⟨hbcuntag, hbctag, huntag, htagged, hbackup⟩ := h.inactive
  constructor
  case silent => simpa using h.silent
  all_goals simp [hbcuntag, hbctag, huntag, htagged, hbackup]

lemma newPort_inv (h : SwitchInv free quiet s) {i : Nat} (hi : i < s.numports) (hp : s.portv i = none)
    (h0 : s.valid 0 = true) : SwitchInv free quiet ((s.setPort i (some newPort)).set .table 0 i) := by
  have hbase := h.core.base.setPort hi (show newPort.vlanuntag ≤ noVlan from Nat.zero_le _)
  have he : Effect (s.setPort i (some newPort)) ((s.setPort i (some newPort)).set .table 0 i) 0
      (atPort i (fun c => update c .table true)) id :=
    set_effect ((hbase.alloc 0 h0).1 .table) i
  have hinactive : s.active i = false := by simp [Switch.active, hp]
  have hcell := newPort_cell (i := i) (h.core.base.alloc 0 h0).1
  refine ⟨(he.reworks.base hbase).core (fun v q hv => he.reworks.cellOk ?_), ?_⟩
  · rw [hcell, active_setPort, untagged_setPort, setPort_portv]
    have hold := h.core.cells v q hv
    unfold Switch.CellOk at hold
    by_cases hq : q = i
    · subst hq
      have hunt : s.untagged v q = false := by simp [Switch.untagged, hp]
      rw [hp, hinactive, hunt] at hold
      rw [if_pos rfl, if_pos rfl, if_pos rfl]
      by_cases hv0 : v = 0
      · subst hv0
        rw [h0] at hold
        rw [if_pos ⟨rfl, rfl⟩, show (s.setPort q (some newPort)).valid 0 = true from h0]
        exact hold.created_own
      have hv0' : (newPort.vlanuntag == v) = false := by simpa [newPort] using fun h => hv0 h.symm
      rw [if_neg (fun h => hv0 h.1), hv0']
      exact hold.created
    simp only [hq, and_false, if_false]
    exact hold
  apply h.entries.rework h.core.hash he.hash
  rintro v q ⟨h1, h2, h3⟩ -
  have hq : q ≠ i := by
    rintro rfl
    rw [hinactive] at h1
    cases h1
  have hc := hcell v q
  simp only [hq, and_false, if_false] at hc
  refine ⟨?_, (congrFun hc .table).trans h2, (congrFun hc .notlearning).trans h3⟩
  rw [active_of_shape he.shape, active_setPort, if_neg hq]
  exact h1

def allocates (portno : Int) (s : Switch) : Bool :=
  allocIndex portno s < s.numports && (s.portv (allocIndex portno s)).isNone

lemma allocPort_full (hi : s.numports ≤ allocIndex portno s) : allocPort portno s = (none, s) := by
  unfold allocPort
  simp [hi]

lemma allocPort_old (hi : ¬s.numports ≤ allocIndex portno s) {port : Port}
    (hp : s.portv (allocIndex portno s) = some port) : allocPort portno s = (some (allocIndex portno s), s) := by
  unfold allocPort
  simp [hi, hp]

lemma allocPort_new (hi : ¬s.numports ≤ allocIndex portno s)
    (hp : s.portv (allocIndex portno s) = none) :
    allocPort portno s = (some (allocIndex portno s),
      (s.setPort (allocIndex portno s) (some newPort)).set .table 0 (allocIndex portno s)) := by
  unfold allocPort
  simp [hi, hp]

section

variable (h : SwitchInv free quiet s)

include h

lemma allocPort_trap (ha : allocates portno s = true)
    (h0 : s.valid 0 = false) : (allocPort portno s).2.trap = true := by
  unfold allocates at ha
  rw [Bool.and_eq_true, decide_eq_true_eq, Option.isNone_iff_eq_none] at ha
  have htab := (h.core.unused 0 h0).1 .table
  rw [allocPort_new (by omega) ha.2]
  unfold Switch.set
  simp [Switch.setPort, htab, Switch.crash]

lemma reserve_inv {p : Nat} (hp : (s.portv p).isSome = true) : SwitchInv free quiet (reserve p s) := by
  obtain ⟨port, hport⟩ := Option.isSome_iff_exists.mp hp
  unfold reserve
  simp only [hport]
  exact h.setPort hport rfl rfl

lemma allocReserve_inv (portno : Int)
    (h0 : allocates portno s = true → s.valid 0 = true) :
    SwitchInv free quiet (match allocPort portno s with
      | (none, s) => (Errno.enospc, s)
      | (some port, s) => (Errno.ok, if s.trap then s else reserve port s)).2 := by
  by_cases hi : s.numports ≤ allocIndex portno s
  · rw [allocPort_full hi]
    exact h
  cases hp : s.portv (allocIndex portno s) with
  | some port =>
    rw [allocPort_old hi hp]
    simp only [h.core.live, Bool.false_eq_true, if_false]
    exact reserve_inv h (by simp [hp])
  | none =>
    have hal : allocates portno s = true := by
      simp only [allocates, hp, Bool.and_eq_true, decide_eq_true_eq, Option.isNone_none, and_true]
      omega
    have hinv := newPort_inv h (by omega) hp (h0 hal)
    rw [allocPort_new hi hp]
    simp only [hinv.core.live, Bool.false_eq_true, if_false]
    exact reserve_inv hinv (by rw [newPort_portv]; rfl)

lemma portcreate_inv (val : Int)
    (h0 : 0 ≤ val → val < s.numports → s.portv val.toNat = none → allocates val s = true → s.valid 0 = true) :
    SwitchInv free quiet (portcreate val s).2 := by
  unfold portcreate
  split
  · exact h
  next hrange =>
  split
  · exact h
  next hnone =>
  apply allocReserve_inv h
  apply h0
  · omega
  · omega
  · simpa using hnone

lemma portcreateauto_inv
    (h0 : allocates 0 s = true → s.valid 0 = true) : SwitchInv free quiet (portcreateauto s).2 :=
  allocReserve_inv h 0 h0

end

end

/-! ## Endpoints -/

def joinCell (tagged : Bool) (c : Cell) : Cell :=
  if c .table then addCell tagged (update c .bctag true) else c

/-- What `setup_ep` does to the cell of its port in the VLAN in which the port is untagged. -/
def joinOwnCell (c : Cell) : Cell :=
  update (update (update c .bcuntag true) .bctag false) .notlearning false

def activateCell (own va : Bool) (c : Cell) : Cell :=
  let c := if va then joinCell (!own) c else c
  if own then joinOwnCell c else c

lemma joinLoop_effects {s : Switch} (hs : VlansOk s) {p : Nat} (hp : (s.portv p).isSome = true)
    (u : Nat) :
    Effects s (s.forVlans (fun i s =>
        if s.check .table i p then fstaddport i p (i != u) (s.set .bctag i p) else s))
      (fun v _ => atPort p (joinCell (v != u)))
      (fun _ plane f => if plane p .table then { f with tctime := s.now } else f) := by
  apply forVlans_effects hs
  intro s' v _ hr hshape
  have hsome : (s'.portv p).isSome = true := by rwa [portv_of_shape hshape]
  have hmem : s'.cell v p .table = s'.check .table v p := rfl
  rw [hmem]
  by_cases ht : s'.check .table v p = true
  · have h1 := (Effect.start s' v p).set hr .bctag
    have hr1 := hr.effectAt h1 hsome
    have h2 := (fstaddport_effect hr1 (h1.isSome hsome) (v != u)).1
    rw [now_of_shape (h1.shape.trans hshape)] at h2
    have h3 := h1.transAt h2
    simp only [if_pos ht]
    refine ⟨h3.congr ?_, hr.effectAt h3 hsome⟩
    intro q
    by_cases hq : q = p
    · subst hq
      simp only [atPort, if_true, joinCell, id]
      rw [hmem, if_pos ht]
    · simp [atPort, hq]
  simp only [if_neg ht]
  refine ⟨(Effect.refl s' v).congr ?_, hr⟩
  intro q
  by_cases hq : q = p
  · subst hq
    simp only [atPort, if_true, joinCell]
    rw [hmem, if_neg ht]
  · simp [atPort, hq]

lemma activate_spec {s : Switch} (hs : VlansOk s) {p : Nat} (hp : (s.portv p).isSome = true) {port : Port}
    (hu : port.vlanuntag ≠ noVlan → s.valid port.vlanuntag = true) : Reworks s (activate p port s) ∧ ∀ v q,
    v ≠ noVlan → (activate p port s).cell v q =
    atPort p (activateCell (port.vlanuntag == v) (s.valid v)) q (s.cell v q) := by
  have h1 := joinLoop_effects hs hp port.vlanuntag
  unfold activate
  generalize (s.forVlans (fun i s => if s.check .table i p then
    fstaddport i p (i != port.vlanuntag) (s.set .bctag i p) else s)) = s1 at h1
  have hloop : ∀ v q, s1.cell v q =
      atPort p (fun c => if s.valid v then joinCell (!(port.vlanuntag == v)) c else c) q (s.cell v q) := by
    intro v q
    rw [h1.cell]
    by_cases hq : q = p
    · have hbne : (v != port.vlanuntag) = !(port.vlanuntag == v) := by
        rw [bne, Bool.beq_comm]
      simp [atPort, hq, hbne]
    · simp [atPort, hq]
  by_cases hno : port.vlanuntag = noVlan
  · simp only [hno, ne_eq, not_true_eq_false, if_false]
    refine ⟨h1.reworks, fun v q hv => ?_⟩
    have hbeq : (noVlan == v) = false := by simpa using fun h => hv h.symm
    rw [hloop, hno]
    by_cases hq : q = p
    · simp [atPort, hq, activateCell, hbeq]
    · simp [atPort, hq]
  have hr := h1.ready port.vlanuntag (hu hno)
  have h2 := (((Effect.start s1 port.vlanuntag p).set hr .bcuntag).clr hr .bctag).clr hr .notlearning
  simp only [hno, ne_eq, not_false_eq_true, if_true]
  refine ⟨h1.reworks.trans h2.reworks, fun v q _ => ?_⟩
  by_cases hv : v = port.vlanuntag
  · subst hv
    rw [h2.cell, hloop]
    by_cases hq : q = p
    · simp [atPort, hq, activateCell, joinOwnCell]
    · simp [atPort, hq]
  have hbeq : (port.vlanuntag == v) = false := by simpa using fun h => hv h.symm
  rw [h2.other v q hv, hloop]
  by_cases hq : q = p
  · simp [atPort, hq, activateCell, hbeq]
  · simp [atPort, hq]

section

variable {free quiet : Prop} {s : Switch}

lemma CellInv.activate (h : CellInv free quiet true false u va c)
    (hfree : free → u = false → c .table = true → c .notlearning = false) :
    CellInv free quiet true true u va (activateCell u va c) := by
  obtain ⟨hbcuntag, hbctag, huntag, htagged, hbackup⟩ := h.inactive
  have hsilent : quiet → c .notlearning = false := fun hq => (h.silent hq).1
  cases u with
  | true =>
    obtain ⟨rfl, ht⟩ := h.own rfl rfl
    constructor <;> simp [activateCell, joinCell, joinOwnCell, addCell, ht]
  | false =>
    by_cases ht : c .table = true
    · obtain ⟨rfl, -⟩ := h.table ht
      constructor
      case learns => simpa [activateCell, joinCell, addCell, ht] using fun hf => hfree hf rfl ht
      case silent => simpa [activateCell, joinCell, addCell, ht] using hsilent
      all_goals simp [activateCell, joinCell, addCell, ht, hbcuntag]
    have hsame : activateCell false va c = c := by
      cases va <;> simp [activateCell, joinCell, ht]
    rw [hsame]
    have hf : c .table = false := by simpa using ht
    constructor
    case silent => simpa [hbackup] using hsilent
    all_goals simp [hf, hbcuntag, hbctag, huntag, htagged, hbackup]

def joinTrap (p : Nat) (port : Port) (s : Switch) : Prop :=
  ∃ v, v ≠ port.vlanuntag ∧ s.cell v p .table = true ∧ s.cell v p .notlearning = true

lemma activate_reworks (h : SwitchInv free quiet s) {p : Nat} {port : Port} (hp : s.portv p = some port)
    (port' pt : Port) (hvlan : port'.vlanuntag = port.vlanuntag) (hpt : pt.vlanuntag = port.vlanuntag) :
    BaseInv (activate p pt (s.setPort p (some port'))) ∧
    Reworks (s.setPort p (some port')) (activate p pt (s.setPort p (some port'))) ∧ ∀ v q, v ≠ noVlan →
    (activate p pt (s.setPort p (some port'))).cell v q =
    atPort p (activateCell (port.vlanuntag == v) (s.valid v)) q (s.cell v q) := by
  have hsomep : (s.portv p).isSome = true := by simp [hp]
  have hbase : BaseInv (s.setPort p (some port')) :=
    h.core.base.setPort (h.core.range p hsomep) (by rw [hvlan]; exact h.core.vlanuntag p port hp)
  have hvlans : VlansOk (s.setPort p (some port')) := h.core.vlans.setPort hp
  have hown : pt.vlanuntag ≠ noVlan → (s.setPort p (some port')).valid pt.vlanuntag = true := by
    intro hno
    rw [hpt] at hno ⊢
    exact ((h.core.cells _ p hno).own hsomep (by simp [Switch.untagged, hp])).1
  obtain ⟨hre, hcell⟩ := activate_spec hvlans
    (show ((s.setPort p (some port')).portv p).isSome = true by rw [setPort_portv]; simp) hown
  rw [hpt] at hcell
  exact ⟨hre.base hbase, hre, hcell⟩

lemma activate_inv (h : SwitchInv free quiet s) {p : Nat} {port port' : Port} (hp : s.portv p = some port)
    (hep : port.ep = []) (hep' : port'.ep ≠ []) (hvlan : port'.vlanuntag = port.vlanuntag)
    (hfree : free → ¬joinTrap p port s) {pt : Port} (hpt : pt.vlanuntag = port.vlanuntag) :
    SwitchInv free quiet (activate p pt (s.setPort p (some port'))) := by
  have hinactive : s.active p = false := by simp [Switch.active, hp, hep]
  obtain ⟨hbase, hre, hcell⟩ := activate_reworks h hp port' pt hvlan hpt
  refine ⟨hbase.core (fun v q hv => hre.cellOk ?_), ?_⟩
  · rw [hcell v q hv, active_setPort, untagged_setPort, setPort_portv]
    have hold := h.core.cells v q hv
    unfold Switch.CellOk at hold
    by_cases hq : q = p
    · subst hq
      have huv : s.untagged v q = (port.vlanuntag == v) := by simp [Switch.untagged, hp]
      rw [hp, hinactive, huv] at hold
      simp only [if_true, hvlan, atPort, Option.isSome_some]
      have hact : (!port'.ep.isEmpty) = true := by simpa using hep'
      rw [hact]
      apply hold.activate
      intro hfr hne ht
      by_contra hn
      exact hfree hfr ⟨v, fun heq => by simp [heq] at hne, ht, by simpa using hn⟩
    rw [if_neg hq, if_neg hq, if_neg hq, atPort, if_neg hq]
    exact hold
  apply h.entries.rework h.core.hash hre.hash
  rintro v q ⟨h1, h2, h3⟩ -
  have hq : q ≠ p := by
    rintro rfl
    rw [hinactive] at h1
    cases h1
  have hne := h.core.ne_noVlan (h.core.valid_of_check h2)
  have hc := hcell v q hne
  rw [atPort, if_neg hq] at hc
  refine ⟨?_, (congrFun hc .table).trans h2, (congrFun hc .notlearning).trans h3⟩
  rw [active_of_shape hre.shape, active_setPort, if_neg hq]
  exact h1

def grants (belongs : BitVec 32 → BitVec 32 → Bool) (port : Port) (user : BitVec 32) : Bool :=
  checkportAc belongs port user || port.curuser == user

def setupTrap (belongs : BitVec 32 → BitVec 32 → Bool) (portno : Int) (user : BitVec 32)
    (s : Switch) : Prop :=
  ∃ port, s.portv (allocIndex portno s) = some port ∧ port.ep = [] ∧ grants belongs port user = true ∧
    joinTrap (allocIndex portno s) port s

lemma attach_inv (belongs : BitVec 32 → BitVec 32 → Bool) (h : SwitchInv free quiet s) {p : Nat}
    {port : Port} (hp : s.portv p = some port) (fdCtl fdData : Int) (user : BitVec 32)
    (hfree : free → port.ep = [] → grants belongs port user = true → ¬joinTrap p port s) :
    SwitchInv free quiet (attach belongs p fdCtl fdData user port s).2 := by
  unfold attach
  dsimp only
  generalize hcur : (if port.ep = [] ∧ checkportAc belongs port user = true then user
    else port.curuser) = curuser
  have h1 : SwitchInv free quiet (s.setPort p (some { port with curuser := curuser })) :=
    h.setPort hp rfl rfl
  have hp1 : (s.setPort p (some { port with curuser := curuser })).portv p =
      some { port with curuser := curuser } := by
    rw [setPort_portv, if_pos rfl]
  split
  · next huser =>
    split
    · next hep =>
      apply activate_inv h1 hp1 hep (by simp) (by rfl) _ (by rfl)
      intro hfr hjoin
      refine hfree hfr hep ?_ hjoin
      unfold grants
      by_cases hac : checkportAc belongs port user = true
      · simp [hac]
      rw [if_neg (by simp [hac])] at hcur
      simp [hcur, huser]
    next hep =>
    apply h1.setPort hp1 _ (by rfl)
    cases hl : port.ep with
    | nil => exact absurd hl hep
    | cons x l => rfl
  · exact h1

lemma setupEp_inv (belongs : BitVec 32 → BitVec 32 → Bool) (h : SwitchInv free quiet s)
    (portno fdCtl fdData : Int) (user : BitVec 32) (h0 : allocates portno s = true → s.valid 0 = true)
    (hfree : free → ¬setupTrap belongs portno user s) :
    SwitchInv free quiet (setupEp belongs portno fdCtl fdData user s).2 := by
  unfold setupEp
  by_cases hi : s.numports ≤ allocIndex portno s
  · rw [allocPort_full hi]
    exact h
  cases hp : s.portv (allocIndex portno s) with
  | some port =>
    rw [allocPort_old hi hp]
    simp only [h.core.live, Bool.false_eq_true, if_false, hp]
    apply attach_inv belongs h hp
    intro hfr hep hgr hjoin
    exact hfree hfr ⟨port, hp, hep, hgr, hjoin⟩
  | none =>
    have hal : allocates portno s = true := by
      simp only [allocates, hp, Bool.and_eq_true, decide_eq_true_eq, Option.isNone_none, and_true]
      omega
    have hinv := newPort_inv h (by omega) hp (h0 hal)
    rw [allocPort_new hi hp]
    simp only [hinv.core.live, Bool.false_eq_true, if_false, newPort_portv]
    apply attach_inv belongs hinv (newPort_portv s _)
    -- a new port is in no VLAN but 0
    rintro - - - ⟨v, hv, ht, -⟩
    have hcell := newPort_cell (i := allocIndex portno s) (h.core.base.alloc 0 (h0 hal)).1 v
      (allocIndex portno s)
    rw [hcell, if_neg (fun heq => hv heq.1)] at ht
    have hex := ((h.core.cells v _ (h.core.ne_noVlan (h.core.valid_of_check ht))).table ht).2
    simp [hp] at hex

end

end Vde
