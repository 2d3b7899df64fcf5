import Vde.Proofs.SwitchEffects

/-!
# The invariant of the tables

`CellInv` relates the bits of a VLAN and a port to the state of the port: whether it exists, has an
endpoint and is untagged in the VLAN. Two stronger versions are carried along: `free` says that a
port which the protocol does not block learns, `quiet` that the protocol never blocked anything.
-/

namespace Vde

open Bool

/-- The invariant of the cell of VLAN `v` and port `p`: `e`, `a`, `u` and `va` tell whether the port
exists, is active, is untagged in the VLAN, and whether the VLAN is valid. -/
structure CellInv (free quiet : Prop) (e a u va : Bool) (c : Cell) : Prop where
  table : c .table = true → va = true ∧ e = true
  own : e = true → u = true → va = true ∧ c .table = true
  bcuntag : c .bcuntag = true → a = true ∧ u = true
  bctag : c .bctag = true → a = true ∧ c .table = true ∧ u = false
  untag : c .untag = (a && u)
  tagged : c .tagged = (a && c .table && !u)
  backup : c .backup = true → a = true ∧ c .table = true
  blocked : c .backup = true → c .edge = false →
    c .notlearning = true ∧ c .bctag = false ∧ c .bcuntag = false
  opened : a = true → c .table = true →
    c .bctag = true ∨ c .bcuntag = true ∨ c .notlearning = true
  learns : free → a = true → c .table = true → c .edge = false → c .backup = false →
    c .notlearning = false
  silent : quiet → c .notlearning = false ∧ c .backup = false

section

variable {free quiet : Prop} {e a u va : Bool} {c : Cell}

lemma CellInv.isPort (h : CellInv free quiet e a u va c) (ha : a = true → e = true) {t : Tab}
    (ht : t.ofPorts = true) (hc : c t = true) : e = true := by
  cases t with
  | table => exact (h.table hc).2
  | bctag => exact ha (h.bctag hc).1
  | bcuntag => exact ha (h.bcuntag hc).1
  | untag =>
    rw [h.untag, and_eq_true] at hc
    exact ha hc.1
  | tagged =>
    rw [h.tagged, and_eq_true, and_eq_true] at hc
    exact ha hc.1.1
  | backup => exact ha (h.backup hc).1
  | notlearning => exact absurd ht (by simp [Tab.ofPorts])
  | edge => exact absurd ht (by simp [Tab.ofPorts])
  | rcvhist i => exact absurd ht (by simp [Tab.ofPorts])

lemma CellInv.inactive (h : CellInv free quiet e false u va c) :
    c .bcuntag = false ∧ c .bctag = false ∧ c .untag = false ∧ c .tagged = false ∧ c .backup = false := by
  refine ⟨?_, ?_, h.untag, h.tagged, ?_⟩
  · exact Bool.eq_false_iff.mpr (fun hc => Bool.noConfusion (h.bcuntag hc).1)
  · exact Bool.eq_false_iff.mpr (fun hc => Bool.noConfusion (h.bctag hc).1)
  · exact Bool.eq_false_iff.mpr (fun hc => Bool.noConfusion (h.backup hc).1)

lemma CellInv.bctag_of_untagged (h : CellInv free quiet e a true va c) : c .bctag = false :=
  Bool.eq_false_iff.mpr (fun hc => Bool.noConfusion (h.bctag hc).2.2)

lemma CellInv.bcuntag_of_tagged (h : CellInv free quiet e a false va c) : c .bcuntag = false :=
  Bool.eq_false_iff.mpr (fun hc => Bool.noConfusion (h.bcuntag hc).2)

section

variable (h : CellInv free quiet e a u va c)

include h

lemma CellInv.unblock (ha : a = true) (ht : c .table = true) : CellInv free quiet e a u va (unblockCell u c) := by
  subst ha
  obtain ⟨hva, he⟩ := h.table ht
  cases u with
  | true =>
    constructor <;> simp [unblockCell, statusCell, ht, hva, he, h.untag, h.tagged, h.bctag_of_untagged]
  | false =>
    constructor <;> simp [unblockCell, statusCell, ht, hva, he, h.untag, h.tagged, h.bcuntag_of_tagged]

lemma CellInv.newvlan : CellInv free quiet e a u va (newvlanCell u c) := by
  unfold newvlanCell
  split
  · next hb => exact h.unblock (h.backup hb).1 (h.backup hb).2
  · exact h

lemma CellInv.block (hq : ¬quiet) (ha : a = true)
    (ht : c .table = true) : CellInv free quiet e a u va (blockCell c) := by
  subst ha
  obtain ⟨hva, he⟩ := h.table ht
  constructor <;> simp [blockCell, statusCell, ht, hva, he, h.untag, h.tagged, hq]

lemma CellInv.blockLoop (hq : ¬quiet) (ha : a = true → e = true) {t : Tab}
    (ht : t = .untag ∨ t = .tagged) (r q : Nat) : CellInv free quiet e a u va (blockLoopCell t r q c) := by
  unfold blockLoopCell
  split
  · next hc =>
    split
    · have hmem : a = true ∧ c .table = true := by
        rcases ht with rfl | rfl
        · rw [h.untag, and_eq_true] at hc
          exact ⟨hc.1, (h.own (ha hc.1) hc.2).2⟩
        rw [h.tagged] at hc
        simpa using And.left (by simpa using hc)
      exact h.block hq hmem.1 hmem.2
    · exact h
  · exact h

lemma CellInv.fast (hq : ¬quiet) (ha : a = true → e = true) {r q : Nat}
    (hr : q = r → a = true ∧ c .table = true) : CellInv free quiet e a u va (fastCell u r q c) := by
  have h1 := h.blockLoop hq ha (.inl rfl) r q
  have h2 := h1.blockLoop hq ha (.inr rfl) r q
  unfold fastCell atPort
  split
  · next hqr =>
    have hsame : blockLoopCell .tagged r q (blockLoopCell .untag r q c) = c := by
      simp [blockLoopCell, designatedCell, hqr]
    rw [hsame]
    exact h.unblock (hr hqr).1 (hr hqr).2
  · exact h2

lemma CellInv.update : CellInv free quiet e a u va (updateCell u c) := by
  unfold updateCell
  split
  · next hb =>
    split
    · exact h
    · exact h.unblock (h.backup hb).1 (h.backup hb).2
  · exact h

lemma CellInv.rcvhist (i b : Bool) : CellInv free quiet e a u va (Function.update c (.rcvhist i) b) := by
  obtain ⟨h1, h2, h3, h4, h5, h6, h7, h8, h9, h10, h11⟩ := h
  constructor <;> simpa

lemma CellInv.zap (i b : Bool) : CellInv free quiet e a u va (zapCell i b c) := by
  unfold zapCell
  split
  · exact h.rcvhist i false
  · exact h

end

end

/-! ## The invariant of the switch -/

def Switch.CellOk (free quiet : Prop) (v p : Nat) (s : Switch) : Prop :=
  CellInv free quiet (s.portv p).isSome (s.active p) (s.untagged v p) (s.valid v) (s.cell v p)

structure CoreInv (free quiet : Prop) (s : Switch) : Prop where
  vlans : VlansOk s
  unused : ∀ v, s.valid v = false → (∀ t, s.tabs t v = none) ∧ s.fsttab v = none
  range : ∀ p, (s.portv p).isSome = true → p < s.numports
  vlanuntag : ∀ p port, s.portv p = some port → port.vlanuntag ≤ noVlan
  cells : ∀ v p, v ≠ noVlan → s.CellOk free quiet v p
  hash : HashOk s.hash
  live : s.trap = false

structure EntryOk (s : Switch) (v q : Nat) : Prop where
  active : s.active q = true
  table : s.check .table v q = true
  learns : s.check .notlearning v q = false

def EntriesOk (s : Switch) : Prop :=
  ∀ key e, lookup s.hash key = some e → EntryOk s (emac2vlan key).toNat e.port

lemma isSome_of_active {s : Switch} {p : Nat} (h : s.active p = true) : (s.portv p).isSome = true := by
  unfold Switch.active at h
  cases hp : s.portv p with
  | none => simp [hp] at h
  | some port => rfl

lemma active_of_shape {s s' : Switch} (h : s'.shape = s.shape) (p : Nat) : s'.active p = s.active p := by
  unfold Switch.active
  rw [portv_of_shape h]

section

variable {free quiet : Prop} {s s' : Switch} {v p : Nat} {g : Nat → Cell → Cell} {F : Vlst → Vlst}

lemma VlansOk.effect (h : VlansOk s) (he : Effect s s' v g F) (hr : Ready s' v) : VlansOk s' where
  card := by
    rw [validvlan_of_shape he.shape]
    exact h.card
  lt v' hv' := by
    rw [valid_of_shape he.shape] at hv'
    exact h.lt v' hv'
  ready v' hv' := by
    rw [valid_of_shape he.shape] at hv'
    by_cases hvv : v' = v
    · rw [hvv]
      exact hr
    · exact (h.ready v' hv').effectOther he hvv

lemma CoreInv.ne_noVlan (h : CoreInv free quiet s) (hv : s.valid v = true) : v ≠ noVlan := by
  have hlt := h.vlans.lt v hv
  unfold numOfVlan at hlt
  unfold noVlan
  omega

lemma CoreInv.valid_of_check (h : CoreInv free quiet s) {t : Tab} (hc : s.check t v p = true) :
    s.valid v = true := by
  by_contra hv
  have htabs := (h.unused v (by simpa using hv)).1 t
  simp [Switch.check, htabs] at hc

lemma CoreInv.effect (h : CoreInv free quiet s) (hv : s.valid v = true) (he : Effect s s' v g F)
    (hg : ∀ q, s.CellOk free quiet v q → CellInv free quiet (s.portv q).isSome (s.active q)
      (s.untagged v q) true (g q (s.cell v q))) : CoreInv free quiet s' where
  vlans := by
    apply h.vlans.effect he
    apply (h.vlans.ready v hv).effect he
    intro q t ht hq
    exact (hg q (h.cells v q (h.ne_noVlan hv))).isPort isSome_of_active ht hq
  unused v' hv' := by
    rw [valid_of_shape he.shape] at hv'
    obtain ⟨htabs, hfst⟩ := h.unused v' hv'
    have hvv : v' ≠ v := by
      rintro rfl
      rw [hv] at hv'
      cases hv'
    refine ⟨fun t => (he.null t v').mpr (htabs t), ?_⟩
    rw [he.fstOther v' hvv]
    exact hfst
  range q hq := by
    rw [portv_of_shape he.shape] at hq
    rw [numports_of_shape he.shape]
    exact h.range q hq
  vlanuntag q port hq := by
    rw [portv_of_shape he.shape] at hq
    exact h.vlanuntag q port hq
  cells v' q hv' := by
    have hold := h.cells v' q hv'
    unfold Switch.CellOk
    rw [portv_of_shape he.shape, active_of_shape he.shape, untagged_of_shape he.shape,
      valid_of_shape he.shape]
    by_cases hvv : v' = v
    · subst hvv
      rw [he.cell, hv]
      exact hg q hold
    rw [he.other v' q hvv]
    exact hold
  hash := (he.hash h.hash).1
  live := by
    change s'.shape.trap = false
    rw [he.shape]
    exact h.live

lemma EntriesOk.clear (h : EntriesOk s) (hok : HashOk s.hash) (hv : v < 65536)
    (he : Effect s s' v g F) (hclear : HashClear v s'.hash) : EntriesOk s' := by
  intro key entry hl
  obtain ⟨h1, h2, h3⟩ := h key entry ((he.hash hok).2 key entry hl)
  have hne : (emac2vlan key).toNat ≠ v := by
    intro heq
    apply hclear key entry hl
    apply BitVec.eq_of_toNat_eq
    rw [BitVec.toNat_ofNat, heq, Nat.mod_eq_of_lt hv]
  have hcell := he.other (emac2vlan key).toNat entry.port hne
  refine ⟨by rwa [active_of_shape he.shape], ?_, ?_⟩
  · exact (congrFun hcell .table).trans h2
  · exact (congrFun hcell .notlearning).trans h3

lemma EntriesOk.keep (h : EntriesOk s) (hok : HashOk s.hash) (he : Effect s s' v g F)
    (hg : ∀ q, s.cell v q .table = true → s.cell v q .notlearning = false →
      g q (s.cell v q) .table = true ∧ g q (s.cell v q) .notlearning = false) : EntriesOk s' := by
  intro key entry hl
  obtain ⟨h1, h2, h3⟩ := h key entry ((he.hash hok).2 key entry hl)
  refine ⟨by rwa [active_of_shape he.shape], ?_, ?_⟩ <;>
    by_cases hvv : (emac2vlan key).toNat = v
  · rw [hvv] at h2 h3 ⊢
    exact (congrFun (he.cell entry.port) .table).trans (hg entry.port h2 h3).1
  · exact (congrFun (he.other _ entry.port hvv) .table).trans h2
  · rw [hvv] at h2 h3 ⊢
    exact (congrFun (he.cell entry.port) .notlearning).trans (hg entry.port h2 h3).2
  · exact (congrFun (he.other _ entry.port hvv) .notlearning).trans h3

end

section

variable {free quiet : Prop} {s s' : Switch} {g : Nat → Option Vlst → Nat → Cell → Cell}
  {F : Nat → (Nat → Cell) → Vlst → Vlst}

lemma VlansOk.effects (h : VlansOk s) (he : Effects s s' g F) : VlansOk s' where
  card := by
    rw [validvlan_of_shape he.shape]
    exact h.card
  lt v hv := by
    rw [valid_of_shape he.shape] at hv
    exact h.lt v hv
  ready v hv := by
    rw [valid_of_shape he.shape] at hv
    exact he.ready v hv

lemma CoreInv.effects (h : CoreInv free quiet s) (he : Effects s s' g F)
    (hg : ∀ v q, s.valid v = true → s.CellOk free quiet v q →
      CellInv free quiet (s.portv q).isSome (s.active q) (s.untagged v q) true
        (g v (s.fsttab v) q (s.cell v q))) : CoreInv free quiet s' where
  vlans := h.vlans.effects he
  unused v hv := by
    rw [valid_of_shape he.shape] at hv
    obtain ⟨htabs, hfst⟩ := h.unused v hv
    refine ⟨fun t => (he.null t v).mpr (htabs t), ?_⟩
    rw [he.fst, hv]
    exact hfst
  range q hq := by
    rw [portv_of_shape he.shape] at hq
    rw [numports_of_shape he.shape]
    exact h.range q hq
  vlanuntag q port hq := by
    rw [portv_of_shape he.shape] at hq
    exact h.vlanuntag q port hq
  cells v q hv := by
    have hold := h.cells v q hv
    unfold Switch.CellOk
    rw [portv_of_shape he.shape, active_of_shape he.shape, untagged_of_shape he.shape,
      valid_of_shape he.shape, he.cell]
    cases hvalid : s.valid v with
    | true =>
      rw [if_pos rfl]
      exact hg v q hvalid hold
    | false =>
      unfold Switch.CellOk at hold
      rw [hvalid] at hold
      exact hold
  hash := (he.hash h.hash).1
  live := by
    change s'.shape.trap = false
    rw [he.shape]
    exact h.live

lemma EntriesOk.effects (h : EntriesOk s) (hok : HashOk s.hash) (he : Effects s s' g F)
    (hg : ∀ v q, s.cell v q .table = true → s.cell v q .notlearning = false →
      g v (s.fsttab v) q (s.cell v q) .table = true ∧
        g v (s.fsttab v) q (s.cell v q) .notlearning = false) : EntriesOk s' := by
  intro key entry hl
  obtain ⟨h1, h2, h3⟩ := h key entry ((he.hash hok).2 key entry hl)
  have hcell := he.cell (emac2vlan key).toNat entry.port
  obtain ⟨hgt, hgn⟩ := hg _ _ h2 h3
  refine ⟨by rwa [active_of_shape he.shape], ?_, ?_⟩
  · rw [show s'.check .table _ _ = _ from congrFun hcell .table]
    split
    · exact hgt
    · exact h2
  rw [show s'.check .notlearning _ _ = _ from congrFun hcell .notlearning]
  split
  · exact hgn
  · exact h3

end

/-! ## States that differ in other variables -/

structure SameTables (s s' : Switch) : Prop where
  portv : s'.portv = s.portv
  numports : s'.numports = s.numports
  validvlan : s'.validvlan = s.validvlan
  tabs : s'.tabs = s.tabs
  fsttab : s'.fsttab = s.fsttab
  trap : s'.trap = s.trap

section

variable {free quiet : Prop} {s s' : Switch}

section

variable (h : SameTables s s')

include h

lemma SameTables.cell : s'.cell = s.cell := by
  funext v p t
  unfold Switch.cell Switch.check
  rw [h.tabs]

lemma SameTables.valid (v : Nat) : s'.valid v = s.valid v := by
  unfold Switch.valid
  rw [h.validvlan]

lemma SameTables.ready {v : Nat} (hr : Ready s v) : Ready s' v := by
  refine ⟨?_, ?_, ?_, ?_⟩
  · rw [h.tabs]
    exact hr.tabs
  · rw [h.fsttab]
    exact hr.fst
  · rw [h.cell, h.portv]
    exact hr.ports
  · rw [h.portv, h.numports]
    exact hr.range

lemma SameTables.core (hc : CoreInv free quiet s) (hok : HashOk s'.hash) : CoreInv free quiet s' where
  vlans := by
    refine ⟨?_, fun v hv => ?_, fun v hv => ?_⟩
    · rw [h.validvlan]
      exact hc.vlans.card
    · rw [h.valid] at hv
      exact hc.vlans.lt v hv
    rw [h.valid] at hv
    exact h.ready (hc.vlans.ready v hv)
  unused v hv := by
    rw [h.valid] at hv
    rw [h.tabs, h.fsttab]
    exact hc.unused v hv
  range := by
    rw [h.portv, h.numports]
    exact hc.range
  vlanuntag := by
    rw [h.portv]
    exact hc.vlanuntag
  cells v p hv := by
    unfold Switch.CellOk Switch.active Switch.untagged
    rw [h.portv, h.valid, h.cell]
    exact hc.cells v p hv
  hash := hok
  live := by
    rw [h.trap]
    exact hc.live

lemma SameTables.entryOk {v q : Nat} (he : EntryOk s v q) : EntryOk s' v q := by
  obtain ⟨h1, h2, h3⟩ := he
  unfold Switch.active at h1
  unfold Switch.check at h2 h3
  refine ⟨?_, ?_, ?_⟩
  · unfold Switch.active
    rwa [h.portv]
  · unfold Switch.check
    rwa [h.tabs]
  unfold Switch.check
  rwa [h.tabs]

lemma SameTables.entries (he : EntriesOk s) (hok : HashOk s.hash) (hle : HashLe s.hash s'.hash) : EntriesOk s' :=
  fun key e hl => h.entryOk (he key e ((hle hok).2 key e hl))

end

end

end Vde
