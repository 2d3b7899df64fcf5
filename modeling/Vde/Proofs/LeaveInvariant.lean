import Vde.Proofs.PortInvariant

/-!
# Closing and removing ports

A port that loses its last endpoint leaves the sets of active ports in all its VLANs, and its
entries leave the hash table. Only then can it be removed.
-/

namespace Vde

open Function

def HashFree (p : Nat) (t : HashTable) : Prop := ∀ key e, lookup t key = some e → e.port ≠ p

lemma HashFree.le {p : Nat} {t t' : HashTable} (h : HashFree p t) (hok : HashOk t)
    (hle : HashLe t t') : HashFree p t' :=
  fun key e he => h key e ((hle hok).2 key e he)

lemma hashFree_deletePort {p : Nat} {t : HashTable} (hok : HashOk t) : HashFree p (hashDeletePort p t) := by
  obtain ⟨chain, hwf⟩ := hok
  intro key e he
  unfold hashDeletePort at he
  rw [lookup_forAllHash hwf, Option.filter_eq_some_iff] at he
  simpa using he.2

section

variable {s s' : Switch} {v p : Nat}

lemma EntriesOk.without (h : EntriesOk s) (hok : HashOk s.hash) (hle : HashLe s.hash s'.hash)
    (hfree : HashFree p s'.hash) (hother : ∀ v q, q ≠ p → EntryOk s v q → EntryOk s' v q) : EntriesOk s' := by
  apply h.rework hok hle
  rintro v q hent ⟨key, e, hl, rfl⟩
  exact hother v e.port (hfree key e hl) hent

lemma Ready.delPlane (hr : Ready s v) {u : Nat → Bool} {root : Bool} {F : Vlst → Vlst}
    (he : Effect s s' v (delPlane u root p) F) : Ready s' v := by
  apply hr.effect he
  intro q t ht hq
  by_contra hnone
  have hc : ∀ t', t'.ofPorts = true → s.cell v q t' = false := by
    intro t' ht'
    by_contra hct
    exact hnone (hr.ports t' q ht' (by simpa using hct))
  have hdel : ∀ t', t'.ofPorts = true → atPort p delCell q (s.cell v q) t' = false := by
    intro t' ht'
    unfold atPort
    split
    · cases t' <;> simp_all [delCell, Tab.ofPorts]
    · exact hc t' ht'
  have hsame : Vde.delPlane u root p q (s.cell v q) = atPort p delCell q (s.cell v q) := by
    unfold Vde.delPlane newvlanCell
    simp [hdel .backup rfl]
  rw [hsame, hdel t ht] at hq
  cases hq

lemma delPlane_other {u : Nat → Bool} {root : Bool} {q : Nat} (hq : q ≠ p) (c : Cell) :
    delPlane u root p q c = if root then newvlanCell (u q) c else c := by
  unfold delPlane atPort
  rw [if_neg hq]

lemma delPlane_self (u : Nat → Bool) (root : Bool) (p : Nat) (c : Cell) : delPlane u root p p c = delCell c := by
  unfold delPlane atPort newvlanCell
  simp [delCell]

end

/-! ## Closing the last endpoint -/

def leaveCell (c : Cell) : Cell := fun t =>
  match t with
  | .bctag | .bcuntag | .untag | .tagged | .backup | .edge => false
  | t => c t

def leavePlane (s : Switch) (p v : Nat) (f : Option Vlst) (q : Nat) (c : Cell) : Cell :=
  delPlane (s.untagged v) (f.any (fun f => decide (p = f.rootport))) p q
    (atPort p (fun c => update c .bctag false) q c)

lemma leaveLoop_effects {s : Switch} (hs : VlansOk s) {p : Nat} (hp : (s.portv p).isSome = true) :
    Effects s (s.forVlans (fun i s => fstdelport i p (s.clr .bctag i p))) (leavePlane s p)
      (fun _ _ => delVlst s.myid s.now p) := by
  apply forVlans_effects hs
  intro s' v _ hr hshape
  have hsome : (s'.portv p).isSome = true := by rwa [portv_of_shape hshape]
  obtain ⟨f, hf⟩ := Option.ne_none_iff_exists'.mp hr.fst
  have h1 := clr_effect (hr.tabs .bctag) p
  have hr1 := hr.effectAt h1 hsome
  have hf1 : (s'.clr .bctag v p).fsttab v = some f := by
    rw [h1.fst, hf]
    rfl
  have h2 := (fstdelport_effect hr1 (h1.isSome hsome) hf1).1
  have hr2 := hr1.delPlane h2
  have hshape1 := h1.shape.trans hshape
  rw [myid_of_shape hshape1, now_of_shape hshape1] at h2
  have hu : (s'.clr .bctag v p).untagged v = s.untagged v := by
    funext q
    rw [untagged_of_shape hshape1]
  rw [hu] at h2
  refine ⟨?_, hr2⟩
  rw [hf]
  exact h1.trans h2

/-- The rest of `close_ep_port_fd` once the port has no endpoint. -/
def leave (p u : Nat) (s : Switch) : Switch :=
  let s := s.forVlans (fun i s => fstdelport i p (s.clr .bctag i p))
  if u < noVlan then s.clr .bcuntag u p else s

lemma leave_spec {s : Switch} (hs : VlansOk s) {p u : Nat} (hp : (s.portv p).isSome = true)
    (hu : u < noVlan → s.valid u = true) (hown : ∀ v, v ≠ noVlan → s.cell v p .bcuntag = true → v = u) :
    Reworks s (leave p u s) ∧
    (∀ v, v ≠ noVlan → s.valid v = true → (leave p u s).cell v p = leaveCell (s.cell v p)) ∧ ∀ v q, q ≠ p →
    (leave p u s).cell v q = s.cell v q ∨ (leave p u s).cell v q = newvlanCell (s.untagged v q) (s.cell v q) := by
  have h1 := leaveLoop_effects hs hp
  unfold leave
  dsimp only
  generalize (s.forVlans (fun i s => fstdelport i p (s.clr .bctag i p))) = s1 at h1
  have hself : ∀ v, s.valid v = true →
      s1.cell v p = delCell (update (s.cell v p) .bctag false) := by
    intro v hv
    rw [h1.cell, if_pos hv, leavePlane, delPlane_self, atPort, if_pos rfl]
  have hother : ∀ v q, q ≠ p → s1.cell v q = s.cell v q ∨
      s1.cell v q = newvlanCell (s.untagged v q) (s.cell v q) := by
    intro v q hq
    rw [h1.cell]
    split
    · rw [leavePlane, delPlane_other hq, atPort, if_neg hq]
      split
      · exact .inr rfl
      · exact .inl rfl
    · exact .inl rfl
  -- in the other VLANs the port is not a member of `bcuntag`
  have hleave : ∀ v, v ≠ noVlan → s.valid v = true → v ≠ u →
      s1.cell v p = leaveCell (s.cell v p) := by
    intro v hv hvv hne
    have hbc : s.cell v p .bcuntag = false := by
      by_contra hbc
      exact hne (hown v hv (by simpa using hbc))
    rw [hself v hvv]
    funext t
    cases t <;> simp [delCell, leaveCell, hbc]
  by_cases hlt : u < noVlan
  · have h2 := clr_effect ((h1.ready u (hu hlt)).tabs .bcuntag) p
    simp only [if_pos hlt]
    refine ⟨h1.reworks.trans h2.reworks, fun v hv hvv => ?_, fun v q hq => ?_⟩
    · by_cases hvu : v = u
      · subst hvu
        rw [h2.cell, atPort, if_pos rfl, hself v hvv]
        funext t
        cases t <;> simp [delCell, leaveCell]
      rw [h2.other v p hvu]
      exact hleave v hv hvv hvu
    by_cases hvu : v = u
    · subst hvu
      rw [h2.cell, atPort, if_neg hq]
      exact hother v q hq
    rw [h2.other v q hvu]
    exact hother v q hq
  simp only [if_neg hlt]
  refine ⟨h1.reworks, fun v hv hvv => ?_, hother⟩
  by_cases hvu : v = u
  · subst hvu
    have hlt' := hs.lt v hvv
    unfold numOfVlan at hlt'
    unfold noVlan at hlt
    omega
  · exact hleave v hv hvv hvu

section

variable {free quiet : Prop} {s : Switch} {p : Nat}

lemma CellInv.leave {a u va : Bool} {c : Cell} (h : CellInv free quiet true a u va c) :
    CellInv free quiet true false u va (leaveCell c) where
  table := h.table
  own := h.own
  bcuntag := nofun
  bctag := nofun
  untag := rfl
  tagged := rfl
  backup := nofun
  blocked := nofun
  opened := nofun
  learns := nofun
  silent := fun hq => ⟨(h.silent hq).1, rfl⟩

lemma BaseInv.cell_unused (h : BaseInv s) {v : Nat} (hv : s.valid v = false) (q : Nat) :
    s.cell v q = fun _ => false := by
  funext t
  simp [Switch.cell, Switch.check, (h.unused v hv).1 t]

lemma SwitchInv.hashLe (h : SwitchInv free quiet s) {t : HashTable} (hle : HashLe s.hash t) :
    SwitchInv free quiet { s with hash := t } :=
  have hsame : SameTables s { s with hash := t } := ⟨rfl, rfl, rfl, rfl, rfl, rfl⟩
  ⟨hsame.core h.core (hle h.core.hash).1, hsame.entries h.entries h.core.hash hle⟩

lemma leave_inv (h : SwitchInv free quiet s) (hfree : HashFree p s.hash) {port : Port} (port' : Port)
    (hp : s.portv p = some port) (hep : port'.ep = []) (hvlan : port'.vlanuntag = port.vlanuntag) :
    SwitchInv free quiet (leave p port'.vlanuntag (s.setPort p (some port'))) := by
  have hle := h.core.vlanuntag p port hp
  have hsomep : (s.portv p).isSome = true := by simp [hp]
  have hbase : BaseInv (s.setPort p (some port')) :=
    h.core.base.setPort (h.core.range p hsomep) (by rw [hvlan]; exact hle)
  have hvlans : VlansOk (s.setPort p (some port')) := h.core.vlans.setPort hp
  have huv : ∀ v, s.untagged v p = (port.vlanuntag == v) := by
    intro v
    simp [Switch.untagged, hp]
  obtain ⟨hre, hself, hother⟩ := leave_spec (p := p) (u := port'.vlanuntag) hvlans
    (by rw [setPort_portv]; simp)
    (by
      intro hlt
      rw [hvlan] at hlt ⊢
      exact ((h.core.cells _ p (by omega)).own hsomep (by rw [huv]; simp)).1)
    (by
      intro v hv hbc
      have hu := ((h.core.cells v p hv).bcuntag hbc).2
      rw [huv] at hu
      rw [hvlan]
      exact (by simpa using hu : port.vlanuntag = v).symm)
  generalize leave p port'.vlanuntag (s.setPort p (some port')) = s' at hre hself hother
  have hbase' := hre.base hbase
  refine ⟨hbase'.core (fun v q hv => hre.cellOk ?_), ?_⟩
  · rw [active_setPort, untagged_setPort, setPort_portv]
    have hold := h.core.cells v q hv
    unfold Switch.CellOk at hold
    by_cases hq : q = p
    · subst hq
      have hcell : s'.cell v q = leaveCell (s.cell v q) := by
        cases hvv : (s.setPort q (some port')).valid v with
        | true => exact hself v hv hvv
        | false =>
          have hvv' : s'.valid v = false := by
            rw [valid_of_shape hre.shape]
            exact hvv
          rw [hbase'.cell_unused hvv', h.core.base.cell_unused hvv]
          funext t
          cases t <;> rfl
      rw [hp, huv] at hold
      rw [hcell]
      simp only [if_true, hvlan, hep, List.isEmpty_nil, Bool.not_true, Option.isSome_some]
      exact hold.leave
    rw [if_neg hq, if_neg hq, if_neg hq]
    have hunt : (s.setPort p (some port')).untagged v q = s.untagged v q := by
      rw [untagged_setPort, if_neg hq]
    have ho := hother v q hq
    rw [hunt] at ho
    rcases ho with hsame | hnew
    · rw [hsame]
      exact hold
    rw [hnew]
    exact hold.newvlan
  apply h.entries.without h.core.hash hre.hash
    (hfree.le h.core.hash hre.hash)
  rintro v q hq ⟨h1, h2, h3⟩
  have hkeep : s'.cell v q .table = true ∧ s'.cell v q .notlearning = false := by
    rcases hother v q hq with hsame | hnew
    · rw [hsame]
      exact ⟨h2, h3⟩
    rw [hnew]
    exact newvlanCell_keeps _ h2 h3
  refine ⟨?_, hkeep.1, hkeep.2⟩
  rw [active_of_shape hre.shape, active_setPort, if_neg hq]
  exact h1

lemma inactivate_eq (port : Port) (s : Switch) :
    inactivate p port s =
      leave p port.vlanuntag ({ s with hash := hashDeletePort p s.hash }.setPort p
        (some { port with curuser := noId })) := rfl

lemma closeEpPortFd_inv (h : SwitchInv free quiet s) (portno fdCtl : Int) :
    SwitchInv free quiet (closeEpPortFd portno fdCtl s).2 := by
  unfold closeEpPortFd
  split
  · split
    · exact h
    next port hp =>
    dsimp only
    split
    · next hep =>
      rw [inactivate_eq]
      have h1 : SwitchInv free quiet { s with hash := hashDeletePort portno.toNat s.hash } :=
        h.hashLe (hashLe_forAllHash _ _)
      have h2 := leave_inv h1 (hashFree_deletePort h.core.hash)
        { port with ep := port.ep.eraseP (fun e => e.fdCtl == fdCtl), curuser := noId } hp hep rfl
      simpa [Switch.setPort] using h2
    next hep =>
    apply h.setPort hp _ (by rfl)
    cases hl : port.ep with
    | nil => simp [hl] at hep
    | cons e l =>
      rw [hl] at hep
      simpa using hep
  · exact h

end

/-! ## Removing ports -/

section

variable {free quiet : Prop} {s : Switch} {p : Nat}

lemma clearLoop_effects (hs : VlansOk s) (hp : (s.portv p).isSome = true) :
    Effects s (s.forVlans (fun i s => s.clr .table i p))
      (fun _ _ => atPort p (fun c => update c .table false)) (fun _ _ => id) := by
  apply forVlans_effects hs
  intro s' v _ hr hshape
  have he := clr_effect (hr.tabs .table) p
  exact ⟨he, hr.effectAt he (by rwa [portv_of_shape hshape])⟩

lemma clearLoop_setPort (s : Switch) : (s.setPort p none).forVlans (fun i s => s.clr .table i p) =
    (s.forVlans (fun i s => s.clr .table i p)).setPort p none := by
  unfold Switch.forVlans
  apply bacForall_comm (Switch.setPort p none)
  · exact fun _ => rfl
  intro v s
  unfold Switch.clr
  cases ht : s.tabs .table v <;> simp [Switch.setPort, ht, Switch.crash, Switch.store]

lemma BaseInv.removePort (h : BaseInv s) : BaseInv (s.setPort p none) := by
  refine ⟨h.card, h.lt, h.alloc, h.unused, fun q hq => ?_, fun q pt hq => ?_, h.hash, h.live⟩
  · rw [setPort_portv] at hq
    split at hq
    · exact absurd hq (by simp)
    · exact h.range q hq
  rw [setPort_portv] at hq
  split at hq
  · exact absurd hq (by simp)
  · exact h.vlanuntag q pt hq

lemma CellInv.remove {u va va' : Bool} {c : Cell} (h : CellInv free quiet true false u va c) :
    CellInv free quiet false false false va' (Function.update c .table false) := by
  obtain ⟨hbcuntag, hbctag, huntag, htagged, hbackup⟩ := h.inactive
  constructor
  case silent => simpa using h.silent
  all_goals simp [hbcuntag, hbctag, huntag, htagged, hbackup]

lemma freePort_inv (h : SwitchInv free quiet s) : SwitchInv free quiet (freePort p s) := by
  unfold freePort
  split
  · split
    · exact h
    next port hp =>
    split
    · next hep =>
      rw [clearLoop_setPort]
      have he := clearLoop_effects h.core.vlans (p := p) (by simp [hp])
      generalize s.forVlans (fun i s => s.clr .table i p) = s1 at he
      have hbase := (he.reworks.base h.core.base).removePort (p := p)
      have hinactive : s.active p = false := by simp [Switch.active, hp, hep]
      have hportv : ∀ q, (s1.setPort p none).portv q = if q = p then none else s.portv q := by
        intro q
        rw [setPort_portv, portv_of_shape he.shape]
      have hvalid : ∀ v, (s1.setPort p none).valid v = s.valid v := fun v =>
        (valid_of_shape he.shape v : s1.valid v = s.valid v)
      have hle : HashLe s.hash (s1.setPort p none).hash := he.hash
      have hcell : ∀ v q, (s1.setPort p none).cell v q =
          atPort p (fun c => update c .table false) q (s.cell v q) := by
        intro v q
        refine (he.cell v q).trans ?_
        split
        · rfl
        next hv =>
        rw [h.core.base.cell_unused (by simpa using hv)]
        unfold atPort
        split
        · exact (update_eq_self _ _).symm
        · rfl
      refine ⟨hbase.core (fun v q hv => ?_), ?_⟩
      · have hold := h.core.cells v q hv
        unfold Switch.CellOk Switch.active Switch.untagged at hold ⊢
        rw [hcell, hvalid, hportv]
        by_cases hq : q = p
        · subst hq
          rw [hp] at hold
          simp only [if_true, atPort]
          rw [show Option.any (fun port => !port.ep.isEmpty) (some port) = false by simp [hep]] at hold
          exact hold.remove
        rw [if_neg hq, atPort, if_neg hq]
        exact hold
      apply h.entries.rework h.core.hash hle
      rintro v q ⟨h1, h2, h3⟩ -
      have hq : q ≠ p := by
        rintro rfl
        rw [hinactive] at h1
        cases h1
      have hc := hcell v q
      rw [atPort, if_neg hq] at hc
      refine ⟨?_, (congrFun hc .table).trans h2, (congrFun hc .notlearning).trans h3⟩
      unfold Switch.active at h1 ⊢
      rw [hportv, if_neg hq]
      exact h1
    · exact h
  · exact h

lemma portremove_inv (h : SwitchInv free quiet s) (val : Int) : SwitchInv free quiet (portremove val s).2 := by
  apply withPort_inv h
  intro i port _
  split
  · exact freePort_inv h
  · exact h

/-! ## The number of ports -/

lemma CellInv.shrink {va : Bool} {c c' : Cell} (h : CellInv free quiet false false false va c)
    (hsub : ∀ t, c' t = true → c t = true) : CellInv free quiet false false false va c' := by
  obtain ⟨h1, h2, h3, h4, h5, h6, h7, h8, h9, h10, h11⟩ := h
  have hclr : ∀ t, c t = false → c' t = false := by
    intro t ht
    by_contra hne
    rw [hsub t (by simpa using hne)] at ht
    cases ht
  simp only [Bool.false_and] at h5 h6
  constructor
  · intro hc
    exact h1 (hsub _ hc)
  · simp
  · intro hc
    exact h3 (hsub _ hc)
  · intro hc
    exact absurd (h4 (hsub _ hc)).1 (by simp)
  · exact hclr _ h5
  · exact hclr _ h6
  · intro hc
    exact absurd (h7 (hsub _ hc)).1 (by simp)
  · intro hc
    exact absurd (h7 (hsub _ hc)).1 (by simp)
  · simp
  · simp
  · intro hq
    exact ⟨hclr _ (h11 hq).1, hclr _ (h11 hq).2⟩

def resized (n : Nat) (s : Switch) : Switch :=
  { s with
    numports := n
    portv := fun i => if s.numports ≤ i ∧ i < n then none else s.portv i
    tabs := fun t v =>
      if v < numOfVlan then (s.tabs t v).map (fun x => baRealloc x s.numports n) else s.tabs t v }

lemma portsetnumports_eq (val : Int) (s : Switch) :
    (portsetnumports val s).2 = s ∨
      ((∀ i, val.toNat ≤ i → i < s.numports → s.portv i = none) ∧
        (portsetnumports val s).2 = resized val.toNat s) := by
  unfold portsetnumports
  split
  · dsimp only
    split
    · exact .inl rfl
    next hany =>
    refine .inr ⟨fun i h1 h2 => ?_, ?_⟩
    · rw [Bool.not_eq_true, List.any_eq_false] at hany
      have hi := hany i (List.mem_range'_1.mpr ⟨h1, by omega⟩)
      simpa using hi
    unfold resized fstsetnumports
    dsimp only
    congr 1
    funext t v
    cases t <;> rfl
  · exact .inl rfl

lemma resized_portv (h : BaseInv s) (n : Nat) : (resized n s).portv = s.portv := by
  funext i
  unfold resized
  dsimp only
  split
  · next hi =>
    cases hp : s.portv i with
    | none => rfl
    | some port =>
      have hlt := h.range i (by simp [hp])
      omega
  · rfl

lemma resized_cell (n : Nat) (s : Switch) (v q : Nat) (t : Tab) :
    (q < s.numports → (resized n s).cell v q t = s.cell v q t) ∧
    ((resized n s).cell v q t = true → s.cell v q t = true) := by
  unfold Switch.cell Switch.check resized
  dsimp only
  by_cases hv : v < numOfVlan
  · rw [if_pos hv]
    cases s.tabs t v with
    | none => simp
    | some x =>
      simp only [Option.map_some, Option.any_some]
      exact ⟨fun hq => baCheck_baRealloc x hq, baCheck_of_baRealloc⟩
  rw [if_neg hv]
  exact ⟨fun _ => rfl, id⟩

lemma BaseInv.resized (h : BaseInv s) {n : Nat} (hn : ∀ i, n ≤ i → i < s.numports → s.portv i = none) :
    BaseInv (resized n s) where
  card := h.card
  lt := h.lt
  alloc v hv := by
    refine ⟨fun t => ?_, (h.alloc v hv).2⟩
    have ht := (h.alloc v hv).1 t
    unfold Vde.resized
    dsimp only
    split
    · simpa using ht
    · exact ht
  unused v hv := by
    refine ⟨fun t => ?_, (h.unused v hv).2⟩
    have ht := (h.unused v hv).1 t
    unfold Vde.resized
    dsimp only
    rw [ht]
    simp
  range q hq := by
    rw [resized_portv h] at hq
    have hlt := h.range q hq
    by_contra hge
    rw [hn q (Nat.le_of_not_lt hge) hlt] at hq
    cases hq
  vlanuntag q port hq := by
    rw [resized_portv h] at hq
    exact h.vlanuntag q port hq
  hash := h.hash
  live := h.live

lemma portsetnumports_inv (h : SwitchInv free quiet s) (val : Int) :
    SwitchInv free quiet (portsetnumports val s).2 := by
  rcases portsetnumports_eq val s with hsame | ⟨hn, hnew⟩
  · rw [hsame]
    exact h
  rw [hnew]
  have hportv := resized_portv h.core.base val.toNat
  have hcell := resized_cell val.toNat s
  refine ⟨(h.core.base.resized hn).core (fun v q hv => ?_), fun key e hl => ?_⟩
  · have hold := h.core.cells v q hv
    unfold Switch.CellOk Switch.active Switch.untagged at hold ⊢
    rw [hportv]
    by_cases hq : q < s.numports
    · have hc : (resized val.toNat s).cell v q = s.cell v q := funext fun t => (hcell v q t).1 hq
      rw [hc]
      exact hold
    have hnone : s.portv q = none := by
      by_contra hne
      exact hq (h.core.range q (Option.isSome_iff_ne_none.mpr hne))
    rw [hnone] at hold ⊢
    exact hold.shrink (fun t => (hcell v q t).2)
  obtain ⟨h1, h2, h3⟩ := h.entries key e hl
  have hq := h.core.range e.port (isSome_of_active h1)
  refine ⟨?_, ((hcell _ _ .table).1 hq).trans h2, ((hcell _ _ .notlearning).1 hq).trans h3⟩
  unfold Switch.active at h1 ⊢
  rw [hportv]
  exact h1

end

end Vde
