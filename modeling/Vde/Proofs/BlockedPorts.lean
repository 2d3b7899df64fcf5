import Vde.Proofs.RunInvariant

/-!
# Ports that the protocol blocks

The state of a port in a VLAN is kept twice, in `notlearning`, `bctag` and `bcuntag` by `port.c` and
in `backup` by `fstp.c`. The two agree for active ports that are not edge ports until an event makes
a port with a stale `notlearning` bit such a port: nothing clears the bit then, and the port is
stuck.
-/

namespace Vde

/-- An active member of a VLAN is blocked, but not by the protocol. -/
structure Stuck (s : Switch) (v p : Nat) : Prop where
  valid : s.valid v = true
  active : s.active p = true
  table : s.check .table v p = true
  edge : s.check .edge v p = false
  backup : s.check .backup v p = false
  notlearning : s.check .notlearning v p = true

def BlockingOk (s : Switch) : Prop :=
  s.trap = false → ∀ v p, s.valid v = true → s.active p = true → s.check .table v p = true →
    s.check .edge v p = false →
      (s.check .notlearning v p = true ↔ s.check .backup v p = true) ∧
      ((s.check .bctag v p = true ∨ s.check .bcuntag v p = true) ↔ s.check .backup v p = false)

variable {user : BitVec 32} {port vlan : Int}

section

variable {free quiet : Prop} {s : Switch} {v p : Nat}

lemma SwitchInv.blockingOk (h : SwitchInv True quiet s) : BlockingOk s := by
  intro _ v p hv ha ht he
  have hc := h.core.cellOk hv p
  have hlearns := hc.learns trivial ha ht he
  have hblocked : s.check .backup v p = true → _ := fun hb => hc.blocked hb he
  have hopened := hc.opened ha ht
  unfold Switch.cell at hlearns hblocked hopened
  cases hb : s.check .backup v p with
  | true =>
    obtain ⟨hn, hbt, hbu⟩ := hblocked hb
    simp [hn, hbt, hbu]
  | false =>
    have hn := hlearns hb
    rw [hn] at hopened ⊢
    refine ⟨Iff.rfl, fun _ => rfl, fun _ => ?_⟩
    simpa using hopened

lemma Stuck.not_blockingOk (h : Stuck s v p) (hlive : s.trap = false) : ¬BlockingOk s := by
  intro hok
  have hb := (hok hlive v p h.valid h.active h.table h.edge).1.mp h.notlearning
  exact Bool.noConfusion (h.backup.symm.trans hb)

/-! ## The events that leave a port stuck -/

lemma Effect.stuck {s' : Switch} {g : Nat → Cell → Cell} {F : Vlst → Vlst} (he : Effect s s' v g F)
    (hvalid : s.valid v = true) (hactive : s.active p = true) (htable : g p (s.cell v p) .table = true)
    (hedge : g p (s.cell v p) .edge = false) (hbackup : g p (s.cell v p) .backup = false)
    (hnotlearning : g p (s.cell v p) .notlearning = true) : Stuck s' v p := by
  have hcell := he.cell p
  refine ⟨?_, ?_, (congrFun hcell .table).trans htable, (congrFun hcell .edge).trans hedge,
    (congrFun hcell .backup).trans hbackup, (congrFun hcell .notlearning).trans hnotlearning⟩
  · rw [valid_of_shape he.shape]
    exact hvalid
  rw [active_of_shape he.shape]
  exact hactive

variable (belongs : BitVec 32 → BitVec 32 → Bool)

lemma attach_activates {port : Port} (hep : port.ep = [])
    (hgr : grants belongs port user = true) (fdCtl fdData : Int) (s : Switch) :
    (attach belongs p fdCtl fdData user port s).2 =
      activate p { port with curuser := user }
        ((s.setPort p (some { port with curuser := user })).setPort p
          (some { port with curuser := user, ep := [⟨p, fdCtl, fdData⟩] })) := by
  have hcur : (if port.ep = [] ∧ checkportAc belongs port user = true then user
      else port.curuser) = user := by
    split
    · rfl
    next hac =>
    unfold grants at hgr
    simpa [hep, show checkportAc belongs port user = false by simpa [hep] using hac] using hgr
  unfold attach
  simp only [hcur]
  simp only [hep, if_true]

section

variable (h : SwitchInv free quiet s)

include h

lemma setupEp_stuck {portno : Int} (ht : setupTrap belongs portno user s)
    (fdCtl fdData : Int) : ∃ v p, Stuck (setupEp belongs portno fdCtl fdData user s).2 v p := by
  obtain ⟨port, hp, hep, hgr, v, hv, htab, hn⟩ := ht
  generalize hi : allocIndex portno s = i at hp htab hn
  have hlt := h.core.range i (by simp [hp])
  have halloc : allocPort portno s = (some i, s) := by
    rw [← hi] at hp hlt ⊢
    exact allocPort_old (by omega) hp
  have hvalid := h.core.valid_of_check htab
  have hresult : (setupEp belongs portno fdCtl fdData user s).2 =
      (attach belongs i fdCtl fdData user port s).2 := by
    unfold setupEp
    simp only [halloc, h.core.live, Bool.false_eq_true, if_false, hp]
  rw [hresult, attach_activates belongs hep hgr]
  have h1 : SwitchInv free quiet (s.setPort i (some { port with curuser := user })) :=
    h.setPort hp rfl rfl
  have hp1 : (s.setPort i (some { port with curuser := user })).portv i =
      some { port with curuser := user } := by
    rw [setPort_portv, if_pos rfl]
  obtain ⟨-, hre, hcell⟩ := activate_reworks h1 hp1
    { port with curuser := user, ep := [⟨i, fdCtl, fdData⟩] } { port with curuser := user } rfl rfl
  have hown : (port.vlanuntag == v) = false := by simpa using fun heq => hv heq.symm
  -- the port joins the VLAN with a tag, and its `notlearning` bit is not looked at
  have hc : ∀ t, _ = _ := fun t => congrFun (hcell v i (h.core.ne_noVlan hvalid)) t
  have hjoin : ∀ t, activateCell false true (s.cell v i) t =
      addCell true (Function.update (s.cell v i) .bctag true) t := by
    intro t
    simp [activateCell, joinCell, htab]
  have hold : ∀ t, atPort i (activateCell (port.vlanuntag == v)
      ((s.setPort i (some { port with curuser := user })).valid v)) i (s.cell v i) t =
      addCell true (Function.update (s.cell v i) .bctag true) t := by
    intro t
    rw [atPort, if_pos rfl, hown, show (s.setPort i _).valid v = true from hvalid, hjoin]
  refine ⟨v, i, ?_, ?_, ?_, ?_, ?_, ?_⟩
  · rw [valid_of_shape hre.shape]
    exact hvalid
  · rw [active_of_shape hre.shape, active_setPort, if_pos rfl]
    rfl
  · exact (hc .table).trans ((hold .table).trans (by simpa [addCell] using htab))
  · exact (hc .edge).trans ((hold .edge).trans rfl)
  · exact (hc .backup).trans ((hold .backup).trans rfl)
  · exact (hc .notlearning).trans ((hold .notlearning).trans (by simpa [addCell] using hn))

lemma portsetvlan_stuck (ht : moveTrap port vlan s) :
    Stuck (portsetvlan (some (port, vlan)) s).2 vlan.toNat port.toNat := by
  obtain ⟨hport, hvlan, ha, hn⟩ := ht
  have hvalid := h.core.valid_of_check hn
  have hne := h.core.ne_noVlan hvalid
  have hlt := h.core.vlans.lt _ hvalid
  have hrange := h.core.range _ (isSome_of_active ha)
  obtain ⟨pt, hp⟩ := Option.isSome_iff_exists.mp (isSome_of_active ha)
  have hep : pt.ep ≠ [] := by
    intro hnil
    simp [Switch.active, hp, hnil] at ha
  have h1 : SwitchInv free quiet { s with hash := hashDeletePort port.toNat s.hash } :=
    h.hashLe (hashLe_forAllHash _ _)
  have hargs : ¬(vlan < 0 ∨ (numOfVlan : Int) < vlan ∨ port < 0 ∨ (s.numports : Int) ≤ port) := by
    omega
  have hresult : (portsetvlan (some (port, vlan)) s).2 = (moveTables port.toNat pt vlan.toNat
      ({ s with hash := hashDeletePort port.toNat s.hash }.setPort port.toNat
        (some { pt with vlanuntag := noVlan }))).setPort port.toNat
          (some { pt with vlanuntag := vlan.toNat }) := by
    unfold portsetvlan
    simp only [if_neg hargs, hp, hvalid, Bool.not_true, Bool.false_eq_true, and_false, if_false]
    rfl
  obtain ⟨-, hre, hself, -⟩ := move_reworks (v := vlan.toNat) h1 hp (fun _ => hvalid)
  have hcell := hself vlan.toNat hne
  rw [if_pos rfl, decide_eq_true hep] at hcell
  rw [hresult]
  generalize moveTables port.toNat pt vlan.toNat _ = s' at hre hcell
  refine ⟨?_, ?_, (congrFun hcell .table).trans ?_, (congrFun hcell .edge).trans ?_,
    (congrFun hcell .backup).trans ?_, (congrFun hcell .notlearning).trans ?_⟩
  · exact (valid_of_shape hre.shape vlan.toNat : s'.valid vlan.toNat = _).trans hvalid
  · rw [active_setPort, if_pos rfl]
    simpa using hep
  · simp [enterCell]
  · simp [enterCell, addCell]
  · simp [enterCell, addCell]
  · simp only [enterCell, addCell, if_true, ne_eq, reduceCtorEq, not_false_eq_true, Function.update_of_ne]
    exact hn

lemma vlanaddport_stuck (ht : addTrap vlan port s) :
    Stuck (vlanaddport (some (vlan, port)) s).2 vlan.toNat port.toNat := by
  obtain ⟨hvlan, hvlan', hport, ha, hu, hn⟩ := ht
  have hvalid := h.core.valid_of_check hn
  have hr := h.core.ready hvalid
  have hsome := isSome_of_active ha
  have hrange := h.core.range _ hsome
  obtain ⟨pt, hp⟩ := Option.isSome_iff_exists.mp hsome
  have hep : pt.ep ≠ [] := by
    intro hnil
    simp [Switch.active, hp, hnil] at ha
  have hadd : pt.ep ≠ [] ∧ pt.vlanuntag ≠ vlan.toNat := by
    refine ⟨hep, ?_⟩
    simpa [Switch.untagged, hp] using hu
  have hargs : ¬(vlan < 0 ∨ (numOfVlan : Int) - 1 ≤ vlan ∨ port < 0 ∨ (s.numports : Int) ≤ port) := by
    omega
  have hresult : (vlanaddport (some (vlan, port)) s).2 =
      (fstaddport vlan.toNat port.toNat true (s.set .bctag vlan.toNat port.toNat)).set .table
        vlan.toNat port.toNat := by
    unfold vlanaddport withVlanPort
    simp only [if_neg hargs, hvalid, Bool.not_true, Bool.false_eq_true, if_false, hp, if_pos hadd]
  obtain ⟨F, he⟩ := joinTables_effect hr hsome
  rw [hresult]
  refine he.stuck hvalid ha ?_ ?_ ?_ ?_
  · simp [atPort]
  · simp [atPort, addCell]
  · simp [atPort, addCell]
  · simpa [atPort, addCell] using hn

lemma fstsetedge_stuck (ht : edgeTrap vlan port s) :
    Stuck (fstsetedge (some (vlan, port, 0)) s).2 vlan.toNat port.toNat := by
  obtain ⟨hvlan, hport, ha, htab, hn⟩ := ht
  have hvalid := h.core.valid_of_check hn
  have hr := h.core.ready hvalid
  have hlt := h.core.vlans.lt _ hvalid
  have hrange := h.core.range _ (isSome_of_active ha)
  have hargs : ¬(vlan < 0 ∨ (numOfVlan : Int) ≤ vlan ∨ port < 0 ∨ (s.numports : Int) ≤ port) := by
    omega
  have hresult : (fstsetedge (some (vlan, port, 0)) s).2 =
      (s.clr .edge vlan.toNat port.toNat).clr .backup vlan.toNat port.toNat := by
    unfold fstsetedge
    simp only [if_neg hargs, hvalid, Bool.not_true, Bool.false_eq_true, if_false, ne_eq, not_true_eq_false]
  have he := ((Effect.start s vlan.toNat port.toNat).clr hr .edge).clr hr .backup
  rw [hresult]
  refine he.stuck hvalid ha ?_ ?_ ?_ ?_
  · simpa [atPort] using htab
  · simp [atPort]
  · simp [atPort]
  · simpa [atPort] using hn

lemma apply_stuck {e : SwitchEvent} (hb : e.Blocks belongs s) : ∃ v p, Stuck (e.apply belongs s) v p := by
  cases e with
  | setupEp portno fdCtl fdData user => exact setupEp_stuck belongs h hb fdCtl fdData
  | portsetvlan arg =>
    cases arg with
    | none => exact hb.elim
    | some arg => exact ⟨_, _, portsetvlan_stuck h hb⟩
  | vlanaddport arg =>
    cases arg with
    | none => exact hb.elim
    | some arg => exact ⟨_, _, vlanaddport_stuck h hb⟩
  | fstsetedge arg =>
    cases arg with
    | none => exact hb.elim
    | some arg =>
      obtain ⟨vlan, port, val⟩ := arg
      obtain ⟨rfl, ht⟩ := hb
      exact ⟨_, _, fstsetedge_stuck h ht⟩
  | _ => exact hb.elim

end

/-! ## Runs -/

lemma CellInv.mono {free' : Prop} (hf : free' → free) {e a u va : Bool} {c : Cell}
    (h : CellInv free quiet e a u va c) : CellInv free' quiet e a u va c :=
  { h with learns := fun hfr => h.learns (hf hfr) }

lemma SwitchInv.mono {free' : Prop} (hf : free' → free) (h : SwitchInv free quiet s) : SwitchInv free' quiet s :=
  ⟨{ h.core with cells := fun v p hv => (h.core.cells v p hv).mono hf }, h.entries⟩

lemma SwitchEvent.Blocks.not_orphans {e : SwitchEvent} (hb : e.Blocks belongs s) : ¬e.Orphans s := by
  cases e with
  | setupEp portno fdCtl fdData user =>
    rintro ⟨hal, -⟩
    obtain ⟨port, hp, -⟩ := hb
    simp [allocates, hp] at hal
  | _ => first | exact id | exact hb.elim

/-- `port.c` and `fstp.c` agree in all states of a run exactly when none of its events makes a port
with a stale `notlearning` bit an active member of a VLAN or an ordinary port. -/
theorem blocking_consistent (hs : SwitchStart s) (es : List SwitchEvent)
    (hes : (switchMachine belongs).Along (switchMachine belongs).enabled s es) :
    (switchMachine belongs).Always BlockingOk s es ↔
    (switchMachine belongs).Along (fun s e => ¬e.Blocks belongs s) s es := by
  apply Machine.always_iff_along (fun s => s.trap = true ∨ SwitchInv True False s) _ _ _
    (.inr hs.inv) es hes
  · rintro s (htrap | h)
    · exact fun hlive => Bool.noConfusion (hlive.symm.trans htrap)
    · exact h.blockingOk
  · rintro s e hinv ⟨hlive, hlegal⟩ hb
    have h := hinv.resolve_left (by simp [hlive])
    by_cases horphan : e.Orphans s
    · exact .inl (apply_trap belongs h horphan)
    · exact .inr (apply_inv belongs h hlegal False.elim horphan (fun _ => hb))
  rintro s e hinv ⟨hlive, hlegal⟩ hb
  have h := hinv.resolve_left (by simp [hlive])
  have hblocks := not_not.mp hb
  obtain ⟨v, p, hstuck⟩ := apply_stuck belongs h hblocks
  have hlive' := (apply_inv belongs (h.mono False.elim) hlegal False.elim
    (hblocks.not_orphans belongs) False.elim).core.live
  exact hstuck.not_blockingOk hlive'

end

/-- Two ports with the same root behind them: the protocol blocks the second one. -/
def blockRun : List SwitchEvent :=
  [.setupEp 1 10 10 0, .setupEp 2 11 11 0, .packet 1 (fun _ => 0) (bpduFrame 1 1 0) none,
    .packet 2 (fun _ => 0) (bpduFrame 1 2 0) none]

lemma blockRun_enabled : (switchMachine noGroups).Along
    (switchMachine noGroups).enabled (freshSwitch true) blockRun := by
  refine ⟨⟨rfl, trivial⟩, ⟨by decide +kernel, trivial⟩, ⟨by decide +kernel, ?_⟩,
    ⟨by decide +kernel, ?_⟩, trivial⟩
  · exact ⟨by decide +kernel, by decide, by decide, nofun⟩
  · exact ⟨by decide +kernel, by decide, by decide, nofun⟩

lemma not_setupTrap (belongs : BitVec 32 → BitVec 32 → Bool) {portno : Int} {s : Switch}
    (h : (s.portv (allocIndex portno s)).isNone = true) : ¬setupTrap belongs portno user s := by
  rintro ⟨port, hp, -⟩
  rw [hp] at h
  cases h

theorem blocking_consistent_blockRun : (switchMachine noGroups).Always BlockingOk (freshSwitch true) blockRun := by
  apply (blocking_consistent noGroups (freshSwitch_start true) blockRun
    blockRun_enabled).mpr
  refine ⟨?_, ?_, id, id, trivial⟩
  · exact not_setupTrap _ (by decide +kernel)
  · exact not_setupTrap _ (by decide +kernel)

theorem blocking_port_moved :
    SwitchStart (freshSwitch true) ∧
      (switchMachine noGroups).Along (switchMachine noGroups).enabled
        (freshSwitch true) (blockRun ++ [.portsetvlan (some (2, 0))]) ∧
      ((switchMachine noGroups).run (freshSwitch true)
        (blockRun ++ [.portsetvlan (some (2, 0))])).fstp = true ∧
      ¬(switchMachine noGroups).Always BlockingOk (freshSwitch true)
        (blockRun ++ [.portsetvlan (some (2, 0))]) := by
  refine ⟨freshSwitch_start true, blockRun_enabled.append ⟨⟨by decide +kernel, trivial⟩, trivial⟩,
    by decide +kernel, fun h => ?_⟩
  · have hlast := h.last (by decide +kernel) 0 2 (by decide +kernel) (by decide +kernel)
      (by decide +kernel) (by decide +kernel)
    have hn := hlast.1.mp (by decide +kernel)
    revert hn
    decide +kernel

end Vde
