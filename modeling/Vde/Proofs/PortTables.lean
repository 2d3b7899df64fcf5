import Vde.Proofs.RunInvariant

/-!
# The tables of ports and VLANs

Runs of the management functions alone, with the protocol off. The membership tables and the sets
of ports that get broadcasts then say the same thing as the records of the ports.
-/

namespace Vde

def SwitchEvent.managesPorts : SwitchEvent → Bool
  | setupEp _ _ _ _ | closeEp _ _ | portcreate _ | portcreateauto | portremove _ | portsetvlan _
  | vlancreate _ | vlanremove _ | vlanaddport _ | vlandelport _ | portsetnumports _ => true
  | _ => false

def portMachine (belongs : BitVec 32 → BitVec 32 → Bool) : Machine Switch SwitchEvent where
  enabled s e := s.trap = false ∧ e.managesPorts = true
  step s e := e.apply belongs s

/-- What the tables mean; `live` says that no bit of a VLAN without tables has been written. -/
structure TablesOk (s : Switch) : Prop where
  live : s.trap = false
  table : ∀ v p, s.check .table v p = true → s.valid v = true ∧ (s.portv p).isSome = true
  own : ∀ v p, v ≠ noVlan → s.untagged v p = true → s.valid v = true ∧ s.check .table v p = true
  bcuntag : ∀ v p, v ≠ noVlan →
    (s.check .bcuntag v p = true ↔ s.active p = true ∧ s.untagged v p = true)
  bctag : ∀ v p, s.check .bctag v p = true ↔
    s.active p = true ∧ s.check .table v p = true ∧ s.untagged v p = false

section

variable {s : Switch}

lemma isSome_of_untagged {v p : Nat} (h : s.untagged v p = true) : (s.portv p).isSome = true := by
  unfold Switch.untagged at h
  cases hp : s.portv p with
  | none => simp [hp] at h
  | some port => rfl

lemma CoreInv.check_noVlan {free quiet : Prop} (h : CoreInv free quiet s) (t : Tab) (p : Nat) :
    s.check t noVlan p = false := by
  by_contra hc
  exact h.ne_noVlan (h.valid_of_check (by simpa using hc)) rfl

lemma SwitchInv.tablesOk {free : Prop} (h : SwitchInv free True s) : TablesOk s where
  live := h.core.live
  table v p ht := by
    have hv := h.core.valid_of_check ht
    exact (h.core.cells v p (h.core.ne_noVlan hv)).table ht
  own v p hv hu := (h.core.cells v p hv).own (isSome_of_untagged hu) hu
  bcuntag v p hv := by
    have hc := h.core.cells v p hv
    constructor
    · exact hc.bcuntag
    rintro ⟨ha, hu⟩
    have ht := (hc.own (isSome_of_active ha) hu).2
    rcases hc.opened ha ht with hb | hb | hn
    · rw [(hc.bctag hb).2.2] at hu
      cases hu
    · exact hb
    rw [(hc.silent trivial).1] at hn
    cases hn
  bctag v p := by
    by_cases hv : v = noVlan
    · rw [hv, h.core.check_noVlan, h.core.check_noVlan]
      simp
    have hc := h.core.cells v p hv
    constructor
    · exact hc.bctag
    rintro ⟨ha, ht, hu⟩
    rcases hc.opened ha ht with hb | hb | hn
    · exact hb
    · rw [(hc.bcuntag hb).2] at hu
      cases hu
    rw [(hc.silent trivial).1] at hn
    cases hn

/-- The tables stay consistent along a run exactly as long as no port is created while VLAN 0 does
not exist. -/
theorem portTables_consistent (belongs : BitVec 32 → BitVec 32 → Bool) (hs : SwitchStart s) (es : List SwitchEvent)
    (hes : (portMachine belongs).Along (portMachine belongs).enabled s es) :
    (portMachine belongs).Always TablesOk s es ↔ (portMachine belongs).Along (fun s e => ¬e.Orphans s) s es := by
  apply Machine.always_iff_along (SwitchInv False True) _ _ _ hs.inv es hes
  · exact fun s h => h.tablesOk
  · rintro s e h ⟨-, he⟩ horphan
    have hlegal : e.Legal s := by
      cases e <;> simp_all [SwitchEvent.managesPorts, SwitchEvent.Legal]
    apply apply_inv belongs h hlegal _ horphan False.elim
    rintro - port stack frame malloc rfl
    cases he
  rintro s e h - horphan hok
  have htrap := apply_trap belongs h (not_not.mp horphan)
  exact Bool.noConfusion (hok.live.symm.trans htrap)

def portRun : List SwitchEvent :=
  [.vlancreate 5, .portcreate 3, .portsetvlan (some (3, 5)), .setupEp 3 10 10 0, .closeEp 3 10]

theorem portTables_consistent_portRun : (portMachine noGroups).Always TablesOk (freshSwitch false) portRun := by
  apply (portTables_consistent noGroups (freshSwitch_start false) portRun _).mpr
  · exact ⟨id, fun h => absurd h.2.2.2.2 (by decide +kernel), id,
      fun h => absurd h.2 (by decide +kernel), id, trivial⟩
  exact ⟨⟨rfl, rfl⟩, ⟨by decide +kernel, rfl⟩, ⟨by decide +kernel, rfl⟩, ⟨by decide +kernel, rfl⟩,
    ⟨by decide +kernel, rfl⟩, trivial⟩

theorem portTables_vlan0_removed : SwitchStart (freshSwitch false) ∧
    (portMachine noGroups).Along (portMachine noGroups).enabled (freshSwitch false) [.vlanremove 0, .portcreate 5] ∧
    ¬(portMachine noGroups).Always TablesOk (freshSwitch false) [.vlanremove 0, .portcreate 5] := by
  refine ⟨freshSwitch_start false, ⟨⟨rfl, rfl⟩, ⟨by decide +kernel, rfl⟩, trivial⟩, ?_⟩
  rintro ⟨-, -, hlast⟩
  have htrap : ((portMachine noGroups).step ((portMachine noGroups).step
      (freshSwitch false) (.vlanremove 0)) (.portcreate 5)).trap = true := by
    decide +kernel
  exact Bool.noConfusion (hlast.live.symm.trans htrap)

end

end Vde
