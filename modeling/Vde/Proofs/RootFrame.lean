import Vde.Proofs.RunInvariant
import Vde.Proofs.SwitchFrame

/-!
# Functions that keep the roots

The root of a VLAN is stored by `fstnewvlan`, which stores the identifier of the switch itself, and
by the branch of `fst_in_bpdu` for a new root. No other function changes it.
-/

namespace Vde

open Function

structure KeepsRoots (s s' : Switch) : Prop where
  myid : s'.myid = s.myid
  root : ∀ v f', s'.fsttab v = some f' → f'.root = s.myid ∨ ∃ f, s.fsttab v = some f ∧ f'.root = f.root

section

variable {s s' s'' : Switch}

lemma KeepsRoots.of_eq (hid : s'.myid = s.myid) (hfst : s'.fsttab = s.fsttab) : KeepsRoots s s' := by
  refine ⟨hid, fun v f' hf' => .inr ⟨f', ?_, rfl⟩⟩
  rw [← hfst]
  exact hf'

lemma KeepsRoots.refl (s : Switch) : KeepsRoots s s := .of_eq rfl rfl

lemma KeepsRoots.trans (h : KeepsRoots s s') (h' : KeepsRoots s' s'') : KeepsRoots s s'' := by
  refine ⟨h'.myid.trans h.myid, fun v f'' hf'' => ?_⟩
  rcases h'.root v f'' hf'' with hown | ⟨f', hf', heq'⟩
  · rw [h.myid] at hown
    exact .inl hown
  rw [heq']
  exact h.root v f' hf'

lemma KeepsRoots.setFst {v : Nat} {f' : Vlst}
    (hroot : f'.root = s.myid ∨ ∃ f, s.fsttab v = some f ∧ f'.root = f.root) : KeepsRoots s (s.setFst v f') := by
  refine ⟨rfl, fun w g hg => ?_⟩
  unfold Switch.setFst at hg
  dsimp only at hg
  by_cases hw : w = v
  · subst hw
    rw [update_self] at hg
    obtain rfl := Option.some.inj hg
    exact hroot
  rw [update_of_ne hw] at hg
  exact .inr ⟨g, hg, rfl⟩

@[simp] lemma set_fsttab (t : Tab) (v p : Nat) (s : Switch) : (s.set t v p).fsttab = s.fsttab := by
  unfold Switch.set
  split <;> rfl

lemma rootsFrame : SwitchFrame KeepsRoots where
  refl := .refl
  trans := .trans
  tabs _ _ := .of_eq rfl rfl
  hash _ _ := .of_eq rfl rfl
  sent _ _ := .of_eq rfl rfl
  validvlan _ _ := .of_eq rfl rfl
  crash _ := .of_eq rfl rfl
  reset _ _ _ := .setFst (.inl rfl)
  stamp _ _ f _ hf hroot := .setFst (.inr ⟨f, hf, hroot⟩)
  forget s v := by
    refine ⟨rfl, fun w f hf => ?_⟩
    have hf' : update s.fsttab v none w = some f := hf
    by_cases hw : w = v
    · subst hw
      simp at hf'
    rw [update_of_ne hw] at hf'
    exact .inr ⟨f, hf', rfl⟩
  globals _ _ _ _ _ _ _ := .of_eq rfl rfl

/-! ## Commands that keep the roots -/

lemma keepsRoots_setPort (p : Nat) (port : Option Port) (s : Switch) : KeepsRoots s (s.setPort p port) :=
  .of_eq rfl rfl

lemma keepsRoots_attach (belongs : BitVec 32 → BitVec 32 → Bool) (p : Nat) (fdCtl fdData : Int) (user : BitVec 32)
    (port : Port) (s : Switch) : KeepsRoots s (attach belongs p fdCtl fdData user port s).2 := by
  unfold attach
  dsimp only
  generalize (if port.ep = [] ∧ checkportAc belongs port user = true then user
    else port.curuser) = curuser
  have hport : KeepsRoots s (s.setPort p (some { port with curuser := curuser })) :=
    keepsRoots_setPort p _ s
  split
  · have hep := hport.trans (keepsRoots_setPort p
      (some { port with curuser := curuser, ep := ⟨p, fdCtl, fdData⟩ :: port.ep }) _)
    exact rootsFrame.guarded hep (rootsFrame.activate p _ _)
  · exact hport

lemma keepsRoots_alloc (portno : Int) (s : Switch) : KeepsRoots s (allocPort portno s).2 := by
  unfold allocPort
  dsimp only
  split
  · exact .refl s
  split
  · exact .refl s
  · exact (keepsRoots_setPort _ _ s).trans (rootsFrame.set .table 0 _ _)

lemma keepsRoots_reserve (p : Nat) (s : Switch) : KeepsRoots s (reserve p s) := by
  unfold reserve
  split <;> exact .of_eq rfl rfl

lemma keepsRoots_setupEp (belongs : BitVec 32 → BitVec 32 → Bool) (portno fdCtl fdData : Int) (user : BitVec 32)
    (s : Switch) : KeepsRoots s (setupEp belongs portno fdCtl fdData user s).2 := by
  have halloc := keepsRoots_alloc portno s
  unfold setupEp
  generalize allocPort portno s = r at halloc
  obtain ⟨o, s'⟩ := r
  cases o with
  | none => exact halloc
  | some port =>
    dsimp only
    split
    · exact halloc
    split
    · exact halloc.trans (.of_eq rfl rfl)
    · exact halloc.trans (keepsRoots_attach belongs port fdCtl fdData user _ s')

lemma keepsRoots_closeEp (portno fdCtl : Int) (s : Switch) : KeepsRoots s (closeEpPortFd portno fdCtl s).2 := by
  have hleave : ∀ p port s, KeepsRoots s (inactivate p port s) := by
    intro p port s
    have hfirst : KeepsRoots s ({ s with hash := hashDeletePort p s.hash }.setPort p
        (some { port with curuser := noId })) := .of_eq rfl rfl
    exact hfirst.trans (rootsFrame.leaveVlans p port.vlanuntag _)
  unfold closeEpPortFd
  split
  · split
    · exact .refl s
    dsimp only
    split
    · exact (keepsRoots_setPort _ _ s).trans (hleave _ _ _)
    · exact keepsRoots_setPort _ _ s
  · exact .refl s

lemma keepsRoots_free (p : Nat) (s : Switch) : KeepsRoots s (freePort p s) := by
  unfold freePort
  split
  · split
    · exact .refl s
    split
    · exact (keepsRoots_setPort p none s).trans
        (rootsFrame.forVlans (fun v s => rootsFrame.clr .table v p s) _)
    · exact .refl s
  · exact .refl s

lemma keepsRoots_portsetvlan (arg : Option (Int × Int)) (s : Switch) : KeepsRoots s (portsetvlan arg s).2 := by
  cases arg with
  | none => exact .refl s
  | some arg =>
    obtain ⟨port, vlan⟩ := arg
    unfold portsetvlan
    dsimp only
    split
    · exact .refl s
    split
    · exact .refl s
    split
    · exact .refl s
    next p _ _ =>
    have hfirst : KeepsRoots s { s.setPort port.toNat (some { p with vlanuntag := noVlan }) with
        hash := hashDeletePort port.toNat s.hash } := .of_eq rfl rfl
    exact (hfirst.trans (rootsFrame.move _ _ _ _)).trans (keepsRoots_setPort _ _ _)

lemma keepsRoots_numports (val : Int) (s : Switch) : KeepsRoots s (portsetnumports val s).2 := by
  rcases portsetnumports_eq val s with hsame | ⟨-, hnew⟩
  · rw [hsame]
    exact .refl s
  rw [hnew]
  exact .of_eq rfl rfl

lemma keepsRoots_apply (belongs : BitVec 32 → BitVec 32 → Bool) (s : Switch) {e : SwitchEvent}
    (he : ∀ port stack frame malloc, e ≠ .packet port stack frame malloc) : KeepsRoots s (e.apply belongs s) := by
  cases e with
  | packet port stack frame malloc => exact absurd rfl (he _ _ _ _)
  | hello => exact rootsFrame.hello s
  | setupEp portno fdCtl fdData user => exact keepsRoots_setupEp belongs portno fdCtl fdData user s
  | closeEp portno fdCtl => exact keepsRoots_closeEp portno fdCtl s
  | portcreate val => exact rootsFrame.portcreate val (keepsRoots_alloc val s) keepsRoots_reserve
  | portcreateauto => exact rootsFrame.allocReserve 0 (keepsRoots_alloc 0 s) keepsRoots_reserve
  | portremove val =>
    apply rootsFrame.withPort
    intro i port _
    split
    · exact keepsRoots_free i s
    · exact .refl s
  | portsetnumports val => exact keepsRoots_numports val s
  | portallocatable arg =>
    cases arg with
    | none => exact .refl s
    | some arg => exact rootsFrame.withPort _ (fun i port _ => keepsRoots_setPort i _ s)
  | portsetuser arg =>
    cases arg with
    | none => exact .refl s
    | some arg =>
      apply rootsFrame.withPort
      intro i port _
      split
      · exact .refl s
      · exact keepsRoots_setPort i _ s
  | portsetgroup arg =>
    cases arg with
    | none => exact .refl s
    | some arg =>
      apply rootsFrame.withPort
      intro i port _
      split
      · exact .refl s
      · exact keepsRoots_setPort i _ s
  | portsethub val => exact rootsFrame.sethub val s
  | portsetvlan arg => exact keepsRoots_portsetvlan arg s
  | vlancreate vlan => exact rootsFrame.vlancreate vlan s
  | vlanremove vlan => exact rootsFrame.vlanremove vlan s
  | vlanaddport arg => exact rootsFrame.vlanaddport arg s
  | vlandelport arg => exact rootsFrame.vlandelport arg s
  | fstpsetonoff val => exact rootsFrame.onoff val s
  | fstsetbonus arg => exact rootsFrame.setbonus arg s
  | fstsetedge arg => exact rootsFrame.setedge arg s
  | _ => exact .of_eq rfl rfl

end

end Vde
