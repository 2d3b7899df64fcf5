import Vde.Proofs.PortUsers
import Vde.Proofs.RequestCleanup

/-!
# Who may use a port

`setup_ep` does not look at what `checkport_ac` returned, but at the user of the port, which is -1 when the port
is inactive. A request for the user -1 gets every inactive port, and so does a user for whom there was access,
but no memory for the endpoint.
-/

namespace Vde

open Function

structure AccessState where
  sw : Switch
  granted : Nat → Option (BitVec 32)

inductive AccessEvent where
  | switch (e : SwitchEvent)
  | setupNoMem (portno fdCtl fdData : Int) (user : BitVec 32)

def askedPort (portno : Int) (s : Switch) : Port := (s.portv (allocIndex portno s)).getD newPort

section

variable (belongs : BitVec 32 → BitVec 32 → Bool)

def accessGranted (s : AccessState) : SwitchEvent → Nat → Option (BitVec 32)
  | .setupEp portno _ _ user =>
    if (askedPort portno s.sw).ep = [] then
      update s.granted (allocIndex portno s.sw)
        (if checkportAc belongs (askedPort portno s.sw) user then some user else none)
    else s.granted
  | _ => s.granted

def accessStep (s : AccessState) : AccessEvent → AccessState
  | .switch e => { sw := e.apply belongs s.sw, granted := accessGranted belongs s e }
  | .setupNoMem portno fdCtl fdData user =>
    { s with sw := (setupEpMem belongs false portno fdCtl fdData user s.sw).2 }

def AccessEvent.Legal (s : Switch) : AccessEvent → Prop
  | .switch e => e.Legal s
  | .setupNoMem _ _ _ _ => True

def accessMachine : Machine AccessState AccessEvent where
  enabled s e := s.sw.trap = false ∧ e.Legal s.sw
  step := accessStep belongs

def AccessStart (s : AccessState) : Prop := SwitchStart s.sw

/-- If `setup_ep` succeeds, then `checkport_ac` granted access to an inactive port, and an active port was
granted to this user. -/
def GrantRight (s : AccessState) : AccessEvent → Prop
  | .switch (.setupEp portno fdCtl fdData user) =>
    (setupEp belongs portno fdCtl fdData user s.sw).1 = .ok →
      if (askedPort portno s.sw).ep = [] then checkportAc belongs (askedPort portno s.sw) user = true
      else s.granted (allocIndex portno s.sw) = some user
  | _ => True

def AccessOk (s : AccessState) : AccessEvent → Prop
  | .switch (.setupEp portno _ _ user) =>
    allocIndex portno s.sw < s.sw.numports → (askedPort portno s.sw).ep = [] →
      (askedPort portno s.sw).curuser = user → checkportAc belongs (askedPort portno s.sw) user = true
  | _ => True

def GrantInv (s : AccessState) : Prop :=
  ∀ p port, s.sw.portv p = some port → port.ep ≠ [] → s.granted p = some port.curuser

variable {s s' : Switch} {portno fdCtl fdData : Int} {user : BitVec 32}

lemma attachMem_ports (mem : Bool) {i : Nat} {port : Port} (hport : s.portv i = some port) :
    ((attachMem belongs mem i fdCtl fdData user port s).1 = .ok ↔
      mem = true ∧ (port.ep = [] ∧ checkportAc belongs port user = true ∨ port.curuser = user)) ∧
    ∀ p port', (attachMem belongs mem i fdCtl fdData user port s).2.portv p = some port' → port'.ep ≠ [] →
      (∃ old, s.portv p = some old ∧ old.ep ≠ [] ∧ port'.curuser = old.curuser) ∨
        (p = i ∧ port.ep = [] ∧ (attachMem belongs mem i fdCtl fdData user port s).1 = .ok ∧ port'.curuser = user) := by
  have hcur : ((if port.ep = [] ∧ checkportAc belongs port user = true then user else port.curuser) = user ↔
      port.ep = [] ∧ checkportAc belongs port user = true ∨ port.curuser = user) ∧
      (port.ep ≠ [] →
        (if port.ep = [] ∧ checkportAc belongs port user = true then user else port.curuser) = port.curuser) := by
    by_cases hcheck : port.ep = [] ∧ checkportAc belongs port user = true
    · simp [hcheck]
    simp only [if_neg hcheck]
    simp [hcheck]
  have hold {p : Nat} {port' : Port} (hp : s.portv p = some port') (hep : port'.ep ≠ []) :
      ∃ old, s.portv p = some old ∧ old.ep ≠ [] ∧ port'.curuser = old.curuser := ⟨port', hp, hep, rfl⟩
  unfold attachMem attach
  dsimp only
  generalize (if port.ep = [] ∧ checkportAc belongs port user = true then user else port.curuser) = curuser at hcur
  obtain ⟨hiff, hsame⟩ := hcur
  cases mem with
  | false =>
    rw [if_neg (by simp)]
    refine ⟨?_, fun p port' hp hep => .inl ?_⟩
    · refine iff_of_false ?_ (by simp)
      dsimp only
      split <;> simp
    by_cases hpi : p = i
    · subst hpi
      have heq : { port with curuser := curuser } = port' := by simpa [Switch.setPort] using hp
      subst heq
      exact ⟨port, hport, hep, hsame hep⟩
    · exact hold (by simpa [Switch.setPort, hpi] using hp) hep
  | true =>
    rw [if_pos rfl]
    by_cases huser : curuser = user
    · rw [if_pos huser]
      refine ⟨iff_of_true rfl ⟨rfl, hiff.mp huser⟩, fun p port' hp hep => ?_⟩
      have hportv : ∀ q, (if port.ep = [] then activate i { port with curuser := curuser }
          ((s.setPort i (some { port with curuser := curuser })).setPort i
            (some { port with curuser := curuser, ep := ⟨i, fdCtl, fdData⟩ :: port.ep }))
          else (s.setPort i (some { port with curuser := curuser })).setPort i
            (some { port with curuser := curuser, ep := ⟨i, fdCtl, fdData⟩ :: port.ep })).portv q =
          (s.setPort i (some { port with curuser := curuser, ep := ⟨i, fdCtl, fdData⟩ :: port.ep })).portv q := by
        intro q
        split
        · rw [(portsFrame.activate i _ _).portv]
          simp [Switch.setPort]
        · simp [Switch.setPort]
      have hp : _ = some port' := (hportv p).symm.trans hp
      by_cases hpi : p = i
      · subst hpi
        have heq : { port with curuser := curuser, ep := ⟨p, fdCtl, fdData⟩ :: port.ep } = port' := by
          simpa [Switch.setPort] using hp
        subst heq
        by_cases hactive : port.ep = []
        · exact .inr ⟨rfl, hactive, rfl, huser⟩
        · exact .inl ⟨port, hport, hactive, hsame hactive⟩
      · exact .inl (hold (by simpa [Switch.setPort, hpi] using hp) hep)
    rw [if_neg huser]
    refine ⟨iff_of_false (by simp) ?_, fun p port' hp hep => .inl ?_⟩
    · rintro ⟨-, h⟩
      exact huser (hiff.mpr h)
    by_cases hpi : p = i
    · subst hpi
      have heq : { port with curuser := curuser } = port' := by simpa [Switch.setPort] using hp
      subst heq
      exact ⟨port, hport, hep, hsame hep⟩
    · exact hold (by simpa [Switch.setPort, hpi] using hp) hep

lemma allocPort_ports (portno : Int) (s : Switch) :
    (s.numports ≤ allocIndex portno s ∧ allocPort portno s = (none, s)) ∨
      (allocIndex portno s < s.numports ∧ (allocPort portno s).1 = some (allocIndex portno s) ∧
        (allocPort portno s).2.portv = update s.portv (allocIndex portno s) (some (askedPort portno s)) ∧
        ((askedPort portno s).curuser = noId ∨ s.portv (allocIndex portno s) = some (askedPort portno s)) ∧
        (s.portv (allocIndex portno s) = some (askedPort portno s) → (allocPort portno s).2 = s)) := by
  unfold allocPort askedPort
  dsimp only
  by_cases hfull : s.numports ≤ allocIndex portno s
  · rw [if_pos hfull]
    exact .inl ⟨hfull, rfl⟩
  rw [if_neg hfull]
  right
  cases hport : s.portv (allocIndex portno s) with
  | some port =>
    refine ⟨by omega, rfl, ?_, .inr rfl, fun _ => rfl⟩
    exact (update_eq_self_iff.mpr hport.symm).symm
  | none =>
    refine ⟨by omega, rfl, ?_, .inl rfl, fun h => by cases h⟩
    have hset := portsFrame.set .table 0 (allocIndex portno s) (s.setPort (allocIndex portno s) (some newPort))
    rw [hset.portv]
    rfl

lemma setupEpMem_ports (mem : Bool) (portno : Int) (s : Switch) :
    ((setupEpMem belongs mem portno fdCtl fdData user s).1 = .ok → allocIndex portno s < s.numports) ∧
    ((allocPort portno s).2.trap = false → allocIndex portno s < s.numports →
      ((setupEpMem belongs mem portno fdCtl fdData user s).1 = .ok ↔
        mem = true ∧ ((askedPort portno s).ep = [] ∧ checkportAc belongs (askedPort portno s) user = true ∨
          (askedPort portno s).curuser = user))) ∧
    ∀ p port', (setupEpMem belongs mem portno fdCtl fdData user s).2.portv p = some port' → port'.ep ≠ [] →
      (∃ old, s.portv p = some old ∧ old.ep ≠ [] ∧ port'.curuser = old.curuser) ∨
        (p = allocIndex portno s ∧ (askedPort portno s).ep = [] ∧
          (setupEpMem belongs mem portno fdCtl fdData user s).1 = .ok ∧ port'.curuser = user) := by
  unfold setupEpMem
  cases allocPort_ports portno s with
  | inl hfull =>
    obtain ⟨hle, hnone⟩ := hfull
    rw [hnone]
    refine ⟨?_, ?_, fun p port' hp hep => .inl ⟨port', hp, hep, rfl⟩⟩
    · intro h
      cases h
    intro _ hlt
    omega
  | inr hsome =>
    obtain ⟨hlt, hfst, hportv, _, _⟩ := hsome
    generalize allocPort portno s = r at hfst hportv
    obtain ⟨o, s₁⟩ := r
    cases hfst
    have hold : ∀ p port', s₁.portv p = some port' → port'.ep ≠ [] →
        ∃ old, s.portv p = some old ∧ old.ep ≠ [] ∧ port'.curuser = old.curuser := by
      intro p port' hp hep
      have hportv : s₁.portv = _ := hportv
      rw [hportv] at hp
      by_cases hpi : p = allocIndex portno s
      · subst hpi
        rw [update_self] at hp
        have heq : askedPort portno s = port' := Option.some.inj hp
        unfold askedPort at heq
        cases hport : s.portv (allocIndex portno s) with
        | none =>
          rw [hport] at heq
          rw [← heq] at hep
          exact absurd rfl hep
        | some old =>
          rw [hport] at heq
          have heq : old = port' := heq
          rw [← heq] at hep ⊢
          exact ⟨old, rfl, hep, rfl⟩
      rw [update_of_ne hpi] at hp
      exact ⟨port', hp, hep, rfl⟩
    refine ⟨fun _ => hlt, ?_⟩
    dsimp only
    have hport : s₁.portv (allocIndex portno s) = some (askedPort portno s) := by
      have hportv : s₁.portv = _ := hportv
      rw [hportv, update_self]
    by_cases htrap : s₁.trap = true
    · rw [if_pos htrap]
      refine ⟨fun hrun => ?_, fun p port' hp hep => .inl (hold p port' hp hep)⟩
      rw [hrun] at htrap
      cases htrap
    rw [if_neg htrap, hport]
    obtain ⟨hok, hports⟩ := @attachMem_ports belongs s₁ fdCtl fdData user mem _ _ hport
    refine ⟨fun _ _ => hok, fun p port' hp hep => ?_⟩
    cases hports p port' hp hep with
    | inr hnew => exact .inr hnew
    | inl hkept =>
      obtain ⟨old, hp', hep', huser⟩ := hkept
      obtain ⟨old', hp'', hep'', huser'⟩ := hold p old hp' hep'
      exact .inl ⟨old', hp'', hep'', huser.trans huser'⟩

lemma newPort_open : checkportAc belongs newPort user = true := by
  simp [checkportAc, newPort]

lemma asked_exists (h : checkportAc belongs (askedPort portno s) user ≠ true ∨ (askedPort portno s).ep ≠ []) :
    s.portv (allocIndex portno s) = some (askedPort portno s) := by
  unfold askedPort at h ⊢
  cases hport : s.portv (allocIndex portno s) with
  | some port => rfl
  | none =>
    rw [hport] at h
    cases h with
    | inl hcheck => exact absurd (newPort_open belongs) hcheck
    | inr hep => exact absurd rfl hep

lemma allocPort_alive (hport : s.portv (allocIndex portno s) = some (askedPort portno s)) (hrun : s.trap = false) :
    (allocPort portno s).2.trap = false := by
  cases allocPort_ports portno s with
  | inl hfull =>
    rw [hfull.2]
    exact hrun
  | inr hsome =>
    rw [hsome.2.2.2.2 hport]
    exact hrun

variable {a : AccessState}

lemma grantInv_of_keeps (h : GrantInv a) (hk : KeepsUsers a.sw s') : GrantInv { a with sw := s' } := by
  intro p port' hp hep
  cases hk p port' hp with
  | inr hreset => exact absurd hreset.1 hep
  | inl hsame =>
    obtain ⟨port, hp', hep', huser⟩ := hsame
    rw [huser]
    exact h p port hp' (fun hnil => hep (hep'.mpr hnil))

lemma setupEp_right (h : GrantInv a) (hok : AccessOk belongs a (.switch (.setupEp portno fdCtl fdData user)))
    (hrun : a.sw.trap = false) : GrantInv (accessStep belongs a (.switch (.setupEp portno fdCtl fdData user))) ∧
    GrantRight belongs a (.switch (.setupEp portno fdCtl fdData user)) := by
  obtain ⟨hlt, hiff, hports⟩ := @setupEpMem_ports belongs fdCtl fdData user true portno a.sw
  rw [setupEpMem_true] at hlt hiff hports
  have hright : GrantRight belongs a (.switch (.setupEp portno fdCtl fdData user)) := by
    intro hsucc
    by_cases hidle : (askedPort portno a.sw).ep = []
    · rw [if_pos hidle]
      by_contra hcheck
      have hsame := asked_exists belongs (.inl hcheck)
      have halloc := allocPort_alive hsame hrun
      obtain ⟨_, hwhy⟩ := (hiff halloc (hlt hsucc)).mp hsucc
      cases hwhy with
      | inl hgranted => exact hcheck hgranted.2
      | inr huser => exact hcheck (hok (hlt hsucc) hidle huser)
    rw [if_neg hidle]
    have hsame := @asked_exists belongs a.sw portno user (.inr hidle)
    have halloc := allocPort_alive hsame hrun
    obtain ⟨_, hwhy⟩ := (hiff halloc (hlt hsucc)).mp hsucc
    cases hwhy with
    | inl hgranted => exact absurd hgranted.1 hidle
    | inr huser =>
      rw [h _ _ hsame hidle, huser]
  refine ⟨?_, hright⟩
  intro p port' hp hep
  show accessGranted belongs a (.setupEp portno fdCtl fdData user) p = some port'.curuser
  dsimp only [accessGranted]
  cases hports p port' hp hep with
  | inl hkept =>
    obtain ⟨old, hp', hep', huser⟩ := hkept
    rw [huser, ← h p old hp' hep']
    by_cases hidle : (askedPort portno a.sw).ep = []
    · rw [if_pos hidle, update_of_ne]
      rintro rfl
      have hold : askedPort portno a.sw = old := by rw [askedPort, hp']; rfl
      rw [hold] at hidle
      exact hep' hidle
    · rw [if_neg hidle]
  | inr hnew =>
    obtain ⟨hpi, hidle, hsucc, huser⟩ := hnew
    have hcheck := hright hsucc
    rw [if_pos hidle] at hcheck
    rw [if_pos hidle, hpi, update_self, if_pos hcheck, huser]

lemma access_step {e : AccessEvent} (h : GrantInv a) (he : (accessMachine belongs).enabled a e)
    (hok : AccessOk belongs a e) : GrantInv (accessStep belongs a e) ∧ GrantRight belongs a e := by
  cases e with
  | setupNoMem portno fdCtl fdData user =>
    refine ⟨?_, trivial⟩
    obtain ⟨_, _, hports⟩ := @setupEpMem_ports belongs fdCtl fdData user false portno a.sw
    intro p port' hp hep
    cases hports p port' hp hep with
    | inl hkept =>
      obtain ⟨old, hp', hep', huser⟩ := hkept
      rw [huser]
      exact h p old hp' hep'
    | inr hnew =>
      obtain ⟨hpi, hidle, hsucc, huser⟩ := hnew
      -- without memory it does not succeed, unless the process has crashed before
      have hp : (setupEpMem belongs false portno fdCtl fdData user a.sw).2.portv p = some port' := hp
      unfold setupEpMem at hsucc hp
      cases allocPort_ports portno a.sw with
      | inl hfull =>
        rw [hfull.2] at hsucc
        cases hsucc
      | inr hsome =>
        obtain ⟨_, hfst, hportv, _⟩ := hsome
        generalize allocPort portno a.sw = r at hfst hportv hsucc hp
        obtain ⟨o, s₁⟩ := r
        cases hfst
        have hportv : s₁.portv = _ := hportv
        dsimp only at hsucc hp
        by_cases htrap : s₁.trap = true
        · rw [if_pos htrap] at hp
          rw [hportv, hpi, update_self] at hp
          cases hp
          exact absurd hidle hep
        rw [if_neg htrap, hportv, update_self] at hsucc
        exact absurd hsucc (attachMem_false belongs s₁)
  | switch e =>
    by_cases hsetup : ∃ portno fdCtl fdData user, e = .setupEp portno fdCtl fdData user
    · obtain ⟨portno, fdCtl, fdData, user, heq⟩ := hsetup
      subst heq
      exact setupEp_right belongs h hok he.1
    have hne : ∀ portno fdCtl fdData user, e ≠ .setupEp portno fdCtl fdData user :=
      fun portno fdCtl fdData user heq => hsetup ⟨portno, fdCtl, fdData, user, heq⟩
    have hkeeps := grantInv_of_keeps h (keepsUsers_apply belongs a.sw hne)
    have hgranted : accessGranted belongs a e = a.granted := by
      cases e with
      | setupEp portno fdCtl fdData user => exact absurd rfl (hne _ _ _ _)
      | _ => rfl
    refine ⟨?_, ?_⟩
    · show GrantInv { sw := e.apply belongs a.sw, granted := accessGranted belongs a e }
      rw [hgranted]
      exact hkeeps
    cases e with
    | setupEp portno fdCtl fdData user => exact absurd rfl (hne _ _ _ _)
    | _ => trivial

lemma access_bad {e : AccessEvent} (he : (accessMachine belongs).enabled a e) (hbad : ¬AccessOk belongs a e) :
    ¬GrantRight belongs a e := by
  cases e with
  | setupNoMem portno fdCtl fdData user => exact absurd trivial hbad
  | switch e =>
    cases e with
    | setupEp portno fdCtl fdData user =>
      intro hright
      apply hbad
      intro hlt hidle huser
      by_contra hcheck
      have hsame := asked_exists belongs (.inl hcheck)
      have halloc := allocPort_alive hsame he.1
      obtain ⟨_, hiff, _⟩ := @setupEpMem_ports belongs fdCtl fdData user true portno a.sw
      have hsucc := (hiff halloc hlt).mpr ⟨rfl, .inr huser⟩
      have hgranted := hright hsucc
      rw [if_pos hidle] at hgranted
      exact hcheck hgranted
    | _ => exact absurd trivial hbad

lemma AccessStart.inv (h : AccessStart a) : GrantInv a := by
  obtain ⟨numports, switchmac, priority, hub, fstp, hashSize, now, _, _, _, _, _, hsw⟩ := h
  intro p port hp hep
  have heps := eps_of_portv hp
  rw [hsw, portInit_eps] at heps
  exact absurd heps.symm hep

/-- In every run the endpoints are set up for users that may use the ports exactly if no request is made for a
user that an inactive port has already and that `checkport_ac` rejects. -/
theorem access_right_iff (hs : AccessStart a) (es : List AccessEvent)
    (hes : (accessMachine belongs).Along (accessMachine belongs).enabled a es) :
    (accessMachine belongs).Along (GrantRight belongs) a es ↔ (accessMachine belongs).Along (AccessOk belongs) a es := by
  apply Machine.along_iff GrantInv _ _ hs.inv es hes
  · intro s e hinv he hok
    exact access_step belongs hinv he hok
  intro s e _ he hbad
  exact access_bad belongs he hbad

end

def freshAccess : AccessState := { sw := freshSwitch false, granted := fun _ => none }

def ownerRun : List AccessEvent :=
  [.switch (.portcreate 1), .switch (.portsetuser (some (1, some 1000))), .switch (.setupEp 1 5 6 1000),
    .switch (.setupEp 1 7 8 1000), .switch (.setupEp 1 9 10 1001)]

theorem access_right_owner : (accessMachine noGroups).Along (GrantRight noGroups) freshAccess ownerRun := by
  have hstart : AccessStart freshAccess := freshSwitch_start false
  apply (access_right_iff noGroups hstart ownerRun _).mpr
  · refine ⟨trivial, trivial, ?_, ?_, ?_, trivial⟩
    · intro _ _ huser
      exact absurd huser (by decide +kernel)
    · intro _ hidle
      exact absurd hidle (by decide +kernel)
    intro _ hidle
    exact absurd hidle (by decide +kernel)
  exact ⟨⟨rfl, trivial⟩, ⟨by decide +kernel, trivial⟩, ⟨by decide +kernel, trivial⟩, ⟨by decide +kernel, trivial⟩,
    ⟨by decide +kernel, trivial⟩, trivial⟩

def namelessRun : List AccessEvent :=
  [.switch (.portcreate 1), .switch (.portsetuser (some (1, some 1000))), .switch (.setupEp 1 5 6 noId)]

theorem nameless_client_gets_port : AccessStart freshAccess ∧
    (accessMachine noGroups).Along (accessMachine noGroups).enabled freshAccess namelessRun ∧
    ¬(accessMachine noGroups).Along (GrantRight noGroups) freshAccess namelessRun := by
  refine ⟨freshSwitch_start false, ?_, ?_⟩
  · exact ⟨⟨rfl, trivial⟩, ⟨by decide +kernel, trivial⟩, ⟨by decide +kernel, trivial⟩, trivial⟩
  intro h
  have hright := h.2.2.1
  have hgranted := hright (by decide +kernel)
  rw [if_pos (by decide +kernel)] at hgranted
  exact absurd hgranted (by decide +kernel)

end Vde
