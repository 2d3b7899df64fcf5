import Vde.Proofs.SwitchFrame

/-!
# The lists of endpoints

Only `setup_ep` and `close_ep_port_fd` change the list of endpoints of a port: one prepends an
endpoint to the list of the port that `alloc_port` chooses, the other takes the first endpoint with
the control descriptor out of it. What they do to the tables of the VLANs leaves the ports alone.
-/

namespace Vde

open Function

def Switch.eps (s : Switch) (p : Nat) : List Endpoint := ((s.portv p).map Port.ep).getD []

structure KeepsPorts (s s' : Switch) : Prop where
  portv : s'.portv = s.portv
  numports : s'.numports = s.numports

section

variable {s s' s'' : Switch}

lemma KeepsPorts.refl (s : Switch) : KeepsPorts s s := ⟨rfl, rfl⟩

lemma KeepsPorts.trans (h : KeepsPorts s s') (h' : KeepsPorts s' s'') : KeepsPorts s s'' :=
  ⟨h'.portv.trans h.portv, h'.numports.trans h.numports⟩

lemma KeepsPorts.eps (h : KeepsPorts s s') : s'.eps = s.eps := by
  funext p
  rw [Switch.eps, Switch.eps, h.portv]

lemma portsFrame : SwitchFrame KeepsPorts where
  refl := .refl
  trans := .trans
  tabs _ _ := ⟨rfl, rfl⟩
  hash _ _ := ⟨rfl, rfl⟩
  sent _ _ := ⟨rfl, rfl⟩
  validvlan _ _ := ⟨rfl, rfl⟩
  crash _ := ⟨rfl, rfl⟩
  reset _ _ _ := ⟨rfl, rfl⟩
  stamp _ _ _ _ _ _ := ⟨rfl, rfl⟩
  forget _ _ := ⟨rfl, rfl⟩
  globals _ _ _ _ _ _ _ := ⟨rfl, rfl⟩

lemma portInit_eps (initnumports : Nat) (switchmac : List UInt8) (priority : Nat) (hub fstp : Bool)
    (hash : HashTable) (now : Int) (p : Nat) :
    (portInit initnumports switchmac priority hub fstp hash now).eps p = [] := by
  unfold portInit
  dsimp only
  rw [(portsFrame.create 0 _).eps]
  split <;> rfl

lemma eps_inactivate (p : Nat) (port : Port) (s : Switch) (hport : s.portv p = some port) :
    (inactivate p port s).eps = s.eps ∧ (inactivate p port s).numports = s.numports := by
  set s₀ : Switch := { s with hash := hashDeletePort p s.hash }.setPort p (some { port with curuser := noId })
  have hkeeps : KeepsPorts s₀ (inactivate p port s) := portsFrame.leaveVlans p port.vlanuntag s₀
  have heps : s₀.eps = s.eps := by
    funext q
    by_cases hq : q = p
    · subst hq
      simp [s₀, Switch.eps, Switch.setPort, hport]
    · simp [s₀, Switch.eps, Switch.setPort, hq]
  exact ⟨hkeeps.eps.trans heps, hkeeps.numports⟩

lemma eps_setPort (p : Nat) (port : Port) (s : Switch) :
    (s.setPort p (some port)).eps = update s.eps p port.ep := by
  funext q
  by_cases hq : q = p
  · subst hq
    simp [Switch.eps, Switch.setPort]
  · simp [Switch.eps, Switch.setPort, hq]

lemma eps_of_portv {p : Nat} {port : Port} (h : s.portv p = some port) : s.eps p = port.ep := by
  rw [Switch.eps, h]
  rfl

lemma allocPort_eps (portno : Int) (s : Switch) : (allocPort portno s).2.eps = s.eps ∧
    (allocPort portno s).2.numports = s.numports ∧ ∀ i, (allocPort portno s).1 = some i → i = allocIndex portno s ∧
    i < s.numports := by
  unfold allocPort
  dsimp only
  split
  · exact ⟨rfl, rfl, nofun⟩
  next hlt =>
  split
  · refine ⟨rfl, rfl, ?_⟩
    intro i hi
    obtain rfl := Option.some.inj hi
    exact ⟨rfl, by omega⟩
  next hnone =>
  have hset := portsFrame.set .table 0 (allocIndex portno s)
    (s.setPort (allocIndex portno s) (some newPort))
  refine ⟨?_, hset.numports, ?_⟩
  · have hold : s.eps (allocIndex portno s) = [] := by
      rw [Switch.eps, hnone]
      rfl
    rw [hset.eps, eps_setPort]
    exact update_eq_self_iff.mpr hold.symm
  intro i hi
  obtain rfl := Option.some.inj hi
  exact ⟨rfl, by omega⟩

variable (belongs : BitVec 32 → BitVec 32 → Bool)

lemma attach_eps (p : Nat) (fdCtl fdData : Int) (user : BitVec 32) {port : Port} (hport : s.portv p = some port) :
    (attach belongs p fdCtl fdData user port s).2.numports = s.numports ∧
    (attach belongs p fdCtl fdData user port s).2.eps = if (attach belongs p fdCtl fdData user port s).1 =
    .ok then update s.eps p (⟨p, fdCtl, fdData⟩ :: s.eps p) else s.eps := by
  have hep := eps_of_portv hport
  unfold attach
  dsimp only
  generalize (if port.ep = [] ∧ checkportAc belongs port user = true then user
    else port.curuser) = curuser
  split
  · have heps : ((s.setPort p (some { port with curuser := curuser })).setPort p
        (some { port with curuser := curuser, ep := ⟨p, fdCtl, fdData⟩ :: port.ep })).eps =
        update s.eps p (⟨p, fdCtl, fdData⟩ :: s.eps p) := by
      rw [eps_setPort, eps_setPort, update_idem, hep]
    dsimp only
    rw [if_pos rfl]
    split
    · have hkeeps := portsFrame.activate p { port with curuser := curuser }
        ((s.setPort p (some { port with curuser := curuser })).setPort p
          (some { port with curuser := curuser, ep := ⟨p, fdCtl, fdData⟩ :: port.ep }))
      exact ⟨hkeeps.numports, hkeeps.eps.trans heps⟩
    · exact ⟨rfl, heps⟩
  dsimp only
  rw [if_neg (by decide), eps_setPort]
  refine ⟨rfl, ?_⟩
  exact update_eq_self_iff.mpr hep.symm

lemma setupEp_ok {portno fdCtl fdData : Int} {user : BitVec 32} {s' : Switch}
    (h : setupEp belongs portno fdCtl fdData user s = (.ok, s')) (hrun : s'.trap = false) :
    allocIndex portno s < s.numports ∧ s'.numports = s.numports ∧ s'.eps =
    update s.eps (allocIndex portno s) (⟨allocIndex portno s, fdCtl, fdData⟩ :: s.eps (allocIndex portno s)) := by
  obtain ⟨heps, hnum, hindex⟩ := allocPort_eps portno s
  unfold setupEp at h
  generalize allocPort portno s = r at h heps hnum hindex
  obtain ⟨o, s₁⟩ := r
  cases o with
  | none =>
    have hfst : Errno.enomem = Errno.ok := congrArg Prod.fst h
    exact absurd hfst (by decide)
  | some i =>
    obtain ⟨rfl, hlt⟩ := hindex i rfl
    dsimp only at h heps hnum
    split at h
    · next htrap =>
      obtain rfl : s₁ = s' := congrArg Prod.snd h
      exact absurd htrap (by simp [hrun])
    split at h
    · obtain rfl : s₁.crash = s' := congrArg Prod.snd h
      exact absurd hrun (by simp [Switch.crash])
    next port hport =>
    obtain ⟨hnum', heps'⟩ := attach_eps belongs (allocIndex portno s) fdCtl fdData user hport
    rw [h, if_pos rfl, heps] at heps'
    rw [h] at hnum'
    exact ⟨hlt, hnum'.trans hnum, heps'⟩

lemma setupEp_refused {portno fdCtl fdData : Int} {user : BitVec 32} {e : Errno} {s' : Switch}
    (h : setupEp belongs portno fdCtl fdData user s = (e, s')) (he : e ≠ .ok) :
    s'.numports = s.numports ∧ s'.eps = s.eps := by
  obtain ⟨heps, hnum, -⟩ := allocPort_eps portno s
  unfold setupEp at h
  generalize allocPort portno s = r at h heps hnum
  obtain ⟨o, s₁⟩ := r
  cases o with
  | none =>
    obtain rfl : s₁ = s' := congrArg Prod.snd h
    exact ⟨hnum, heps⟩
  | some i =>
    dsimp only at h heps hnum
    split at h
    · exact absurd (congrArg Prod.fst h).symm he
    split at h
    · exact absurd (congrArg Prod.fst h).symm he
    next port hport =>
    obtain ⟨hnum', heps'⟩ := attach_eps belongs i fdCtl fdData user hport
    rw [h, if_neg he, heps] at heps'
    rw [h] at hnum'
    exact ⟨hnum'.trans hnum, heps'⟩

lemma closeEpPortFd_eps {p : Nat} (fdCtl : Int) (hp : p < s.numports) : (closeEpPortFd p fdCtl s).2.numports =
    s.numports ∧ (closeEpPortFd p fdCtl s).2.eps = update s.eps p ((s.eps p).eraseP (fun e => e.fdCtl == fdCtl)) ∧
    ((closeEpPortFd p fdCtl s).1 = .ok ↔ ∃ e ∈ s.eps p, e.fdCtl = fdCtl) := by
  have hrange : 0 ≤ (p : Int) ∧ (p : Int) < s.numports := by omega
  unfold closeEpPortFd
  rw [if_pos hrange, Int.toNat_natCast]
  cases hport : s.portv p with
  | none =>
    have hnil : s.eps p = [] := by
      rw [Switch.eps, hport]
      rfl
    refine ⟨rfl, ?_, ?_⟩
    · rw [hnil, List.eraseP_nil]
      exact (update_eq_self_iff.mpr hnil.symm).symm
    · simp [hnil]
  | some port =>
    dsimp only
    rw [eps_of_portv hport]
    set port' : Port := { port with ep := port.ep.eraseP (fun e => e.fdCtl == fdCtl) }
    have heps := eps_setPort p port' s
    have hset : (s.setPort p (some port')).portv p = some port' := update_self ..
    obtain ⟨hepsIn, hnumIn⟩ := eps_inactivate p port' _ hset
    refine ⟨?_, ?_, ?_⟩
    · split
      · exact hnumIn
      · rfl
    · split
      · exact hepsIn.trans heps
      · exact heps
    by_cases hany : port.ep.any (fun e => e.fdCtl == fdCtl) = true
    · rw [if_pos hany]
      simpa using hany
    rw [if_neg hany]
    simpa using hany

end

end Vde
