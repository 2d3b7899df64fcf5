import Vde.Proofs.OlsrRecv

/-!
# Sequence numbers of topologies

Sequence numbers go round, so the fresher of two is the one that is ahead by less than half of the way. The macro also
takes the greater number for the fresher one when it is far above the other, and then a topology gives way to an older
one.
-/

namespace Vde

def Ahead (a b : BitVec 16) : Prop := 0 < (a - b).toNat ∧ (a - b).toNat < 32768

structure FresherRight (a b : BitVec 16) : Prop where
  first : fresher a b = true ↔ Ahead a b
  second : fresher b a = true ↔ Ahead b a
  one : fresher a b ≠ fresher b a

def tcAnsn (d : Dgram) (base : Nat) : BitVec 16 := ntohs (load16 d.mem base)

/-- A TC message of the originator, and anything else that happens to the state in between. -/
inductive TopologyEvent
  | tc (alloc : Nat → Bool) (fuel : Nat) (d : Dgram) (base : Nat) (size : Int)
  | other (s : Olsr)

def topologyMachine (e : Nat) : Machine Olsr TopologyEvent where
  enabled s
    | .tc alloc fuel d base size => ∃ s' b, reconsiderTopology alloc d base fuel size e s = .ok (s', b)
    | .other _ => True
  step s
    | .tc alloc fuel d base size =>
      match reconsiderTopology alloc d base fuel size e s with
      | .ok (s', _) => s'
      | .error _ => s
    | .other s' => s'

def NeverOlder (e : Nat) (s : Olsr) : TopologyEvent → Prop
  | .tc alloc fuel d base size =>
    ∀ x s', s.entries e = some x → x.advertisedTc.isSome →
      reconsiderTopology alloc d base fuel size e s = .ok (s', true) → ¬Ahead x.ansn (tcAnsn d base)
  | .other _ => True

def NotFarAbove (e : Nat) (s : Olsr) : TopologyEvent → Prop
  | .tc _ _ d base _ =>
    ∀ x, s.entries e = some x → x.advertisedTc.isSome → (tcAnsn d base).toNat ≤ x.ansn.toNat + 32768
  | .other _ => True

section Numbers

variable {a b : BitVec 16}

lemma fresher_iff : fresher a b = true ↔ b.toNat < a.toNat ∨ a.toNat + 32768 < b.toNat := by
  rw [fresher, Bool.or_eq_true, decide_eq_true_iff, decide_eq_true_iff, BitVec.lt_def]
  omega

lemma ahead_iff : Ahead a b ↔ (b.toNat < a.toNat ∧ a.toNat < b.toNat + 32768) ∨ a.toNat + 32768 < b.toNat := by
  have ha := a.isLt
  have hb := b.isLt
  rw [Ahead, BitVec.toNat_sub]
  omega

lemma fresherRight_iff (hne : a ≠ b) :
    FresherRight a b ↔ a.toNat < b.toNat + 32768 ∧ b.toNat < a.toNat + 32768 := by
  have hne : a.toNat ≠ b.toNat := fun h => hne (BitVec.eq_of_toNat_eq h)
  constructor
  · rintro ⟨hfirst, hsecond, -⟩
    rw [fresher_iff, ahead_iff] at hfirst hsecond
    omega
  rintro ⟨hab, hba⟩
  have hfirst : fresher a b = true ↔ Ahead a b := by
    rw [fresher_iff, ahead_iff]
    omega
  have hsecond : fresher b a = true ↔ Ahead b a := by
    rw [fresher_iff, ahead_iff]
    omega
  refine ⟨hfirst, hsecond, ?_⟩
  intro heq
  have hboth : fresher a b = true ↔ fresher b a = true := by rw [heq]
  rw [hfirst, hsecond, ahead_iff, ahead_iff] at hboth
  omega

end Numbers

section Topology

variable {alloc : Nat → Bool} {d : Dgram} {base fuel : Nat} {size : Int} {e : Nat} {s s' : Olsr} {x : OlsrEntry}

lemma reconsiderTopology_replaces (hx : s.entries e = some x) {b : Bool}
    (h : reconsiderTopology alloc d base fuel size e s = .ok (s', b)) :
    b = true ↔ x.keptTc (tcAnsn d base) = none := by
  have hadvertise : ∃ s₁, advertise alloc d base size e s = .ok (s₁, b) := by
    obtain ⟨⟨s₁, b₁⟩, hadv, h⟩ := bind_eq_ok.mp h
    cases b₁ with
    | false =>
      injection h with h
      injection h with _ hb
      exact ⟨s₁, hb ▸ hadv⟩
    | true =>
      obtain ⟨s₂, -, h⟩ := bind_eq_ok.mp h
      injection h with h
      injection h with _ hb
      exact ⟨s₁, hb ▸ hadv⟩
  obtain ⟨s₁, hadv⟩ := hadvertise
  obtain ⟨ansn, hansn, hadv⟩ := bind_eq_ok.mp hadv
  obtain ⟨-, rfl⟩ := get16_iff.mp hansn
  rw [← Option.not_isSome_iff_eq_none]
  by_cases hknown : (x.keptTc (tcAnsn d base)).isSome
  · have hknown' := hknown
    rw [tcAnsn] at hknown'
    simp only [read_eq hx, ok_bind, if_pos hknown'] at hadv
    injection hadv with hadv
    injection hadv with _ hb
    simp [← hb, hknown]
  have hknown' := hknown
  rw [tcAnsn] at hknown'
  simp only [read_eq hx, ok_bind, if_neg hknown'] at hadv
  split at hadv
  · cases hadv
  obtain ⟨tc, -, hadv⟩ := bind_eq_ok.mp hadv
  obtain ⟨s₂, -, hadv⟩ := bind_eq_ok.mp hadv
  injection hadv with hadv
  injection hadv with _ hb
  simp [← hb, hknown]

lemma neverOlder_iff {ev : TopologyEvent} (h : (topologyMachine e).enabled s ev) :
    NeverOlder e s ev ↔ NotFarAbove e s ev := by
  cases ev with
  | other _ => exact Iff.rfl
  | tc alloc fuel d base size =>
    obtain ⟨s', b, hret⟩ := h
    constructor
    · intro hnever x hx hkept
      by_contra hfar
      have hfresher : fresher (tcAnsn d base) x.ansn = true := by
        rw [fresher_iff]
        omega
      have hb : b = true := by
        rw [reconsiderTopology_replaces hx hret, OlsrEntry.keptTc, if_pos hfresher]
      rw [hb] at hret
      refine hnever x s' hx hkept hret ?_
      rw [ahead_iff]
      omega
    intro hfar x s₁ hx hkept hret₁ hahead
    have hnone := (reconsiderTopology_replaces hx hret₁).mp rfl
    have hfresher : fresher (tcAnsn d base) x.ansn = true := by
      rw [OlsrEntry.keptTc] at hnone
      split at hnone
      · assumption
      rw [hnone] at hkept
      cases hkept
    have hnear := hfar x hx hkept
    rw [fresher_iff] at hfresher
    rw [ahead_iff] at hahead
    omega

/-- The macro tells which of two numbers is fresher exactly if they are nearer than half of the way without going
round. And along every run of TC messages from an originator, whatever happens in between, no topology gives way to an
older one if and only if no message has a number that is above that of the topology kept by more than half. -/
theorem fresher_right_iff (a b : BitVec 16) (hne : a ≠ b) (e : Nat) (s : Olsr) (evs : List TopologyEvent)
    (hes : (topologyMachine e).Along (topologyMachine e).enabled s evs) :
    (FresherRight a b ↔ a.toNat < b.toNat + 32768 ∧ b.toNat < a.toNat + 32768) ∧
    ((topologyMachine e).Along (NeverOlder e) s evs ↔ (topologyMachine e).Along (NotFarAbove e) s evs) :=
  ⟨fresherRight_iff hne,
    Machine.along_congr (fun _ => True) (fun _ _ _ _ => trivial) (fun _ _ _ h => neverOlder_iff h) trivial evs hes⟩

end Topology

def hostWithTopology : Olsr :=
  { entries := fun p => if p = 0 then some { advertisedTc := some [], ansn := 1 } else none
    mallocs := 1, localInterfaces := some 0, myAnsn := 0, freshAnsn := 0, pktCounter := 0, ifaces := []
    router := { routingTable := [], addressList := fun _ => [] }
    arpQueries := [], sent := [] }

def oldTopology : Dgram := { mem := fun i => if i < 2 then 0xff else 0, len := 4 }

def nextTopology : Dgram := { mem := fun i => if i = 1 then 2 else 0, len := 4 }

theorem fresher_right_next : FresherRight 2 1 ∧
    (topologyMachine 0).Along (NeverOlder 0) hostWithTopology [.tc (fun _ => true) 1 nextTopology 0 4] := by
  have hret : (topologyMachine 0).enabled hostWithTopology (.tc (fun _ => true) 1 nextTopology 0 4) := ⟨_, true, rfl⟩
  obtain ⟨hnumbers, hrun⟩ := fresher_right_iff 2 1 (by decide) 0 hostWithTopology
    [.tc (fun _ => true) 1 nextTopology 0 4] ⟨hret, trivial⟩
  refine ⟨hnumbers.mpr ⟨by decide, by decide⟩, hrun.mpr ⟨?_, trivial⟩⟩
  intro x _ _
  have hansn : (tcAnsn nextTopology 0).toNat = 2 := rfl
  omega

/-- The message numbered 65535, from before the numbers went round, replaces the topology numbered 1. -/
theorem older_topology_taken :
    ¬((∀ a b : BitVec 16, a ≠ b → (a - b).toNat ≠ 32768 → FresherRight a b) ∧
      ∀ (e : Nat) (s : Olsr) (evs : List TopologyEvent), (topologyMachine e).Along (topologyMachine e).enabled s evs →
        (topologyMachine e).Along (NeverOlder e) s evs) := by
  rintro ⟨-, hruns⟩
  have hret : ∃ s', reconsiderTopology (fun _ => true) oldTopology 0 1 4 0 hostWithTopology = .ok (s', true) := ⟨_, rfl⟩
  obtain ⟨s', hret⟩ := hret
  have hnever := (hruns 0 hostWithTopology [.tc (fun _ => true) 1 oldTopology 0 4] ⟨⟨s', true, hret⟩, trivial⟩).1
  refine hnever _ s' rfl rfl hret ?_
  rw [ahead_iff]
  exact .inr (by decide)

end Vde
