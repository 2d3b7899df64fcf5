import Vde.Proofs.L3Forward
import Vde.Proofs.L3Manage

/-!
# The bounded queues of vde_l3

`pfifo` counts its packets and `bfifo` its bytes. `bfifo_dequeue` looks at `q_out` after `ufifo_dequeue` has moved it
on: it takes the length of the next packet off `qlen`, and has none to look at when the last packet has left.
-/

namespace Vde.L3

open List Function

def queueBytes (q : List Buff) : Nat := (q.map Buff.len).sum

@[simp] lemma queueBytes_nil : queueBytes [] = 0 := rfl

@[simp] lemma queueBytes_cons (vdb : Buff) (q : List Buff) : queueBytes (vdb :: q) = vdb.len + queueBytes q := rfl

@[simp] lemma queueBytes_append (q q' : List Buff) : queueBytes (q ++ q') = queueBytes q + queueBytes q' := by
  rw [queueBytes, map_append, sum_append]
  rfl

def Policy.load : Policy → List Buff → Nat
  | .bfifo, q => queueBytes q
  | _, q => q.length

/-- The queue is right: `qlen` is the load, the packets leave in the order in which they came, the load is within the
limit and no null pointer was read. -/
structure QueueRight (p : Policy) (limit : BitVec 32) (s : QueueRun) : Prop where
  fault : s.fault = false
  qlen : (s.vif.tcPriv qlenAt).toNat = p.load s.vif.qOut
  order : s.accepted = s.sent ++ s.vif.qOut
  bound : p.load s.vif.qOut ≤ limit.toNat

/-- The length that `bfifo_dequeue` takes off, with 0 for no packet. -/
def nextLen : List Buff → Nat
  | [] => 0
  | vdb :: _ => vdb.len

def AlikeNext (p : Policy) (s : QueueRun) : QueueEvent → Prop
  | .enqueue _ => True
  | .dequeue _ => p = .bfifo → ∀ vdb rest, s.vif.qOut = vdb :: rest → vdb.len = nextLen rest

structure BoundedInv (p : Policy) (limit : BitVec 32) (s : QueueRun) : Prop extends QueueRight p limit s where
  policy : s.vif.policy = p
  limitSet : s.vif.tcPriv limitAt = limit

variable {p : Policy} {limit : BitVec 32} {s : QueueRun} {vdb : Buff}

/-! ## One packet more -/

lemma BoundedInv.dropped (h : BoundedInv p limit s) : BoundedInv p limit { s with vif := dropAt droppedAt s.vif } where
  fault := h.fault
  qlen := h.qlen
  order := h.order
  bound := h.bound
  policy := h.policy
  limitSet := h.limitSet

lemma BoundedInv.taken (h : BoundedInv p limit s) {qlen : BitVec 32}
    (hqlen : qlen.toNat = p.load (s.vif.qOut ++ [vdb])) (hbound : qlen.toNat ≤ limit.toNat) :
    BoundedInv p limit
      { s with
        vif := ufifoEnqueue vdb { s.vif with tcPriv := update s.vif.tcPriv qlenAt qlen }
        accepted := s.accepted ++ [vdb] } where
  fault := h.fault
  qlen := hqlen
  order := by
    change s.accepted ++ [vdb] = s.sent ++ (s.vif.qOut ++ [vdb])
    rw [h.order, append_assoc]
  bound := by
    change p.load (s.vif.qOut ++ [vdb]) ≤ limit.toNat
    omega
  policy := h.policy
  limitSet := h.limitSet

lemma BoundedInv.pfifoEnqueue (h : BoundedInv .pfifo limit s) (vdb : Buff) :
    BoundedInv .pfifo limit (queueStep s (.enqueue vdb)) := by
  have hcall : enqueue vdb s.vif = some (L3.pfifoEnqueue vdb s.vif) := by rw [enqueue, h.policy]
  simp only [queueStep, hcall, L3.pfifoEnqueue]
  by_cases hroom : s.vif.tcPriv qlenAt < s.vif.tcPriv limitAt
  · have hlt : (s.vif.tcPriv qlenAt).toNat < limit.toNat := by
      rw [← h.limitSet]
      exact hroom
    have hnew : (s.vif.tcPriv qlenAt + 1).toNat = (s.vif.tcPriv qlenAt).toNat + 1 := by
      have hlimit := limit.isLt
      rw [BitVec.toNat_add]
      exact Nat.mod_eq_of_lt (show (s.vif.tcPriv qlenAt).toNat + 1 < 2 ^ 32 by omega)
    have hload : (s.vif.tcPriv qlenAt + 1).toNat = Policy.load .pfifo (s.vif.qOut ++ [vdb]) := by
      rw [hnew, h.qlen]
      simp [Policy.load]
    rw [if_pos hroom]
    exact h.taken hload (by omega)
  rw [if_neg hroom]
  exact h.dropped

lemma BoundedInv.bfifoEnqueue (h : BoundedInv .bfifo limit s) (vdb : Buff) :
    BoundedInv .bfifo limit (queueStep s (.enqueue vdb)) := by
  have hcall : enqueue vdb s.vif = some (L3.bfifoEnqueue vdb s.vif) := by rw [enqueue, h.policy]
  simp only [queueStep, hcall, L3.bfifoEnqueue]
  by_cases hroom : (s.vif.tcPriv qlenAt).toNat + vdb.len < (s.vif.tcPriv limitAt).toNat
  · have hlt : (s.vif.tcPriv qlenAt).toNat + vdb.len < limit.toNat := by
      rw [← h.limitSet]
      exact hroom
    have hnew : (s.vif.tcPriv qlenAt + BitVec.ofNat 32 vdb.len).toNat = (s.vif.tcPriv qlenAt).toNat + vdb.len := by
      have hlimit := limit.isLt
      rw [BitVec.toNat_add, BitVec.toNat_ofNat, Nat.mod_eq_of_lt (show vdb.len < 2 ^ 32 by omega)]
      exact Nat.mod_eq_of_lt (show (s.vif.tcPriv qlenAt).toNat + vdb.len < 2 ^ 32 by omega)
    have hload : (s.vif.tcPriv qlenAt + BitVec.ofNat 32 vdb.len).toNat = Policy.load .bfifo (s.vif.qOut ++ [vdb]) := by
      rw [hnew, h.qlen]
      simp [Policy.load]
    rw [if_pos hroom]
    exact h.taken hload (by omega)
  rw [if_neg hroom]
  exact h.dropped

/-! ## One packet less -/

lemma queueStep_idle (hq : s.vif.qOut = []) (now : Time) : queueStep s (.dequeue now) = s := by
  rw [queueStep, if_pos hq]

lemma queueStep_waiting (hq : s.vif.qOut ≠ []) (now : Time) :
    queueStep s (.dequeue now) =
      { s with
        vif := (dequeue now s.vif).vif
        sent := s.sent ++ (dequeue now s.vif).sent
        fault := (dequeue now s.vif).fault } := by
  rw [queueStep, if_neg hq]

variable {rest : List Buff}

lemma BoundedInv.left (h : BoundedInv p limit s) (hq : s.vif.qOut = vdb :: rest)
    {qlen : BitVec 32} (hqlen : qlen.toNat = p.load rest) (hless : p.load rest ≤ p.load (vdb :: rest)) :
    BoundedInv p limit
      { vif := { s.vif with qOut := rest, tcPriv := update s.vif.tcPriv qlenAt qlen }
        accepted := s.accepted
        sent := s.sent ++ [vdb]
        fault := false } where
  fault := rfl
  qlen := hqlen
  order := by
    rw [h.order, hq, append_assoc]
    rfl
  bound := by
    have hbound := h.bound
    rw [hq] at hbound
    exact Nat.le_trans hless hbound
  policy := h.policy
  limitSet := h.limitSet

lemma BoundedInv.pfifoDequeue (h : BoundedInv .pfifo limit s) (now : Time) (hq : s.vif.qOut ≠ []) :
    BoundedInv .pfifo limit (queueStep s (.dequeue now)) := by
  obtain ⟨vdb, rest, hcons⟩ := exists_cons_of_ne_nil hq
  have hqlen : (s.vif.tcPriv qlenAt).toNat = rest.length + 1 := by
    rw [h.qlen, hcons]
    rfl
  have hpos : (0 : BitVec 32) < s.vif.tcPriv qlenAt := by
    change 0 < (s.vif.tcPriv qlenAt).toNat
    omega
  have hnew : (s.vif.tcPriv qlenAt - 1).toNat = rest.length := by
    rw [BitVec.toNat_sub_of_le (by change 1 ≤ (s.vif.tcPriv qlenAt).toNat; omega), hqlen]
    rfl
  have hcall : dequeue now s.vif = L3.pfifoDequeue s.vif := by rw [dequeue, h.policy]
  rw [queueStep_waiting hq]
  simp only [hcall, L3.pfifoDequeue, ufifoDequeue, hcons, if_pos hpos]
  exact h.left hcons hnew (Nat.le_succ _)

lemma bfifoDequeue_cons {vif : Iface} (hq : vif.qOut = vdb :: rest) (hpos : (0 : BitVec 32) < vif.tcPriv qlenAt)
    (hrest : rest ≠ []) : bfifoDequeue vif =
      { vif :=
          { vif with
            qOut := rest
            tcPriv := update vif.tcPriv qlenAt (vif.tcPriv qlenAt - BitVec.ofNat 32 (nextLen rest)) }
        sent := [vdb]
        fault := false } := by
  obtain ⟨next, rest, rfl⟩ := exists_cons_of_ne_nil hrest
  simp only [bfifoDequeue, ufifoDequeue, hq, if_pos hpos, nextLen]

lemma BoundedInv.lessNext (h : BoundedInv .bfifo limit s) (hq : s.vif.qOut = vdb :: rest) :
    (s.vif.tcPriv qlenAt - BitVec.ofNat 32 (nextLen rest)).toNat + nextLen rest = vdb.len + queueBytes rest := by
  have hqlen : (s.vif.tcPriv qlenAt).toNat = vdb.len + queueBytes rest := by
    rw [h.qlen, hq]
    rfl
  have hnext : nextLen rest ≤ queueBytes rest := by
    cases rest with
    | nil => exact Nat.le_refl 0
    | cons next rest => exact Nat.le_add_right _ _
  have hwidth := (s.vif.tcPriv qlenAt).isLt
  have hval : (BitVec.ofNat 32 (nextLen rest)).toNat = nextLen rest := by
    rw [BitVec.toNat_ofNat]
    exact Nat.mod_eq_of_lt (show nextLen rest < 2 ^ 32 by omega)
  rw [BitVec.toNat_sub_of_le (by rw [BitVec.le_def, hval]; omega), hval]
  omega

lemma BoundedInv.bfifoDequeue (h : BoundedInv .bfifo limit s) (now : Time) (hq : s.vif.qOut = vdb :: rest)
    (halike : vdb.len = nextLen rest) : BoundedInv .bfifo limit (queueStep s (.dequeue now)) := by
  have hqlen : (s.vif.tcPriv qlenAt).toNat = vdb.len + queueBytes rest := by
    rw [h.qlen, hq]
    rfl
  have hcall : dequeue now s.vif = L3.bfifoDequeue s.vif := by rw [dequeue, h.policy]
  have hne : s.vif.qOut ≠ [] := hq ▸ cons_ne_nil _ _
  by_cases hpos : (0 : BitVec 32) < s.vif.tcPriv qlenAt
  · have hrest : rest ≠ [] := by
      rintro rfl
      have hzero : (s.vif.tcPriv qlenAt).toNat = 0 := by
        rw [hqlen, halike]
        rfl
      exact absurd (show 0 < (s.vif.tcPriv qlenAt).toNat from hpos) (by omega)
    have hless := h.lessNext hq
    have hload : (s.vif.tcPriv qlenAt - BitVec.ofNat 32 (nextLen rest)).toNat = queueBytes rest := by omega
    rw [queueStep_waiting hne]
    simp only [hcall, bfifoDequeue_cons hq hpos hrest]
    exact h.left hq hload (Nat.le_add_left _ _)
  -- only empty packets: `qlen` stays 0
  have hzero : (s.vif.tcPriv qlenAt).toNat = 0 := by
    have hnot : ¬0 < (s.vif.tcPriv qlenAt).toNat := hpos
    omega
  have hload : (s.vif.tcPriv qlenAt).toNat = queueBytes rest := by omega
  have hsame := h.left hq hload (Nat.le_add_left _ _)
  rw [update_eq_self] at hsame
  rw [queueStep_waiting hne]
  simp only [hcall, L3.bfifoDequeue, ufifoDequeue, hq, if_neg hpos]
  exact hsame

lemma BoundedInv.not_bfifoDequeue (h : BoundedInv .bfifo limit s) (now : Time) (hq : s.vif.qOut = vdb :: rest)
    (hdiffer : vdb.len ≠ nextLen rest) : ¬QueueRight .bfifo limit (queueStep s (.dequeue now)) := by
  intro hright
  have hqlen : (s.vif.tcPriv qlenAt).toNat = vdb.len + queueBytes rest := by
    rw [h.qlen, hq]
    rfl
  have hpos : (0 : BitVec 32) < s.vif.tcPriv qlenAt := by
    change 0 < (s.vif.tcPriv qlenAt).toNat
    cases rest with
    | nil => have hlen : vdb.len ≠ 0 := hdiffer; omega
    | cons next rest =>
      have hlen : vdb.len ≠ next.len := hdiffer
      rw [hqlen, queueBytes_cons]
      omega
  have hcall : dequeue now s.vif = L3.bfifoDequeue s.vif := by rw [dequeue, h.policy]
  have hne : s.vif.qOut ≠ [] := hq ▸ cons_ne_nil _ _
  cases rest with
  | nil =>
    have hfault := hright.fault
    rw [queueStep_waiting hne] at hfault
    simp only [hcall, L3.bfifoDequeue, ufifoDequeue, hq, if_pos hpos] at hfault
    cases hfault
  | cons next rest =>
    have hafter := hright.qlen
    have hless := h.lessNext hq
    rw [queueStep_waiting hne] at hafter
    simp only [hcall, bfifoDequeue_cons hq hpos (cons_ne_nil _ _),
      update_self, Policy.load] at hafter
    omega

/-! ## Runs -/

lemma boundedInv_start {name : Policy} {vif vif' : Iface} {args : List Char} (hq : vif.qOut = [])
    (hinit : fifoInit name (setInterfacePolicy vif name) args = .ok vif') :
    BoundedInv name (vif'.tcPriv limitAt) (queueStart vif') := by
  unfold fifoInit at hinit
  split at hinit
  · cases hinit
  split at hinit
  · cases hinit
  cases hinit
  have hload : name.load vif.qOut = 0 := by
    rw [hq]
    cases name <;> rfl
  exact
    { fault := rfl
      qlen := hload.symm
      order := by
        rw [queueStart]
        exact hq.symm
      bound := by
        rw [queueStart]
        exact Nat.le_trans (Nat.le_of_eq hload) (Nat.zero_le _)
      policy := rfl
      limitSet := rfl }

/-- For every run under a bounded policy, from its initialisation on an empty queue, the queue is right in every state
exactly when each packet that leaves a `bfifo` queue is as long as the one behind it, and empty if it is the last. -/
theorem boundedQueue_right_iff {name : Policy} (hname : name = .pfifo ∨ name = .bfifo) {vif vif' : Iface}
    {args : List Char} (hq : vif.qOut = []) (hinit : fifoInit name (setInterfacePolicy vif name) args = .ok vif')
    (es : List QueueEvent) (hes : queueMachine.Along queueMachine.enabled (queueStart vif') es) :
    queueMachine.Always (QueueRight name (vif'.tcPriv limitAt)) (queueStart vif') es ↔
    queueMachine.Along (AlikeNext name) (queueStart vif') es := by
  refine Machine.always_iff_along (BoundedInv name (vif'.tcPriv limitAt)) (fun _ h => h.toQueueRight) ?_ ?_
    (boundedInv_start hq hinit) es hes
  · intro s e h he halike
    cases e with
    | enqueue vdb =>
      rcases hname with rfl | rfl
      · exact h.pfifoEnqueue vdb
      · exact h.bfifoEnqueue vdb
    | dequeue now =>
      by_cases hempty : s.vif.qOut = []
      · have hsame : queueMachine.step s (.dequeue now) = s := queueStep_idle hempty now
        rw [hsame]
        exact h
      rcases hname with rfl | rfl
      · exact h.pfifoDequeue now hempty
      obtain ⟨vdb, rest, hcons⟩ := exists_cons_of_ne_nil hempty
      exact h.bfifoDequeue now hcons (halike rfl vdb rest hcons)
  intro s e h he hnot
  cases e with
  | enqueue vdb => exact absurd trivial hnot
  | dequeue now =>
    have hex : name = .bfifo ∧ ∃ vdb rest, s.vif.qOut = vdb :: rest ∧ vdb.len ≠ nextLen rest := by
      by_contra hno
      refine hnot fun hbfifo vdb rest hcons => ?_
      by_contra hlen
      exact hno ⟨hbfifo, vdb, rest, hcons, hlen⟩
    obtain ⟨rfl, vdb, rest, hcons, hlen⟩ := hex
    exact h.not_bfifoDequeue now hcons hlen

def idleIface : Iface := plainIface 0 (Vector.replicate 6 0) 0 0

def blankBuff (len : Nat) (room : len ≤ 1550) : Buff := { data := fun _ => 0, len := len, room := room }

def limitArgs : List Char := ['l', 'i', 'm', 'i', 't', ' ', '2', '0', '0', '0']

def boundedIface (name : Policy) : Iface :=
  { idleIface with
    policyName := name
    policy := name
    tcPriv := update (update (update (fun _ => 0) qlenAt 0) limitAt 2000) droppedAt 0 }

lemma boundedIface_init (name : Policy) :
    fifoInit name (setInterfacePolicy idleIface name) limitArgs = .ok (boundedIface name) := rfl

def oneBuff : List QueueEvent := [.enqueue (blankBuff 60 (Nat.le_of_ble_eq_true rfl)), .dequeue ⟨0, 0⟩]

lemma oneBuff_enabled (name : Policy) (hname : name = .pfifo ∨ name = .bfifo) :
    queueMachine.Along queueMachine.enabled (queueStart (boundedIface name)) oneBuff := by
  rcases hname with rfl | rfl
  · exact ⟨rfl, rfl, trivial⟩
  · exact ⟨rfl, rfl, trivial⟩

theorem boundedQueue_right_iff_pfifo :
    queueMachine.Always (QueueRight .pfifo 2000) (queueStart (boundedIface .pfifo)) oneBuff := by
  refine (boundedQueue_right_iff (.inl rfl) rfl (boundedIface_init .pfifo) oneBuff
    (oneBuff_enabled .pfifo (.inl rfl))).mpr ⟨trivial, ?_, trivial⟩
  rintro ⟨⟩

theorem bfifo_only_packet : fifoInit .bfifo (setInterfacePolicy idleIface .bfifo) limitArgs =
    .ok (boundedIface .bfifo) ∧ queueMachine.Along queueMachine.enabled (queueStart (boundedIface .bfifo)) oneBuff ∧
    ¬queueMachine.Always (QueueRight .bfifo 2000) (queueStart (boundedIface .bfifo)) oneBuff := by
  refine ⟨boundedIface_init .bfifo, oneBuff_enabled .bfifo (.inr rfl), fun h => ?_⟩
  have hfault : true = false := h.last.fault
  exact absurd hfault (by decide)

end Vde.L3
