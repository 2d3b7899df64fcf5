import Vde.IpnMsg

/-!
# The accounts of the messages

The counters of a node are the lengths of its queues, the count of a message is the number of its items, and one
more while it is injected, and the pool counts its messages: as long as no injection that goes on without the
mutex gives a message to a node whose queues were flushed for its release.
-/

namespace Vde.Ipn

open Finset Function Option

/-! ## The claims -/

def MsgPhase.injects : MsgPhase → Option Nat
  | .write m | .test m | .down m | .locked m | .handle m _ _ | .cleared m | .put m => some m
  | .change _ oob => oob
  | .read _ | .free _ => none

def MsgState.Injecting (s : MsgState) (m : Nat) : Prop := ∃ c ∈ s.calls, (s.phase c).injects = some m

def MsgState.items (s : MsgState) (m : Nat) : Nat :=
  ∑ n ∈ s.live, ((s.node n).msgqueue.count m + (s.node n).oobmsgqueue.count m) +
    (s.calls.filter fun c => s.phase c = .read m).card

structure AccountsRight (s : MsgState) : Prop where
  totmsgcount : ∀ n ∈ s.live, (s.node n).totmsgcount = (s.node n).msgqueue.length + (s.node n).oobmsgqueue.length
  oobmsgcount : ∀ n ∈ s.live, (s.node n).oobmsgcount = (s.node n).oobmsgqueue.length
  injecting : ∀ m ∈ s.pool.live, s.Injecting m → s.pool.count m = s.items m + 1
  count : ∀ m ∈ s.pool.live, ¬s.Injecting m → s.pool.count m = s.items m
  live : ∀ m, m ∈ s.pool.live ↔ s.Injecting m ∨ 0 < s.items m
  nelem : s.pool.nelem = s.pool.live.card

def FewPending (s : MsgState) : Prop :=
  ∀ n ∈ s.live, (s.node n).msgqueue.length + (s.node n).oobmsgqueue.length < 65536

/-! ## The steps that are right -/

def MsgPhase.flushed (oob : Bool) (n : Nat) : MsgPhase → Bool
  | .change (.release n' stage) _ => n' = n && stage != .begin && !(oob && stage = .flushed)
  | .free n' => n' = n
  | _ => false

def MsgState.takes (s : MsgState) (n : Nat) (oob alloc : Bool) : Bool :=
  let node := s.node n
  if oob then !node.netdev && node.shutdown &&& RCV_SHUTDOWN_NO_OOB == 0 &&
    (s.lossless || node.oobmsgcount < s.msgpoolSize) && alloc
  else !node.netdev && node.shutdown &&& RCV_SHUTDOWN == 0 && (s.lossless || node.totmsgcount < s.msgpoolSize) && alloc

/-- A recipient is not freed, and does not take a message after its queue was flushed. -/
def MsgOk (s : MsgState) : MsgEvent → Prop
  | .send c oob alloc => ∀ m n nested, s.phase c = .handle m (some n) nested → n ∈ s.live ∧
      (s.takes n oob alloc = true → ∀ c' ∈ s.calls, (s.phase c').flushed oob n = false)
  | _ => True

/-! ## References -/

def MsgNode.pending (node : MsgNode) : Multiset Nat := ↑(node.msgqueue ++ node.oobmsgqueue)

def MsgPhase.holds (p : MsgPhase) : Multiset Nat :=
  match p with
  | .read m => {m}
  | p => p.injects.elim 0 fun m => {m}

def MsgState.refs (s : MsgState) : Multiset Nat :=
  ∑ n ∈ s.live, (s.node n).pending + ∑ c ∈ s.calls, (s.phase c).holds

section

variable {s : MsgState} {n c : Nat} {node : MsgNode} {p : MsgPhase}

lemma refs_setNode (hn : n ∈ s.live) (node : MsgNode) :
    (s.setNode n node).refs + (s.node n).pending = s.refs + node.pending := by
  have hsum := @sum_holds_update _ _ _ s.live (fun j => (s.node j).pending) n node.pending hn
  have hpending : ∀ j, (update s.node n node j).pending =
      update (fun j => (s.node j).pending) n node.pending j :=
    fun j => apply_update (fun _ x => MsgNode.pending x) s.node n node j
  simp only [MsgState.refs, MsgState.setNode, hpending]
  rw [add_right_comm, hsum, add_right_comm]

lemma refs_goto (hc : c ∈ s.calls) (p : MsgPhase) : (s.goto c p).refs + (s.phase c).holds = s.refs + p.holds := by
  have hsum := @sum_holds_update _ _ _ s.calls (fun j => (s.phase j).holds) c p.holds hc
  have hholds : ∀ j, (update s.phase c p j).holds =
      update (fun j => (s.phase j).holds) c p.holds j :=
    fun j => apply_update (fun _ x => MsgPhase.holds x) s.phase c p j
  simp only [MsgState.refs, MsgState.goto, hholds]
  rw [add_assoc, hsum, add_assoc]

lemma refs_leave (hc : c ∈ s.calls) : (s.leave c).refs + (s.phase c).holds = s.refs := by
  simp only [MsgState.refs, MsgState.leave]
  rw [add_assoc, add_comm _ (s.phase c).holds, add_sum_erase s.calls (fun j => (s.phase j).holds) hc]

lemma refs_enter (hc : c ∉ s.calls) (p : MsgPhase) : (s.enter c p).refs = p.holds + s.refs := by
  have hother : ∑ j ∈ s.calls, (update s.phase c p j).holds = ∑ j ∈ s.calls, (s.phase j).holds := by
    apply sum_congr rfl
    intro j hj
    have hjc : j ≠ c := by
      intro heq
      rw [heq] at hj
      exact hc hj
    rw [update_of_ne hjc]
  simp only [MsgState.refs, MsgState.enter, MsgState.goto]
  rw [sum_insert hc, hother, update_self, add_left_comm]

end

/-! ## Counters of 16 bits -/

lemma inc16_mod (a : Nat) : inc16 (a % 65536) = (a + 1) % 65536 := by
  unfold inc16
  omega

lemma dec16_mod (a : Nat) : dec16 ((a + 1) % 65536) = a % 65536 := by
  unfold dec16
  omega

lemma foldl_dec16 (l : List Nat) (a : Nat) : l.foldl (fun c _ => dec16 c) ((a + l.length) % 65536) = a % 65536 := by
  induction l with
  | nil => rfl
  | cons m l ih =>
    rw [List.foldl_cons, List.length_cons, ← Nat.add_assoc, dec16_mod]
    exact ih

structure MsgNode.Counters (node : MsgNode) : Prop where
  tot : node.totmsgcount = (node.msgqueue.length + node.oobmsgqueue.length) % 65536
  oob : node.oobmsgcount = node.oobmsgqueue.length % 65536

/-! ## The invariant -/

/-- What holds of the nodes and the calls: a message is injected by one call, a node is released by one, and the
queues of a node that are flushed for its release stay empty. -/
structure MsgShape (s : MsgState) : Prop where
  counters : ∀ n ∈ s.live, (s.node n).Counters
  injects : ∀ c ∈ s.calls, ∀ c' ∈ s.calls, ∀ m, (s.phase c).injects = some m → (s.phase c').injects = some m → c = c'
  releases : ∀ c ∈ s.calls, ∀ n, (s.phase c).releases n = true → n ∈ s.live
  single : ∀ c ∈ s.calls, ∀ c' ∈ s.calls, ∀ n, (s.phase c).releases n = true → (s.phase c').releases n = true → c = c'
  flushed : ∀ c ∈ s.calls, ∀ n, (s.phase c).flushed false n = true →
    (s.node n).connected = false ∧ (s.node n).msgqueue = []
  flushedOob : ∀ c ∈ s.calls, ∀ n, (s.phase c).flushed true n = true → (s.node n).oobmsgqueue = []

structure MsgInv (s : MsgState) : Prop where
  shape : MsgShape s
  pool : s.pool.Counts s.refs

lemma MsgPhase.injects_eq_holds {p : MsgPhase} {m : Nat} (h : p.injects = some m) : p.holds = {m} := by
  unfold MsgPhase.holds
  cases p <;> simp_all [MsgPhase.injects]

lemma MsgPhase.count_holds (p : MsgPhase) (m : Nat) :
    p.holds.count m = (if p.injects = some m then 1 else 0) + (if p = .read m then 1 else 0) := by
  cases hp : p.injects with
  | none =>
    unfold MsgPhase.holds
    cases p <;> simp_all [MsgPhase.injects, Multiset.count_singleton, eq_comm]
  | some m' =>
    have hread : p ≠ .read m := by
      intro heq
      rw [heq] at hp
      exact some_ne_none m' hp.symm
    rw [MsgPhase.injects_eq_holds hp, if_neg hread, Multiset.count_singleton]
    by_cases hm : m = m'
    · simp [hm]
    · simp [hm, Ne.symm hm]

lemma count_refs (s : MsgState) (m : Nat) :
    s.refs.count m = s.items m + (s.calls.filter fun c => (s.phase c).injects = some m).card := by
  have hnodes : ∀ n, (s.node n).pending.count m = (s.node n).msgqueue.count m + (s.node n).oobmsgqueue.count m := by
    intro n
    rw [MsgNode.pending, Multiset.coe_count, List.count_append]
  have hcalls : ∑ c ∈ s.calls, (s.phase c).holds.count m =
      (s.calls.filter fun c => (s.phase c).injects = some m).card + (s.calls.filter fun c => s.phase c = .read m).card := by
    rw [card_filter, card_filter, ← sum_add_distrib]
    apply sum_congr rfl
    intro c _
    exact MsgPhase.count_holds (s.phase c) m
  rw [MsgState.refs, Multiset.count_add, Multiset.count_sum', Multiset.count_sum', hcalls, MsgState.items]
  simp only [hnodes]
  omega

lemma MsgInv.card_injects {s : MsgState} (h : MsgInv s) (m : Nat) :
    (s.Injecting m → (s.calls.filter fun c => (s.phase c).injects = some m).card = 1) ∧
    (¬s.Injecting m → (s.calls.filter fun c => (s.phase c).injects = some m).card = 0) := by
  constructor
  · rintro ⟨c, hc, hm⟩
    rw [card_eq_one]
    refine ⟨c, ?_⟩
    ext c'
    rw [mem_filter, mem_singleton]
    constructor
    · rintro ⟨hc', hm'⟩
      exact h.shape.injects c' hc' c hc m hm' hm
    intro heq
    rw [heq]
    exact ⟨hc, hm⟩
  intro hnone
  rw [card_eq_zero, filter_eq_empty_iff]
  intro c hc hm
  exact hnone ⟨c, hc, hm⟩

lemma MsgInv.accounts {s : MsgState} (h : MsgInv s) (hfew : FewPending s) : AccountsRight s where
  totmsgcount n hn := by
    rw [(h.shape.counters n hn).tot, Nat.mod_eq_of_lt (hfew n hn)]
  oobmsgcount n hn := by
    have := hfew n hn
    rw [(h.shape.counters n hn).oob, Nat.mod_eq_of_lt (by omega)]
  injecting m hm hinj := by
    rw [h.pool.count m hm, count_refs, (h.card_injects m).1 hinj]
    rfl
  count m hm hinj := by
    rw [h.pool.count m hm, count_refs, (h.card_injects m).2 hinj]
    rfl
  live m := by
    rw [h.pool.count_pos_iff, count_refs]
    by_cases hinj : s.Injecting m
    · rw [(h.card_injects m).1 hinj]
      constructor
      · exact fun _ => .inl hinj
      · exact fun _ => by omega
    rw [(h.card_injects m).2 hinj]
    exact (or_iff_right hinj).symm
  nelem := h.pool.nelem

/-! ## Kinds of steps -/

/-- Only nodes, messages and the fault are different. -/
structure MsgState.SameCalls (s s' : MsgState) : Prop where
  calls : s'.calls = s.calls
  phase : s'.phase = s.phase
  mutex : s'.ipnnMutex = s.ipnnMutex
  lossless : s'.lossless = s.lossless

variable {ch : Change}

section

variable {s : MsgState} {n m c : Nat} {node : MsgNode} {p : MsgPhase}

lemma MsgShape.of_eq {s' : MsgState} (h : MsgShape s) (hlive : s'.live = s.live) (hnode : s'.node = s.node)
    (hcalls : s'.calls = s.calls) (hphase : s'.phase = s.phase) : MsgShape s' := by
  constructor
  · rw [hlive, hnode]
    exact h.counters
  · rw [hcalls, hphase]
    exact h.injects
  · rw [hcalls, hphase, hlive]
    exact h.releases
  · rw [hcalls, hphase]
    exact h.single
  · rw [hcalls, hphase, hnode]
    exact h.flushed
  · rw [hcalls, hphase, hnode]
    exact h.flushedOob

lemma MsgPhase.releases_of_flushed {oob : Bool} (h : p.flushed oob n = true) : p.releases n = true := by
  unfold MsgPhase.flushed at h
  unfold MsgPhase.releases
  cases p with
  | change ch o =>
    cases ch <;> simp_all
  | _ => simp_all

lemma MsgPhase.flushed_of_flushed_oob (h : p.flushed true n = true) : p.flushed false n = true := by
  unfold MsgPhase.flushed at h ⊢
  cases p with
  | change ch o =>
    cases ch <;> simp_all
  | _ => simp_all

lemma MsgShape.goto (h : MsgShape s) (hc : c ∈ s.calls)
    (hinj : ∀ m, p.injects = some m → (s.phase c).injects = some m ∨ ∀ c' ∈ s.calls, (s.phase c').injects ≠ some m)
    (hrel : ∀ n, p.releases n = true → (s.phase c).releases n = true)
    (hfl : ∀ n, p.flushed false n = true → (s.node n).connected = false ∧ (s.node n).msgqueue = [])
    (hoob : ∀ n, p.flushed true n = true → (s.node n).oobmsgqueue = []) : MsgShape (s.goto c p) := by
  have hself : (s.goto c p).phase c = p := by simp
  have hother : ∀ {c'}, c' ≠ c → (s.goto c p).phase c' = s.phase c' := by
    intro c' hne
    simp [hne]
  have hphase : ∀ {c'}, c' ∈ s.calls → ∀ n, ((s.goto c p).phase c').releases n = true → (s.phase c').releases n = true := by
    intro c' _ n hn
    by_cases heq : c' = c
    · rw [heq, hself] at hn
      rw [heq]
      exact hrel n hn
    · rwa [hother heq] at hn
  constructor
  · exact h.counters
  · intro c₁ hc₁ c₂ hc₂ m h₁ h₂
    by_cases heq₁ : c₁ = c
    · by_cases heq₂ : c₂ = c
      · rw [heq₁, heq₂]
      rw [heq₁, hself] at h₁
      rw [hother heq₂] at h₂
      cases hinj m h₁ with
      | inl hold =>
        rw [heq₁]
        exact h.injects c hc c₂ hc₂ m hold h₂
      | inr hnew => exact absurd h₂ (hnew c₂ hc₂)
    rw [hother heq₁] at h₁
    by_cases heq₂ : c₂ = c
    · rw [heq₂, hself] at h₂
      cases hinj m h₂ with
      | inl hold =>
        rw [heq₂]
        exact h.injects c₁ hc₁ c hc m h₁ hold
      | inr hnew => exact absurd h₁ (hnew c₁ hc₁)
    rw [hother heq₂] at h₂
    exact h.injects c₁ hc₁ c₂ hc₂ m h₁ h₂
  · intro c' hc' n hn
    exact h.releases c' hc' n (hphase hc' n hn)
  · intro c₁ hc₁ c₂ hc₂ n h₁ h₂
    exact h.single c₁ hc₁ c₂ hc₂ n (hphase hc₁ n h₁) (hphase hc₂ n h₂)
  · intro c' hc' n hn
    by_cases heq : c' = c
    · rw [heq, hself] at hn
      exact hfl n hn
    rw [hother heq] at hn
    exact h.flushed c' hc' n hn
  · intro c' hc' n hn
    by_cases heq : c' = c
    · rw [heq, hself] at hn
      exact hoob n hn
    rw [hother heq] at hn
    exact h.flushedOob c' hc' n hn

lemma MsgShape.enter (h : MsgShape s) (hc : c ∉ s.calls)
    (hinj : ∀ m, p.injects = some m → ∀ c' ∈ s.calls, (s.phase c').injects ≠ some m)
    (hrel : ∀ n, p.releases n = true → n ∈ s.live ∧ ∀ c' ∈ s.calls, (s.phase c').releases n = false)
    (hfl : ∀ oob n, p.flushed oob n = false) : MsgShape (s.enter c p) := by
  have hself : (s.enter c p).phase c = p := by simp
  have hother : ∀ {c'}, c' ∈ s.calls → (s.enter c p).phase c' = s.phase c' := by
    intro c' hc'
    have hne : c' ≠ c := fun heq => hc (by rwa [heq] at hc')
    simp [hne]
  have hcases : ∀ {c'}, c' ∈ (s.enter c p).calls → c' = c ∨ c' ∈ s.calls := fun hmem => mem_insert.1 hmem
  constructor
  · exact h.counters
  · intro c₁ hc₁ c₂ hc₂ m h₁ h₂
    cases hcases hc₁ with
    | inl heq₁ =>
      rw [heq₁, hself] at h₁
      cases hcases hc₂ with
      | inl heq₂ => rw [heq₁, heq₂]
      | inr hold₂ =>
        rw [hother hold₂] at h₂
        exact absurd h₂ (hinj m h₁ c₂ hold₂)
    | inr hold₁ =>
      rw [hother hold₁] at h₁
      cases hcases hc₂ with
      | inl heq₂ =>
        rw [heq₂, hself] at h₂
        exact absurd h₁ (hinj m h₂ c₁ hold₁)
      | inr hold₂ =>
        rw [hother hold₂] at h₂
        exact h.injects c₁ hold₁ c₂ hold₂ m h₁ h₂
  · intro c' hc' n hn
    cases hcases hc' with
    | inl heq =>
      rw [heq, hself] at hn
      exact (hrel n hn).1
    | inr hold =>
      rw [hother hold] at hn
      exact h.releases c' hold n hn
  · intro c₁ hc₁ c₂ hc₂ n h₁ h₂
    cases hcases hc₁ with
    | inl heq₁ =>
      rw [heq₁, hself] at h₁
      cases hcases hc₂ with
      | inl heq₂ => rw [heq₁, heq₂]
      | inr hold₂ =>
        rw [hother hold₂, (hrel n h₁).2 c₂ hold₂] at h₂
        cases h₂
    | inr hold₁ =>
      rw [hother hold₁] at h₁
      cases hcases hc₂ with
      | inl heq₂ =>
        rw [heq₂, hself] at h₂
        rw [(hrel n h₂).2 c₁ hold₁] at h₁
        cases h₁
      | inr hold₂ =>
        rw [hother hold₂] at h₂
        exact h.single c₁ hold₁ c₂ hold₂ n h₁ h₂
  · intro c' hc' n hn
    cases hcases hc' with
    | inl heq =>
      rw [heq, hself, hfl] at hn
      cases hn
    | inr hold =>
      rw [hother hold] at hn
      exact h.flushed c' hold n hn
  · intro c' hc' n hn
    cases hcases hc' with
    | inl heq =>
      rw [heq, hself, hfl] at hn
      cases hn
    | inr hold =>
      rw [hother hold] at hn
      exact h.flushedOob c' hold n hn

lemma MsgShape.leave (h : MsgShape s) (c : Nat) : MsgShape (s.leave c) where
  counters := h.counters
  injects c₁ hc₁ c₂ hc₂ := h.injects c₁ (mem_of_mem_erase hc₁) c₂ (mem_of_mem_erase hc₂)
  releases c' hc' := h.releases c' (mem_of_mem_erase hc')
  single c₁ hc₁ c₂ hc₂ := h.single c₁ (mem_of_mem_erase hc₁) c₂ (mem_of_mem_erase hc₂)
  flushed c' hc' := h.flushed c' (mem_of_mem_erase hc')
  flushedOob c' hc' := h.flushedOob c' (mem_of_mem_erase hc')

lemma MsgShape.setNode (h : MsgShape s) (hcounters : node.Counters)
    (hfl : ∀ c ∈ s.calls, (s.phase c).flushed false n = true → node.connected = false ∧ node.msgqueue = [])
    (hoob : ∀ c ∈ s.calls, (s.phase c).flushed true n = true → node.oobmsgqueue = []) : MsgShape (s.setNode n node) := by
  have hself : (s.setNode n node).node n = node := by simp
  have hother : ∀ {n'}, n' ≠ n → (s.setNode n node).node n' = s.node n' := by
    intro n' hne
    simp [hne]
  constructor
  · intro n' hn'
    by_cases heq : n' = n
    · rw [heq, hself]
      exact hcounters
    rw [hother heq]
    exact h.counters n' hn'
  · exact h.injects
  · exact h.releases
  · exact h.single
  · intro c hc n' hn'
    by_cases heq : n' = n
    · rw [heq] at hn'
      rw [heq, hself]
      exact hfl c hc hn'
    rw [hother heq]
    exact h.flushed c hc n' hn'
  · intro c hc n' hn'
    by_cases heq : n' = n
    · rw [heq] at hn'
      rw [heq, hself]
      exact hoob c hc hn'
    rw [hother heq]
    exact h.flushedOob c hc n' hn'

lemma MsgInv.live_of_holds (h : MsgInv s) (hc : c ∈ s.calls) (hm : m ∈ (s.phase c).holds) : m ∈ s.pool.live := by
  rw [h.pool.mem, MsgState.refs, Multiset.mem_add]
  right
  rw [Multiset.mem_sum]
  exact ⟨c, hc, hm⟩

lemma MsgInv.not_injects (h : MsgInv s) (hm : m ∉ s.pool.live) : ∀ c ∈ s.calls, (s.phase c).injects ≠ some m := by
  intro c hc hinj
  apply hm
  apply h.live_of_holds hc
  rw [MsgPhase.injects_eq_holds hinj]
  exact Multiset.mem_singleton_self m

lemma MsgInv.goto (h : MsgInv s) (hc : c ∈ s.calls) (hinj : p.injects = (s.phase c).injects)
    (hholds : p.holds = (s.phase c).holds) (hrel : ∀ n, p.releases n = true → (s.phase c).releases n = true)
    (hfl : ∀ n, p.flushed false n = true → (s.node n).connected = false ∧ (s.node n).msgqueue = [])
    (hoob : ∀ n, p.flushed true n = true → (s.node n).oobmsgqueue = []) : MsgInv (s.goto c p) where
  shape := h.shape.goto hc (fun m hm => .inl (hinj ▸ hm)) hrel hfl hoob
  pool := by
    have hrefs := refs_goto hc p
    rw [hholds, add_left_inj] at hrefs
    rw [hrefs]
    exact h.pool

lemma MsgInv.setNode (h : MsgInv s) (hn : n ∈ s.live) (hcounters : node.Counters)
    (hfl : ∀ c ∈ s.calls, (s.phase c).flushed false n = true → node.connected = false ∧ node.msgqueue = [])
    (hoob : ∀ c ∈ s.calls, (s.phase c).flushed true n = true → node.oobmsgqueue = []) {pool : MsgPool}
    (hpool : ∀ refs, refs + (s.node n).pending = s.refs + node.pending → pool.Counts refs) :
    MsgInv { s.setNode n node with pool := pool } where
  shape := (h.shape.setNode hcounters hfl hoob).of_eq rfl rfl rfl rfl
  pool := hpool _ (refs_setNode hn node)

lemma MsgInv.setNode_same (h : MsgInv s) (hmsg : node.msgqueue = (s.node n).msgqueue)
    (hoob : node.oobmsgqueue = (s.node n).oobmsgqueue) (htot : node.totmsgcount = (s.node n).totmsgcount)
    (hoobcount : node.oobmsgcount = (s.node n).oobmsgcount)
    (hconnected : node.connected = true → (s.node n).connected = true) (hn : n ∈ s.live) : MsgInv (s.setNode n node) := by
  have hpending : node.pending = (s.node n).pending := by rw [MsgNode.pending, MsgNode.pending, hmsg, hoob]
  have hcounters := h.shape.counters n hn
  apply h.setNode hn
  · exact ⟨by rw [htot, hmsg, hoob, hcounters.tot], by rw [hoobcount, hoob, hcounters.oob]⟩
  · intro c hc hflushed
    obtain ⟨hoff, hempty⟩ := h.shape.flushed c hc n hflushed
    constructor
    · cases hcon : node.connected with
      | false => rfl
      | true => exact absurd (hconnected hcon) (by simp [hoff])
    · rw [hmsg, hempty]
  · intro c hc hflushed
    rw [hoob, h.shape.flushedOob c hc n hflushed]
  · intro refs hrefs
    rw [hpending, add_left_inj] at hrefs
    rw [hrefs]
    exact h.pool

/-! ## Deliveries and flushes -/

lemma ipnProtoSendmsg_cases (s : MsgState) (n m : Nat) (alloc : Bool) :
    ipnProtoSendmsg s n m alloc = s ∨ ipnProtoSendmsg s n m alloc = s.wild ∨
      n ∈ s.live ∧ s.takes n false alloc = true ∧ ipnProtoSendmsg s n m alloc =
        { s.setNode n { s.node n with
            totmsgcount := inc16 (s.node n).totmsgcount
            msgqueue := (s.node n).msgqueue ++ [m] } with
          pool := s.pool.hold m } := by
  unfold ipnProtoSendmsg
  by_cases hlive : n ∈ s.live
  · rw [if_neg (not_not.2 hlive)]
    dsimp only
    by_cases hnetdev : (s.node n).netdev = true
    · rw [if_pos hnetdev]
      exact .inl rfl
    rw [if_neg hnetdev]
    by_cases hshut : (s.node n).shutdown &&& RCV_SHUTDOWN = 0
    · rw [if_neg (not_not.2 hshut)]
      split_ifs with hipn htakes
      · exact .inr (.inl rfl)
      · refine .inr (.inr ⟨hlive, ?_, rfl⟩)
        simp only [MsgState.takes, Bool.false_eq_true, if_false]
        simpa [hnetdev, and_assoc] using ⟨hshut, htakes⟩
      · exact .inl rfl
    rw [if_pos hshut]
    exact .inl rfl
  rw [if_pos hlive]
  exact .inr (.inl rfl)

lemma ipnProtoOobsendmsg_cases (s : MsgState) (n m : Nat) (alloc : Bool) :
    ipnProtoOobsendmsg s n m alloc = s ∨ ipnProtoOobsendmsg s n m alloc = s.wild ∨
      n ∈ s.live ∧ s.takes n true alloc = true ∧ ipnProtoOobsendmsg s n m alloc =
        { s.setNode n { s.node n with
            totmsgcount := inc16 (s.node n).totmsgcount
            oobmsgcount := inc16 (s.node n).oobmsgcount
            oobmsgqueue := (s.node n).oobmsgqueue ++ [m] } with
          pool := s.pool.hold m } := by
  unfold ipnProtoOobsendmsg
  by_cases hlive : n ∈ s.live
  · rw [if_neg (not_not.2 hlive)]
    dsimp only
    by_cases hnetdev : (s.node n).netdev = true
    · rw [if_pos hnetdev]
      exact .inl rfl
    rw [if_neg hnetdev]
    by_cases hshut : (s.node n).shutdown &&& RCV_SHUTDOWN_NO_OOB = 0
    · rw [if_neg (not_not.2 hshut)]
      split_ifs with hipn htakes
      · exact .inr (.inl rfl)
      · refine .inr (.inr ⟨hlive, ?_, rfl⟩)
        simp only [MsgState.takes, if_true]
        simpa [hnetdev, and_assoc] using ⟨hshut, htakes⟩
      · exact .inl rfl
    rw [if_pos hshut]
    exact .inl rfl
  rw [if_pos hlive]
  exact .inr (.inl rfl)

lemma MsgInv.wild (h : MsgInv s) : MsgInv s.wild := ⟨h.shape.of_eq rfl rfl rfl rfl, h.pool⟩

section

variable (h : MsgInv s) (hm : m ∈ s.pool.live)

include h hm

lemma pool_delivered (hpending : node.pending = m ::ₘ (s.node n).pending) {refs : Multiset Nat}
    (hrefs : refs + (s.node n).pending = s.refs + node.pending) : (s.pool.hold m).Counts refs := by
  rw [hpending, Multiset.add_cons, ← Multiset.cons_add, add_left_inj] at hrefs
  rw [hrefs]
  exact h.pool.hold hm

lemma ipnProtoSendmsg_inv {alloc : Bool}
    (hok : s.takes n false alloc = true → ∀ c ∈ s.calls, (s.phase c).flushed false n = false) :
    MsgInv (ipnProtoSendmsg s n m alloc) := by
  cases ipnProtoSendmsg_cases s n m alloc with
  | inl hsame =>
    rw [hsame]
    exact h
  | inr hrest =>
    cases hrest with
    | inl hwild =>
      rw [hwild]
      exact h.wild
    | inr htaken =>
      obtain ⟨hn, htakes, heq⟩ := htaken
      have hcounters := h.shape.counters n hn
      rw [heq]
      apply h.setNode hn
      · constructor
        · dsimp only
          rw [hcounters.tot, inc16_mod, List.length_append, List.length_singleton, Nat.add_right_comm]
        · exact hcounters.oob
      · intro c hc hflushed
        rw [hok htakes c hc] at hflushed
        cases hflushed
      · intro c hc hflushed
        exact h.shape.flushedOob c hc n hflushed
      · intro refs hrefs
        apply pool_delivered h hm _ hrefs
        simp only [MsgNode.pending, Multiset.cons_coe, Multiset.coe_eq_coe]
        rw [List.append_assoc]
        exact List.perm_middle

lemma ipnProtoOobsendmsg_inv {alloc : Bool}
    (hok : s.takes n true alloc = true → ∀ c ∈ s.calls, (s.phase c).flushed true n = false) :
    MsgInv (ipnProtoOobsendmsg s n m alloc) := by
  cases ipnProtoOobsendmsg_cases s n m alloc with
  | inl hsame =>
    rw [hsame]
    exact h
  | inr hrest =>
    cases hrest with
    | inl hwild =>
      rw [hwild]
      exact h.wild
    | inr htaken =>
      obtain ⟨hn, htakes, heq⟩ := htaken
      have hcounters := h.shape.counters n hn
      rw [heq]
      apply h.setNode hn
      · constructor
        · dsimp only
          rw [hcounters.tot, inc16_mod, List.length_append, List.length_singleton, Nat.add_assoc]
        dsimp only
        rw [hcounters.oob, inc16_mod, List.length_append, List.length_singleton]
      · intro c hc hflushed
        exact h.shape.flushed c hc n hflushed
      · intro c hc hflushed
        rw [hok htakes c hc] at hflushed
        cases hflushed
      · intro refs hrefs
        apply pool_delivered h hm _ hrefs
        simp only [MsgNode.pending, Multiset.cons_coe, Multiset.coe_eq_coe]
        rw [← List.append_assoc]
        exact List.perm_append_singleton m _

end

lemma pool_flushed (h : MsgInv s) {l : List Nat} (hpending : (s.node n).pending = ↑l + node.pending)
    {refs : Multiset Nat} (hrefs : refs + (s.node n).pending = s.refs + node.pending) :
    (l.foldl RefPool.put s.pool).Counts refs := by
  apply RefPool.Counts.putAll
  rw [hpending, ← add_assoc, add_left_inj, add_comm] at hrefs
  rw [hrefs]
  exact h.pool

lemma ipnFlushRecvqueue_eq (hn : n ∈ s.live) : ipnFlushRecvqueue s n =
    { s.setNode n { s.node n with
        msgqueue := []
        totmsgcount := (s.node n).msgqueue.foldl (fun c _ => dec16 c) (s.node n).totmsgcount } with
      pool := (s.node n).msgqueue.foldl RefPool.put s.pool } := by
  unfold ipnFlushRecvqueue
  rw [if_neg (not_not.2 hn)]

lemma ipnFlushOobrecvqueue_eq (hn : n ∈ s.live) : ipnFlushOobrecvqueue s n =
    { s.setNode n { s.node n with
        oobmsgqueue := []
        totmsgcount := (s.node n).oobmsgqueue.foldl (fun c _ => dec16 c) (s.node n).totmsgcount
        oobmsgcount := (s.node n).oobmsgqueue.foldl (fun c _ => dec16 c) (s.node n).oobmsgcount } with
      pool := (s.node n).oobmsgqueue.foldl RefPool.put s.pool } := by
  unfold ipnFlushOobrecvqueue
  rw [if_neg (not_not.2 hn)]

lemma ipnFlushRecvqueue_inv (h : MsgInv s) (hn : n ∈ s.live) : MsgInv (ipnFlushRecvqueue s n) := by
  have hcounters := h.shape.counters n hn
  rw [ipnFlushRecvqueue_eq hn]
  apply h.setNode hn
  · constructor
    · dsimp only
      rw [hcounters.tot, Nat.add_comm, foldl_dec16, List.length_nil, Nat.zero_add]
    · exact hcounters.oob
  · intro c hc hflushed
    exact ⟨(h.shape.flushed c hc n hflushed).1, rfl⟩
  · intro c hc hflushed
    exact h.shape.flushedOob c hc n hflushed
  · intro refs hrefs
    apply pool_flushed h _ hrefs
    simp [MsgNode.pending]

lemma ipnFlushOobrecvqueue_inv (h : MsgInv s) (hn : n ∈ s.live) : MsgInv (ipnFlushOobrecvqueue s n) := by
  have hcounters := h.shape.counters n hn
  rw [ipnFlushOobrecvqueue_eq hn]
  apply h.setNode hn
  · constructor
    · dsimp only
      rw [hcounters.tot, foldl_dec16, List.length_nil, Nat.add_zero]
    dsimp only
    have hoob := foldl_dec16 (s.node n).oobmsgqueue 0
    rw [Nat.zero_add] at hoob
    rw [hcounters.oob, hoob, List.length_nil]
  · intro c hc hflushed
    exact h.shape.flushed c hc n hflushed
  · intro c hc _
    rfl
  · intro refs hrefs
    apply pool_flushed h _ hrefs
    simp only [MsgNode.pending, List.append_nil, Multiset.coe_add, Multiset.coe_eq_coe]
    exact List.perm_append_comm

lemma ipnNodeRead_cases {node' : MsgNode} (h : ipnNodeRead node = some (m, node')) (hcounters : node.Counters) :
    node.pending = m ::ₘ node'.pending ∧ node'.Counters ∧ node'.connected = node.connected ∧
    (node.msgqueue = [] → node'.msgqueue = []) ∧ (node.oobmsgqueue = [] → node'.oobmsgqueue = []) := by
  have htot := hcounters.tot
  have hoobcount := hcounters.oob
  unfold ipnNodeRead at h
  split_ifs at h
  cases hoob : node.oobmsgqueue with
  | cons a rest =>
    simp only [hoob, some.injEq, Prod.mk.injEq] at h
    obtain ⟨ha, hnode⟩ := h
    rw [hoob, List.length_cons] at htot hoobcount
    subst ha hnode
    refine ⟨?_, ⟨?_, ?_⟩, rfl, id, fun hnil => absurd hnil (by simp)⟩
    · simp only [MsgNode.pending, hoob, Multiset.cons_coe, Multiset.coe_eq_coe]
      exact List.perm_middle
    · dsimp only
      rw [htot, ← Nat.add_assoc, dec16_mod]
    dsimp only
    rw [hoobcount, dec16_mod]
  | nil =>
    cases hmsg : node.msgqueue with
    | nil => simp [hoob, hmsg] at h
    | cons a rest =>
      simp only [hoob, hmsg, some.injEq, Prod.mk.injEq] at h
      obtain ⟨ha, hnode⟩ := h
      rw [hmsg, hoob, List.length_cons] at htot
      subst ha hnode
      refine ⟨?_, ⟨?_, ?_⟩, rfl, fun hnil => absurd hnil (by simp), fun _ => rfl⟩
      · simp [MsgNode.pending, hmsg, hoob]
      · dsimp only
        rw [htot, Nat.add_right_comm, dec16_mod]
      dsimp only
      rw [hcounters.oob, hoob]

/-! ## Steps -/

lemma MsgInv.of_eq {s' : MsgState} (h : MsgInv s) (hlive : s'.live = s.live) (hnode : s'.node = s.node)
    (hcalls : s'.calls = s.calls) (hphase : s'.phase = s.phase) (hpool : s'.pool = s.pool) : MsgInv s' where
  shape := h.shape.of_eq hlive hnode hcalls hphase
  pool := by
    have hrefs : s'.refs = s.refs := by rw [MsgState.refs, MsgState.refs, hlive, hnode, hcalls, hphase]
    rw [hpool, hrefs]
    exact h.pool

lemma MsgPhase.not_flushed (hplain : ∀ n, p.releases n = false) (oob : Bool) (n : Nat) : p.flushed oob n = false := by
  cases hflushed : p.flushed oob n with
  | false => rfl
  | true =>
    have hreleases := MsgPhase.releases_of_flushed hflushed
    rw [hplain n] at hreleases
    cases hreleases

lemma MsgInv.goto_plain {q : MsgPhase} (h : MsgInv s) (hc : s.In c q) (hinj : p.injects = q.injects)
    (hholds : p.holds = q.holds) (hplain : ∀ n, p.releases n = false) : MsgInv (s.goto c p) := by
  apply h.goto hc.1
  · rw [hinj, hc.2]
  · rw [hholds, hc.2]
  · intro n hn
    rw [hplain n] at hn
    cases hn
  · intro n hn
    rw [MsgPhase.not_flushed hplain] at hn
    cases hn
  · intro n hn
    rw [MsgPhase.not_flushed hplain] at hn
    cases hn

lemma MsgInv.drop {q : MsgPhase} (h : MsgInv s) (hc : s.In c q) (hholds : q.holds = {m}) :
    MsgInv { s.leave c with pool := s.pool.put m } where
  shape := (h.shape.leave c).of_eq rfl rfl rfl rfl
  pool := by
    apply RefPool.Counts.put
    have hrefs := refs_leave hc.1
    rw [hc.2, hholds, add_comm, Multiset.singleton_add] at hrefs
    have hsame : ({ s.leave c with pool := s.pool.put m } : MsgState).refs = (s.leave c).refs := rfl
    rw [hsame, hrefs]
    exact h.pool

lemma write_inv (h : MsgInv s) (hc : c ∉ s.calls) (hm : m ∉ s.pool.live) :
    MsgInv { s.enter c (.write m) with pool := s.pool.alloc m } where
  shape := by
    have hshape : MsgShape (s.enter c (.write m)) := by
      apply h.shape.enter hc
      · intro m' hm'
        rw [← some.inj hm']
        exact h.not_injects hm
      · intro n hn
        cases hn
      · exact MsgPhase.not_flushed fun _ => rfl
    exact hshape.of_eq rfl rfl rfl rfl
  pool := by
    have hrefs : ({ s.enter c (.write m) with pool := s.pool.alloc m } : MsgState).refs = m ::ₘ s.refs := by
      rw [← Multiset.singleton_add]
      exact refs_enter hc (.write m)
    rw [hrefs]
    exact h.pool.alloc hm

lemma read_inv {node' : MsgNode} (h : MsgInv s) (hc : c ∉ s.calls) (hn : n ∈ s.live)
    (hread : ipnNodeRead (s.node n) = some (m, node')) : MsgInv ((s.setNode n node').enter c (.read m)) where
  shape := by
    obtain ⟨_, hcounters, hconnected, hmsg, hoob⟩ := ipnNodeRead_cases hread (h.shape.counters n hn)
    have hnode : MsgShape (s.setNode n node') := by
      apply h.shape.setNode hcounters
      · intro c' hc' hflushed
        obtain ⟨hoff, hempty⟩ := h.shape.flushed c' hc' n hflushed
        exact ⟨hconnected.trans hoff, hmsg hempty⟩
      intro c' hc' hflushed
      exact hoob (h.shape.flushedOob c' hc' n hflushed)
    apply hnode.enter hc
    · intro m' hm'
      exact absurd hm' (some_ne_none m').symm
    · intro n' hn'
      cases hn'
    · exact MsgPhase.not_flushed fun _ => rfl
  pool := by
    obtain ⟨hpending, _⟩ := ipnNodeRead_cases hread (h.shape.counters n hn)
    have hrefs := refs_setNode hn node'
    rw [hpending, Multiset.add_cons, ← Multiset.cons_add, add_left_inj] at hrefs
    have hc' : c ∉ (s.setNode n node').calls := hc
    have hholds : (MsgPhase.read m).holds = {m} := rfl
    rw [refs_enter hc', hholds, Multiset.singleton_add, hrefs]
    exact h.pool

lemma MsgInv.lock {ch : Change} (h : MsgInv s) (hc : c ∉ s.calls)
    (hrel : ∀ n, (MsgPhase.change ch none).releases n = true → n ∈ s.live ∧ ∀ c' ∈ s.calls, (s.phase c').releases n = false)
    (hfl : ∀ oob n, (MsgPhase.change ch none).flushed oob n = false) : MsgInv (s.enter c (.change ch none)) where
  shape := by
    apply h.shape.enter hc
    · intro m hm
      exact absurd hm (some_ne_none m).symm
    · exact hrel
    · exact hfl
  pool := by
    have hholds : (MsgPhase.change ch none).holds = 0 := rfl
    rw [refs_enter hc, hholds, zero_add]
    exact h.pool

lemma MsgInv.insert (h : MsgInv s) (hn : n ∉ s.live) (hmsg : node.msgqueue = []) (hoob : node.oobmsgqueue = [])
    (htot : node.totmsgcount = 0) (hoobcount : node.oobmsgcount = 0) :
    MsgInv { s.setNode n node with live := insert n s.live } := by
  have hself : (s.setNode n node).node n = node := by simp
  have hother : ∀ n' ∈ s.live, (s.setNode n node).node n' = s.node n' := by
    intro n' hn'
    have hne : n' ≠ n := fun heq => hn (by rwa [heq] at hn')
    simp [hne]
  have hreleased : ∀ c ∈ s.calls, ∀ {oob n'}, (s.phase c).flushed oob n' = true → n' ∈ s.live :=
    fun c hc _ n' hn' => h.shape.releases c hc n' (MsgPhase.releases_of_flushed hn')
  constructor
  · constructor
    · intro n' hn'
      cases mem_insert.1 hn' with
      | inl heq =>
        rw [heq]
        dsimp only
        rw [hself]
        exact ⟨by rw [htot, hmsg, hoob]; rfl, by rw [hoobcount, hoob]; rfl⟩
      | inr hold =>
        dsimp only
        rw [hother n' hold]
        exact h.shape.counters n' hold
    · exact h.shape.injects
    · intro c hc n' hn'
      exact mem_insert_of_mem (h.shape.releases c hc n' hn')
    · exact h.shape.single
    · intro c hc n' hn'
      dsimp only
      rw [hother n' (hreleased c hc hn')]
      exact h.shape.flushed c hc n' hn'
    · intro c hc n' hn'
      dsimp only
      rw [hother n' (hreleased c hc hn')]
      exact h.shape.flushedOob c hc n' hn'
  have hrefs : ({ s.setNode n node with live := Insert.insert n s.live } : MsgState).refs = s.refs := by
    have hsum : ∑ j ∈ s.live, ((s.setNode n node).node j).pending = ∑ j ∈ s.live, (s.node j).pending := by
      apply sum_congr rfl
      intro j hj
      rw [hother j hj]
    have hempty : node.pending = 0 := by rw [MsgNode.pending, hmsg, hoob]; rfl
    simp only [MsgState.refs]
    rw [sum_insert hn, hsum, hself, hempty, zero_add]
    rfl
  rw [hrefs]
  exact h.pool

@[simp] lemma releases_change (ch : Change) (m n : Nat) :
    (MsgPhase.change ch (some m)).releases n = (MsgPhase.change ch none).releases n := by
  cases ch <;> rfl

@[simp] lemma flushed_change (ch : Change) (m n : Nat) (oob : Bool) :
    (MsgPhase.change ch (some m)).flushed oob n = (MsgPhase.change ch none).flushed oob n := by
  cases ch <;> rfl

lemma countAlloc_inv (h : MsgInv s) (hc : s.In c (.change ch none)) (hm : m ∉ s.pool.live) :
    MsgInv { s.goto c (.change ch (some m)) with pool := s.pool.alloc m } where
  shape := by
    have hshape : MsgShape (s.goto c (.change ch (some m))) := by
      apply h.shape.goto hc.1
      · intro m' hm'
        rw [← some.inj hm']
        exact .inr (h.not_injects hm)
      · intro n hn
        rw [releases_change] at hn
        rwa [hc.2]
      · intro n hn
        rw [flushed_change] at hn
        apply h.shape.flushed c hc.1 n
        rwa [hc.2]
      · intro n hn
        rw [flushed_change] at hn
        apply h.shape.flushedOob c hc.1 n
        rwa [hc.2]
    exact hshape.of_eq rfl rfl rfl rfl
  pool := by
    have hrefs := refs_goto hc.1 (.change ch (some m))
    have hnone : (MsgPhase.change ch none).holds = 0 := rfl
    have hsome : (MsgPhase.change ch (some m)).holds = {m} := rfl
    rw [hc.2, hnone, hsome, add_zero, add_comm, Multiset.singleton_add] at hrefs
    have hsame : ({ s.goto c (.change ch (some m)) with pool := s.pool.alloc m } : MsgState).refs =
        (s.goto c (.change ch (some m))).refs := rfl
    rw [hsame, hrefs]
    exact h.pool.alloc hm

lemma countPut_inv (h : MsgInv s) (hc : s.In c (.change ch (some m))) :
    MsgInv { s.goto c (.change ch none) with pool := s.pool.put m } where
  shape := by
    have hshape : MsgShape (s.goto c (.change ch none)) := by
      apply h.shape.goto hc.1
      · intro m' hm'
        exact absurd hm' (some_ne_none m').symm
      · intro n hn
        rwa [hc.2, releases_change]
      · intro n hn
        apply h.shape.flushed c hc.1 n
        rwa [hc.2, flushed_change]
      · intro n hn
        apply h.shape.flushedOob c hc.1 n
        rwa [hc.2, flushed_change]
    exact hshape.of_eq rfl rfl rfl rfl
  pool := by
    apply RefPool.Counts.put
    have hrefs := refs_goto hc.1 (.change ch none)
    have hnone : (MsgPhase.change ch none).holds = 0 := rfl
    have hsome : (MsgPhase.change ch (some m)).holds = {m} := rfl
    rw [hc.2, hnone, hsome, add_zero, add_comm, Multiset.singleton_add] at hrefs
    have hsame : ({ s.goto c (.change ch none) with pool := s.pool.put m } : MsgState).refs =
        (s.goto c (.change ch none)).refs := rfl
    rw [hsame, hrefs]
    exact h.pool

lemma MsgState.SameCalls.refl (s : MsgState) : s.SameCalls s := ⟨rfl, rfl, rfl, rfl⟩

lemma ipnProtoSendmsg_calls (s : MsgState) (n m : Nat) (alloc : Bool) : s.SameCalls (ipnProtoSendmsg s n m alloc) := by
  have hcases := ipnProtoSendmsg_cases s n m alloc
  rcases hcases with hsame | hwild | ⟨_, _, htaken⟩
  · rw [hsame]
    exact .refl s
  · rw [hwild]
    exact ⟨rfl, rfl, rfl, rfl⟩
  rw [htaken]
  exact ⟨rfl, rfl, rfl, rfl⟩

lemma ipnProtoOobsendmsg_calls (s : MsgState) (n m : Nat) (alloc : Bool) :
    s.SameCalls (ipnProtoOobsendmsg s n m alloc) := by
  have hcases := ipnProtoOobsendmsg_cases s n m alloc
  rcases hcases with hsame | hwild | ⟨_, _, htaken⟩
  · rw [hsame]
    exact .refl s
  · rw [hwild]
    exact ⟨rfl, rfl, rfl, rfl⟩
  rw [htaken]
  exact ⟨rfl, rfl, rfl, rfl⟩

lemma MsgState.In.same {s' : MsgState} (hc : s.In c p) (h : s.SameCalls s') : s'.In c p := by
  rw [MsgState.In, h.calls, h.phase]
  exact hc

lemma send_inv {nested : Bool} (h : MsgInv s) (hc : s.In c (.handle m (some n) nested)) (oob alloc : Bool)
    (hok : s.takes n oob alloc = true → ∀ c' ∈ s.calls, (s.phase c').flushed oob n = false) :
    MsgInv ((if oob then ipnProtoOobsendmsg s n m alloc else ipnProtoSendmsg s n m alloc).goto c
      (.handle m none nested)) := by
  have hm : m ∈ s.pool.live := by
    apply h.live_of_holds hc.1
    rw [hc.2]
    exact Multiset.mem_singleton_self m
  have hplain : ∀ n', (MsgPhase.handle m none nested).releases n' = false := fun _ => rfl
  cases oob with
  | true =>
    rw [if_pos rfl]
    have hin := hc.same (ipnProtoOobsendmsg_calls s n m alloc)
    exact (ipnProtoOobsendmsg_inv h hm hok).goto_plain hin rfl rfl hplain
  | false =>
    rw [if_neg Bool.false_ne_true]
    have hin := hc.same (ipnProtoSendmsg_calls s n m alloc)
    exact (ipnProtoSendmsg_inv h hm hok).goto_plain hin rfl rfl hplain

lemma countSend_inv (h : MsgInv s) (hc : s.In c (.change ch (some m)))
    (hconnected : (s.node n).connected = true) (alloc : Bool) : MsgInv (ipnProtoOobsendmsg s n m alloc) := by
  apply ipnProtoOobsendmsg_inv h
  · apply h.live_of_holds hc.1
    rw [hc.2]
    exact Multiset.mem_singleton_self m
  intro _ c' hc'
  cases hflushed : (s.phase c').flushed true n with
  | false => rfl
  | true =>
    have hfirst := MsgPhase.flushed_of_flushed_oob hflushed
    have hoff := (h.shape.flushed c' hc' n hfirst).1
    rw [hconnected] at hoff
    cases hoff

lemma MsgInv.release_goto {stage : Stage} (h : MsgInv s) (hc : s.In c (.change (.release n stage) none))
    (hinj : p.injects = none) (hholds : p.holds = 0) (hrel : ∀ n', p.releases n' = true → n = n')
    (hfl : p.flushed false n = true → (s.node n).connected = false ∧ (s.node n).msgqueue = [])
    (hoob : p.flushed true n = true → (s.node n).oobmsgqueue = []) : MsgInv (s.goto c p) := by
  have hsame : ∀ {oob n'}, p.flushed oob n' = true → n = n' := fun hflushed => hrel _ (MsgPhase.releases_of_flushed hflushed)
  apply h.goto hc.1
  · rw [hinj, hc.2]
    rfl
  · rw [hholds, hc.2]
    rfl
  · intro n' hn'
    rw [hc.2]
    exact decide_eq_true (hrel n' hn')
  · intro n' hn'
    have heq := hsame hn'
    subst heq
    exact hfl hn'
  · intro n' hn'
    have heq := hsame hn'
    subst heq
    exact hoob hn'

lemma flush_inv (h : MsgInv s) (hc : s.In c (.change ch none)) : MsgInv (changeStep s c ch) := by
  cases ch with
  | connect => exact h
  | shutdown n =>
    rw [changeStep]
    by_cases hshut : (s.node n).shutdown &&& RCV_SHUTDOWN = 0
    · rw [if_neg (not_not.2 hshut)]
      exact h
    rw [if_pos hshut]
    by_cases hn : n ∈ s.live
    · exact ipnFlushRecvqueue_inv h hn
    rw [ipnFlushRecvqueue, if_pos hn]
    exact h.wild
  | release n stage =>
    have hn : n ∈ s.live := by
      apply h.shape.releases c hc.1
      rw [hc.2]
      exact decide_eq_true rfl
    have hrel : ∀ stage' n', (MsgPhase.change (.release n stage') none).releases n' = true → n = n' :=
      fun _ _ hreleases => of_decide_eq_true hreleases
    cases stage with
    | begin =>
      have hoff : MsgInv (s.setNode n { s.node n with connected := false }) :=
        h.setNode_same rfl rfl rfl rfl (fun hfalse => Bool.noConfusion hfalse) hn
      have hempty := ipnFlushRecvqueue_inv hoff hn
      have heq := @ipnFlushRecvqueue_eq (s.setNode n { s.node n with connected := false }) n hn
      rw [changeStep]
      rw [heq] at hempty ⊢
      apply @MsgInv.release_goto _ n c _ .begin hempty hc rfl rfl (hrel _)
      · intro _
        simp
      intro hflushed
      simp [MsgPhase.flushed] at hflushed
    | flushed =>
      have hempty := ipnFlushOobrecvqueue_inv h hn
      have hfirst : (s.phase c).flushed false n = true := by
        rw [hc.2]
        simp [MsgPhase.flushed]
      rw [changeStep]
      rw [ipnFlushOobrecvqueue_eq hn] at hempty ⊢
      apply @MsgInv.release_goto _ n c _ .flushed hempty hc rfl rfl (hrel _)
      · intro _
        simpa using h.shape.flushed c hc.1 n hfirst
      intro _
      simp
    | flushedOob =>
      have hgone : MsgInv (s.setNode n { s.node n with ipn := false }) := h.setNode_same rfl rfl rfl rfl id hn
      have hboth : (s.phase c).flushed true n = true := by
        rw [hc.2]
        simp [MsgPhase.flushed]
      rw [changeStep]
      apply @MsgInv.release_goto _ n c _ .flushedOob hgone hc rfl rfl (hrel _)
      · intro _
        simpa using h.shape.flushed c hc.1 n (MsgPhase.flushed_of_flushed_oob hboth)
      intro _
      simpa using h.shape.flushedOob c hc.1 n hboth
    | detached => exact h

lemma upChange_inv (h : MsgInv s) (hc : s.In c (.change ch none))
    (hend : ∀ n stage, ch = .release n stage → stage = .detached) : MsgInv (upChange s c ch) := by
  have hleave : MsgInv { s.leave c with ipnnMutex := none } := by
    have hrefs := refs_leave hc.1
    rw [hc.2] at hrefs
    have hinv : MsgInv (s.leave c) := ⟨h.shape.leave c, by
      rw [← add_zero (s.leave c).refs]
      exact hrefs ▸ h.pool⟩
    exact hinv.of_eq rfl rfl rfl rfl rfl
  cases ch with
  | connect => exact hleave
  | shutdown n => exact hleave
  | release n stage =>
    have hdetached := hend n stage rfl
    subst hdetached
    have hn : n ∈ s.live := by
      apply h.shape.releases c hc.1
      rw [hc.2]
      exact decide_eq_true rfl
    have hboth : (s.phase c).flushed true n = true := by
      rw [hc.2]
      simp [MsgPhase.flushed]
    have hshut : MsgInv (s.setNode n { s.node n with shutdown := SHUTDOWN_XMASK }) :=
      h.setNode_same rfl rfl rfl rfl id hn
    have hfree : MsgInv ((s.setNode n { s.node n with shutdown := SHUTDOWN_XMASK }).goto c (.free n)) := by
      apply @MsgInv.release_goto _ n c _ .detached hshut hc rfl rfl
      · intro n' hreleases
        exact of_decide_eq_true hreleases
      · intro _
        simpa using h.shape.flushed c hc.1 n (MsgPhase.flushed_of_flushed_oob hboth)
      intro _
      simpa using h.shape.flushedOob c hc.1 n hboth
    exact hfree.of_eq rfl rfl rfl rfl rfl

lemma freeNode_inv (h : MsgInv s) (hc : s.In c (.free n)) : MsgInv { s.leave c with live := s.live.erase n } := by
  have hreleases : (s.phase c).releases n = true := by
    rw [hc.2]
    exact decide_eq_true rfl
  have hboth : (s.phase c).flushed true n = true := by
    rw [hc.2]
    exact decide_eq_true rfl
  have hn := h.shape.releases c hc.1 n hreleases
  have hempty : (s.node n).pending = 0 := by
    rw [MsgNode.pending, (h.shape.flushed c hc.1 n (MsgPhase.flushed_of_flushed_oob hboth)).2,
      h.shape.flushedOob c hc.1 n hboth]
    rfl
  constructor
  · constructor
    · intro n' hn'
      exact h.shape.counters n' (mem_of_mem_erase hn')
    · exact (h.shape.leave c).injects
    · intro c' hc' n' hn'
      obtain ⟨hne, hold⟩ := mem_erase.1 hc'
      apply mem_erase.2
      constructor
      · intro heq
        rw [heq] at hn'
        exact hne (h.shape.single c' hold c hc.1 n hn' hreleases)
      · exact h.shape.releases c' hold n' hn'
    · exact (h.shape.leave c).single
    · exact (h.shape.leave c).flushed
    · exact (h.shape.leave c).flushedOob
  have hrefs : ({ s.leave c with live := s.live.erase n } : MsgState).refs = s.refs := by
    have hnodes := add_sum_erase s.live (fun j => (s.node j).pending) hn
    have hcalls := add_sum_erase s.calls (fun j => (s.phase j).holds) hc.1
    have hnone : (s.phase c).holds = 0 := by
      rw [hc.2]
      rfl
    rw [hempty, zero_add] at hnodes
    rw [hnone, zero_add] at hcalls
    simp only [MsgState.refs, MsgState.leave]
    rw [hnodes, hcalls]
  rw [hrefs]
  exact h.pool

lemma lockConnect_inv (h : MsgInv s) (hc : c ∉ s.calls) (hn : n ∉ s.live) (hmsg : node.msgqueue = [])
    (hoob : node.oobmsgqueue = []) (htot : node.totmsgcount = 0) (hoobcount : node.oobmsgcount = 0) (mutex : Option Nat) :
    MsgInv { (s.setNode n node).enter c (.change .connect none) with live := insert n s.live, ipnnMutex := mutex } := by
  have hnode := h.insert hn hmsg hoob htot hoobcount
  have hchange := @MsgInv.lock _ c .connect hnode hc (fun _ hfalse => Bool.noConfusion hfalse) (fun _ _ => rfl)
  exact hchange.of_eq rfl rfl rfl rfl rfl

lemma msgStep_inv {e : MsgEvent} (h : MsgInv s) (he : e.Legal s) (hok : MsgOk s e) : MsgInv (msgStep s e) := by
  cases e with
  | write c m => exact write_inv h he.1 he.2
  | copy c ok =>
    obtain ⟨m, hc⟩ := he
    simp only [msgStep, hc.2]
    cases ok with
    | true => exact h.goto_plain hc rfl rfl fun _ => rfl
    | false => exact h.goto_plain hc rfl rfl fun _ => rfl
  | test c =>
    obtain ⟨m, hc⟩ := he
    simp only [msgStep, hc.2]
    split_ifs
    · exact h.goto_plain hc rfl rfl fun _ => rfl
    · exact h.goto_plain hc rfl rfl fun _ => rfl
  | down c got =>
    obtain ⟨⟨m, hc⟩, _⟩ := he
    simp only [msgStep, hc.2]
    split_ifs
    · have hgot : MsgInv (s.goto c (.locked m)) := h.goto_plain hc rfl rfl fun _ => rfl
      exact hgot.of_eq rfl rfl rfl rfl rfl
    · exact h.goto_plain hc rfl rfl fun _ => rfl
  | set c =>
    obtain ⟨m, hc⟩ := he
    simp only [msgStep, hc.2]
    have hset : MsgInv (s.goto c (.handle m none false)) := h.goto_plain hc rfl rfl fun _ => rfl
    exact hset.of_eq rfl rfl rfl rfl rfl
  | pick c n =>
    obtain ⟨⟨m, nested, hc⟩, _⟩ := he
    simp only [msgStep, hc.2]
    exact h.goto_plain hc rfl rfl fun _ => rfl
  | send c oob alloc =>
    obtain ⟨m, n, nested, hc⟩ := he
    simp only [msgStep, hc.2]
    exact send_inv h hc oob alloc (hok m n nested hc.2).2
  | clear c =>
    obtain ⟨m, hc⟩ := he
    simp only [msgStep, hc.2]
    have hclear : MsgInv (s.goto c (.cleared m)) := h.goto_plain hc rfl rfl fun _ => rfl
    exact hclear.of_eq rfl rfl rfl rfl rfl
  | up c =>
    obtain ⟨m, hc⟩ := he
    simp only [msgStep, hc.2]
    have hup : MsgInv (s.goto c (.put m)) := h.goto_plain hc rfl rfl fun _ => rfl
    exact hup.of_eq rfl rfl rfl rfl rfl
  | handled c =>
    obtain ⟨m, hc⟩ := he
    simp only [msgStep, hc.2]
    exact h.goto_plain hc rfl rfl fun _ => rfl
  | put c =>
    obtain ⟨m, hc⟩ := he
    simp only [msgStep, hc.2]
    exact h.drop hc rfl
  | read c n =>
    obtain ⟨hc, hn, hsome⟩ := he
    obtain ⟨⟨m, node⟩, hread⟩ := isSome_iff_exists.1 hsome
    simp only [msgStep, hread]
    exact read_inv h hc hn hread
  | consume c =>
    obtain ⟨m, hc⟩ := he
    simp only [msgStep, hc.2]
    exact h.drop hc rfl
  | setShutdown n shutdown => exact h.setNode_same rfl rfl rfl rfl id he
  | lockConnect c n netdev oobNumnodes shutdown => exact lockConnect_inv h he.1.1 he.2 rfl rfl rfl rfl (some c)
  | lockShutdown c n =>
    obtain ⟨hfree, _⟩ := he
    have hlock : MsgInv (s.enter c (.change (.shutdown n) none)) :=
      h.lock hfree.1 (fun _ hfalse => Bool.noConfusion hfalse) (fun _ _ => rfl)
    exact hlock.of_eq rfl rfl rfl rfl rfl
  | lockRelease c n =>
    obtain ⟨hfree, hn, hnone⟩ := he
    have hlock : MsgInv (s.enter c (.change (.release n .begin) none)) := by
      apply h.lock hfree.1
      · intro n' hn'
        have heq : n = n' := of_decide_eq_true hn'
        subst heq
        exact ⟨hn, hnone⟩
      intro oob n'
      simp [MsgPhase.flushed]
    exact hlock.of_eq rfl rfl rfl rfl rfl
  | countAlloc c m =>
    obtain ⟨⟨ch, hc, _⟩, hm⟩ := he
    simp only [msgStep, hc.2]
    exact countAlloc_inv h hc hm
  | countSend c n alloc =>
    obtain ⟨⟨ch, m, hc⟩, _, hconnected, _⟩ := he
    simp only [msgStep, hc.2]
    exact countSend_inv h hc hconnected alloc
  | countPut c =>
    obtain ⟨ch, m, hc⟩ := he
    simp only [msgStep, hc.2]
    exact countPut_inv h hc
  | flush c =>
    obtain ⟨ch, hc⟩ := he
    simp only [msgStep, hc.2]
    exact flush_inv h hc
  | upChange c =>
    obtain ⟨ch, hc, hend⟩ := he
    simp only [msgStep, hc.2]
    exact upChange_inv h hc hend
  | freeNode c =>
    obtain ⟨n, hc⟩ := he
    simp only [msgStep, hc.2]
    exact freeNode_inv h hc
  | other recinject => exact h.of_eq rfl rfl rfl rfl rfl

end

lemma msgInv_init (lossless : Bool) (msgpoolSize : Nat) : MsgInv (msgInit lossless msgpoolSize) where
  shape := {
    counters := fun _ hn => absurd hn (notMem_empty _)
    injects := fun _ hc => absurd hc (notMem_empty _)
    releases := fun _ hc => absurd hc (notMem_empty _)
    single := fun _ hc => absurd hc (notMem_empty _)
    flushed := fun _ hc => absurd hc (notMem_empty _)
    flushedOob := fun _ hc => absurd hc (notMem_empty _) }
  pool := RefPool.counts_empty

/-- The accounts are right at any time, as long as no message is given to a node whose queue was flushed for its
release. -/
theorem accounts_right (lossless : Bool) (msgpoolSize : Nat) (es : List MsgEvent)
    (hes : msgMachine.Along msgMachine.enabled (msgInit lossless msgpoolSize) es)
    (hok : msgMachine.Along MsgOk (msgInit lossless msgpoolSize) es) :
    msgMachine.Always (fun s => FewPending s → AccountsRight s) (msgInit lossless msgpoolSize) es := by
  apply Machine.Along.always MsgInv _ _ (msgInv_init lossless msgpoolSize) (hes.and hok)
  · exact fun s hs => hs.accounts
  intro s e hs he
  exact msgStep_inv hs he.1.2 he.2

def oneMessageRun : List MsgEvent :=
  [.lockConnect 0 1 false false 0, .upChange 0, .lockConnect 0 2 false false 0, .upChange 0,
   .write 3 7, .copy 3 true, .test 3, .down 3 true, .set 3, .pick 3 2, .send 3 false true, .clear 3, .up 3, .put 3,
   .read 4 2, .consume 4]

theorem accounts_right_oneMessage :
    msgMachine.Always (fun s => FewPending s → AccountsRight s) (msgInit false 8) oneMessageRun := by
  apply accounts_right
  · exact ⟨⟨rfl, ⟨by decide, rfl⟩, by decide⟩, ⟨rfl, .connect, ⟨by decide, rfl⟩, fun _ _ h => Change.noConfusion h⟩,
      ⟨rfl, ⟨by decide, rfl⟩, by decide⟩, ⟨rfl, .connect, ⟨by decide, rfl⟩, fun _ _ h => Change.noConfusion h⟩,
      ⟨rfl, by decide, by decide⟩, ⟨rfl, 7, by decide, rfl⟩, ⟨rfl, 7, by decide, rfl⟩,
      ⟨rfl, ⟨7, by decide, rfl⟩, fun _ => rfl⟩, ⟨rfl, 7, by decide, rfl⟩,
      ⟨rfl, ⟨7, false, by decide, rfl⟩, by decide, rfl⟩, ⟨rfl, 7, 2, false, by decide, rfl⟩, ⟨rfl, 7, by decide, rfl⟩,
      ⟨rfl, 7, by decide, rfl⟩, ⟨rfl, 7, by decide, rfl⟩, ⟨rfl, by decide, by decide, by decide⟩,
      ⟨rfl, 7, by decide, rfl⟩, trivial⟩
  refine ⟨trivial, trivial, trivial, trivial, trivial, trivial, trivial, trivial, trivial, trivial, ?_, trivial,
    trivial, trivial, trivial, trivial, trivial⟩
  intro m n nested h
  have heq : MsgPhase.handle 7 (some 2) false = .handle m (some n) nested := h
  cases heq
  exact ⟨by decide, fun _ => by decide⟩

/-- A call goes on with its injection because another one has set the flag, and that one ends. The recipient is
released, and gets the message between the flush of its queue and its end. -/
def lostItemRun : List MsgEvent :=
  [.lockConnect 0 1 false false 0, .upChange 0, .lockConnect 0 2 false false 0, .upChange 0,
   .write 3 7, .copy 3 true, .test 3, .down 3 true, .set 3,
   .write 4 8, .copy 4 true, .test 4, .pick 4 1, .clear 3, .up 3, .put 3,
   .lockRelease 5 1, .flush 5, .send 4 false true, .flush 5, .flush 5, .upChange 5, .freeNode 5, .handled 4, .put 4]

/-- The message stays, with no item. -/
theorem lost_item_counted : ¬∀ lossless msgpoolSize es,
    msgMachine.Along msgMachine.enabled (msgInit lossless msgpoolSize) es →
    msgMachine.Always (fun s => FewPending s → AccountsRight s) (msgInit lossless msgpoolSize) es := by
  intro h
  have hes : msgMachine.Along msgMachine.enabled (msgInit true 8) lostItemRun :=
    ⟨⟨rfl, ⟨by decide, rfl⟩, by decide⟩, ⟨rfl, .connect, ⟨by decide, rfl⟩, fun _ _ h => Change.noConfusion h⟩,
      ⟨rfl, ⟨by decide, rfl⟩, by decide⟩, ⟨rfl, .connect, ⟨by decide, rfl⟩, fun _ _ h => Change.noConfusion h⟩,
      ⟨rfl, by decide, by decide⟩, ⟨rfl, 7, by decide, rfl⟩, ⟨rfl, 7, by decide, rfl⟩,
      ⟨rfl, ⟨7, by decide, rfl⟩, fun _ => rfl⟩, ⟨rfl, 7, by decide, rfl⟩,
      ⟨rfl, by decide, by decide⟩, ⟨rfl, 8, by decide, rfl⟩, ⟨rfl, 8, by decide, rfl⟩,
      ⟨rfl, ⟨8, true, by decide, rfl⟩, by decide, rfl⟩,
      ⟨rfl, 7, by decide, rfl⟩, ⟨rfl, 7, by decide, rfl⟩, ⟨rfl, 7, by decide, rfl⟩,
      ⟨rfl, ⟨by decide, rfl⟩, by decide, by decide⟩, ⟨rfl, .release 1 .begin, by decide, rfl⟩,
      ⟨rfl, 8, 1, true, by decide, rfl⟩, ⟨rfl, .release 1 .flushed, by decide, rfl⟩,
      ⟨rfl, .release 1 .flushedOob, by decide, rfl⟩,
      ⟨rfl, .release 1 .detached, ⟨by decide, rfl⟩, fun _ _ h => by cases h; rfl⟩,
      ⟨rfl, 1, by decide, rfl⟩, ⟨rfl, 8, by decide, rfl⟩, ⟨rfl, 8, by decide, rfl⟩, trivial⟩
  have hlast := (h true 8 lostItemRun hes).last
  have hfew : FewPending (msgMachine.run (msgInit true 8) lostItemRun) := by
    intro n hn
    have hlive : (msgMachine.run (msgInit true 8) lostItemRun).live = {2} := by decide
    rw [hlive] at hn
    have heq := mem_singleton.1 hn
    subst heq
    decide
  have hnone : ¬(msgMachine.run (msgInit true 8) lostItemRun).Injecting 8 := by
    rintro ⟨c, hc, _⟩
    have hcalls : (msgMachine.run (msgInit true 8) lostItemRun).calls = ∅ := by decide
    rw [hcalls] at hc
    exact notMem_empty c hc
  have hcount := (hlast hfew).count 8 (by decide) hnone
  exact absurd hcount (by decide)

end Vde.Ipn
