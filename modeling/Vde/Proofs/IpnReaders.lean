import Mathlib.Data.Finset.Card
import Vde.IpnCount

/-!
# The counters of readers and writers

The counters of an IPN network are the numbers of its connected nodes that are not shut down for reading and
for writing. That is so as long as no connected node is shut down, only connected nodes leave, and the
nodes of devices come in the way that their counting expects.
-/

namespace Vde.Ipn

open List Function Option

/-! ## The claims -/

def State.can (s : State) (flag : BitVec 8) (n : Nat) : Bool :=
  match s.nodes n with
  | none => false
  | some node => node.shutdown &&& flag == 0

def State.connectedWithout (s : State) (flag : BitVec 8) (w : Network) : Finset Nat :=
  w.connectqueue.toFinset.filter fun n => s.can flag n

def CountersRight (c : CountState) : Prop :=
  ∀ k w, c.ipn.nets k = some w →
    c.numreaders k = (c.ipn.connectedWithout RCV_SHUTDOWN w).card ∧
      c.numwriters k = (c.ipn.connectedWithout SEND_SHUTDOWN w).card

/-! ## The steps that are right -/

def Node.BothShut (node : Node) : Prop :=
  node.shutdown &&& RCV_SHUTDOWN ≠ 0 ∧ node.shutdown &&& SEND_SHUTDOWN ≠ 0

def Network.Last (w : Network) : Prop := w.refcnt = 1 ∧ ipnIsPersistentChrdev w = false

/-- A node that goes was connected, or nothing of it is left to be counted, or the network goes with it; and its
port number is not beyond the table. -/
def LeaveOk (s : State) (n : Nat) : Prop :=
  ∀ node k w, s.nodes n = some node → node.ipn = some k → s.nets k = some w →
    node.portno < w.maxports ∧ (n ∈ w.connectqueue ∨ node.BothShut ∨ w.Last)

/-- A device is opened for reading and writing if it gets a port; and if it is interrupted at the network, its
node is not released, or the network goes with it. -/
def OpenCountOk (w : Network) (rcv send : Bool) (locks : OpenLocks) : Prop :=
  locks.lock = true →
    (locks.netLock = true → 0 ≤ ipnNewport w → rcv = false ∧ send = false) ∧
    (locks.netLock = false → locks.releaseLock = true → locks.releaseNetLock = true → w.Last)

def CountersOk (s : State) : IpnEvent → Prop
  | .ioctl n (.net (.connNetdev true true true true activate)) => ∀ node k w, s.nodes n = some node →
      node.shutdown ≠ SHUTDOWN_XMASK → node.ipn = some k → s.nets k = some w → w.terminated = false →
      node.sock = some .unconnected → activate = 0 → 0 ≤ ipnNewport w → node.BothShut
  | .chrdevOpen _ k modeRead modeWrite mayRead mayWrite alloc locks _ =>
    let rcv := !modeRead || mayRead == -EACCES || mayRead == -EROFS
    let send := !modeWrite || mayWrite == -EACCES
    (rcv && send) = true ∨ alloc = false ∨ ∀ w, s.nets k = some w → OpenCountOk w rcv send locks
  | .shutdown n mode true => ∀ node, s.nodes n = some node → node.sock = some .connected → node.ipn ≠ none →
      node.shutdown ||| (BitVec.ofInt 8 (mode + 1) &&& (RCV_SHUTDOWN ||| SEND_SHUTDOWN)) = node.shutdown
  | .release n true true => LeaveOk s n
  | _ => True

/-! ## The queues of the connected nodes -/

structure Queued (s : State) : Prop where
  nodup : ∀ k w, s.nets k = some w → w.connectqueue.Nodup
  mem : ∀ k w n, s.nets k = some w → n ∈ w.connectqueue →
    ∃ node, s.nodes n = some node ∧ node.ipn = some k ∧ node.sock ≠ some .unconnected

def State.Out (s : State) (n : Nat) : Prop := ∀ k w, s.nets k = some w → n ∉ w.connectqueue

def openCount (s : State) (flag : BitVec 8) (w : Network) : Nat := w.connectqueue.countP (s.can flag)

def Counter (flag : BitVec 8) : Prop := flag = RCV_SHUTDOWN ∨ flag = SEND_SHUTDOWN

def amountAt (chg : Option CounterChange) (k : Nat) (flag : BitVec 8) : Int :=
  match chg with
  | none => 0
  | some c => if c.net = k then c.amount flag else 0

structure Counts (s s' : State) (chg : Option CounterChange) (made : Option Nat) : Prop where
  queued : Queued s'
  new : ∀ k w', s'.nets k = some w' → made = some k → w'.connectqueue = [] ∧ chg = none
  old : ∀ k w', s'.nets k = some w' → made ≠ some k → ∃ w, s.nets k = some w ∧
    ∀ flag, Counter flag → (openCount s' flag w' : Int) = openCount s flag w + amountAt chg k flag

variable {flag : BitVec 8}

lemma card_connectedWithout {s : State} {w : Network} (hnodup : w.connectqueue.Nodup) :
    (s.connectedWithout flag w).card = openCount s flag w := by
  have hfilter : s.connectedWithout flag w = (w.connectqueue.filter (s.can flag)).toFinset := by
    ext n
    simp [State.connectedWithout]
  rw [hfilter, toFinset_card_of_nodup (hnodup.filter _), openCount, countP_eq_length_filter]

structure CountInv (c : CountState) : Prop where
  queued : Queued c.ipn
  counts : ∀ k w, c.ipn.nets k = some w →
    c.numreaders k = openCount c.ipn RCV_SHUTDOWN w ∧ c.numwriters k = openCount c.ipn SEND_SHUTDOWN w

lemma countersRight_of_inv {c : CountState} (h : CountInv c) : CountersRight c := by
  intro k w hw
  rw [card_connectedWithout (h.queued.nodup k w hw), card_connectedWithout (h.queued.nodup k w hw)]
  exact h.counts k w hw

lemma countStep_inv {c : CountState} {e : IpnEvent} (h : CountInv c)
    (hcounts : Counts c.ipn (ipnStep c.ipn e) (e.change c.ipn) (e.makes c.ipn)) : CountInv (countStep c e) := by
  unfold countStep
  cases hchange : e.change c.ipn with
  | some chg =>
    rw [hchange] at hcounts
    constructor
    · exact hcounts.queued
    intro k w' hw'
    have hold : e.makes c.ipn ≠ some k := by
      intro hmade
      exact absurd (hcounts.new k w' hw' hmade).2 (some_ne_none chg)
    obtain ⟨w, hw, hflags⟩ := hcounts.old k w' hw' hold
    obtain ⟨hreaders, hwriters⟩ := h.counts k w hw
    have hr := hflags RCV_SHUTDOWN (.inl rfl)
    have hs := hflags SEND_SHUTDOWN (.inr rfl)
    simp only [amountAt] at hr hs
    dsimp only [ipnNetUpdateCounters]
    by_cases hk : chg.net = k
    · subst hk
      rw [if_pos rfl] at hr hs
      rw [update_self, update_self, hreaders, hwriters]
      exact ⟨hr.symm, hs.symm⟩
    rw [if_neg hk] at hr hs
    rw [update_of_ne (Ne.symm hk), update_of_ne (Ne.symm hk), hreaders, hwriters]
    constructor
    · omega
    · omega
  | none =>
    rw [hchange] at hcounts
    have hold : ∀ k w', (ipnStep c.ipn e).nets k = some w' → e.makes c.ipn ≠ some k →
        c.numreaders k = openCount (ipnStep c.ipn e) RCV_SHUTDOWN w' ∧
          c.numwriters k = openCount (ipnStep c.ipn e) SEND_SHUTDOWN w' := by
      intro k w' hw' hk
      obtain ⟨w, hw, hflags⟩ := hcounts.old k w' hw' hk
      obtain ⟨hreaders, hwriters⟩ := h.counts k w hw
      have hr := hflags RCV_SHUTDOWN (.inl rfl)
      have hs := hflags SEND_SHUTDOWN (.inr rfl)
      simp only [amountAt] at hr hs
      constructor
      · omega
      · omega
    cases hmakes : e.makes c.ipn with
    | none =>
      rw [hmakes] at hold
      exact ⟨hcounts.queued, fun k w' hw' => hold k w' hw' (by simp)⟩
    | some k₀ =>
      rw [hmakes] at hold
      constructor
      · exact hcounts.queued
      intro k w' hw'
      dsimp only [CountState.newNet]
      by_cases hk : k = k₀
      · subst hk
        have hempty := (hcounts.new k w' hw' hmakes).1
        rw [update_self, update_self, openCount, openCount, hempty]
        exact ⟨rfl, rfl⟩
      rw [update_of_ne hk, update_of_ne hk]
      exact hold k w' hw' (by simpa using Ne.symm hk)

/-! ## Kinds of steps -/

structure Node.Alike (node node' : Node) : Prop where
  ipn : node'.ipn = node.ipn
  sock : node'.sock = some .unconnected → node.sock = some .unconnected
  bits : ∀ flag, Counter flag → node'.shutdown &&& flag = node.shutdown &&& flag

variable {made : Option Nat}

section

variable {s s' : State} {n k : Nat} {node node' : Node} {w w' : Network} {chg : Option CounterChange}

section

variable (h : Queued s)

include h

lemma Queued.out_of_none (hn : s.nodes n = none) : s.Out n := by
  intro k w hw hmem
  obtain ⟨node, hnode, _⟩ := h.mem k w n hw hmem
  rw [hn] at hnode
  exact some_ne_none node hnode.symm

lemma Queued.out_of_unconnected (hn : s.nodes n = some node) (hsock : node.sock = some .unconnected) : s.Out n := by
  intro k w hw hmem
  obtain ⟨node', hnode', _, hconnected⟩ := h.mem k w n hw hmem
  rw [hn] at hnode'
  rw [← some.inj hnode'] at hconnected
  exact hconnected hsock

lemma Queued.ipn_of_mem (hn : s.nodes n = some node) (hw : s.nets k = some w)
    (hmem : n ∈ w.connectqueue) : node.ipn = some k := by
  obtain ⟨node', hnode', hipn, _⟩ := h.mem k w n hw hmem
  rw [hn] at hnode'
  rw [some.inj hnode', hipn]

lemma Queued.out_of_ipn (hn : s.nodes n = some node)
    (hipn : ∀ k, node.ipn = some k → s.nets k = none) : s.Out n := by
  intro k w hw hmem
  rw [hipn k (h.ipn_of_mem hn hw hmem)] at hw
  exact some_ne_none w hw.symm

lemma counts_stays (hnew : ∀ k w', s'.nets k = some w' → made = some k → w'.connectqueue = [] ∧ chg = none)
    (hold : ∀ k w', s'.nets k = some w' → made ≠ some k → ∃ w, s.nets k = some w ∧ w'.connectqueue = w.connectqueue)
    (hchg : ∀ k w', s'.nets k = some w' → ∀ flag, Counter flag → amountAt chg k flag = 0)
    (hnodes : ∀ n node, ¬s.Out n → s.nodes n = some node → ∃ node', s'.nodes n = some node' ∧ node.Alike node') :
    Counts s s' chg made := by
  have hmem : ∀ k w n, s.nets k = some w → n ∈ w.connectqueue → ∃ node node', s.nodes n = some node ∧
      s'.nodes n = some node' ∧ node.Alike node' ∧ node.ipn = some k ∧ node.sock ≠ some .unconnected := by
    intro k w n hw hn
    obtain ⟨node, hnode, hipn, hsock⟩ := h.mem k w n hw hn
    obtain ⟨node', hnode', halike⟩ := hnodes n node (fun hout => hout k w hw hn) hnode
    exact ⟨node, node', hnode, hnode', halike, hipn, hsock⟩
  have hqueue : ∀ k w', s'.nets k = some w' → w'.connectqueue = [] ∨
      ∃ w, s.nets k = some w ∧ w'.connectqueue = w.connectqueue := by
    intro k w' hw'
    by_cases hmade : made = some k
    · exact .inl (hnew k w' hw' hmade).1
    · exact .inr (hold k w' hw' hmade)
  constructor
  · constructor
    · intro k w' hw'
      cases hqueue k w' hw' with
      | inl hempty =>
        rw [hempty]
        exact nodup_nil
      | inr hsame =>
        obtain ⟨w, hw, hqueue⟩ := hsame
        rw [hqueue]
        exact h.nodup k w hw
    intro k w' n hw' hn
    cases hqueue k w' hw' with
    | inl hempty =>
      rw [hempty] at hn
      exact absurd hn not_mem_nil
    | inr hsame =>
      obtain ⟨w, hw, hqueue⟩ := hsame
      rw [hqueue] at hn
      obtain ⟨node, node', _, hnode', halike, hipn, hsock⟩ := hmem k w n hw hn
      exact ⟨node', hnode', halike.ipn.trans hipn, fun hun => hsock (halike.sock hun)⟩
  · exact hnew
  intro k w' hw' hmade
  obtain ⟨w, hw, hqueue⟩ := hold k w' hw' hmade
  refine ⟨w, hw, fun flag hflag => ?_⟩
  rw [hchg k w' hw' flag hflag, Int.add_zero, openCount, openCount, hqueue]
  congr 1
  apply countP_congr
  intro n hn
  obtain ⟨node, node', hnode, hnode', halike, _⟩ := hmem k w n hw hn
  rw [State.can, State.can, hnode, hnode']
  dsimp only
  rw [halike.bits flag hflag]

lemma counts_same (hold : ∀ k w', s'.nets k = some w' → ∃ w, s.nets k = some w ∧ w'.connectqueue = w.connectqueue)
    (hnodes : ∀ n node, ¬s.Out n → s.nodes n = some node → ∃ node', s'.nodes n = some node' ∧ node.Alike node') :
    Counts s s' none none := by
  apply counts_stays h
  · exact fun _ _ _ hmade => absurd hmade.symm (some_ne_none _)
  · exact fun k w' hw' _ => hold k w' hw'
  · exact fun _ _ _ _ _ => rfl
  · exact hnodes

end

lemma Node.Alike.refl (node : Node) : node.Alike node := ⟨rfl, id, fun _ _ => rfl⟩

lemma counts_refl (h : Queued s) : Counts s s none none := by
  apply counts_same h
  · exact fun k w hw => ⟨w, hw, rfl⟩
  · exact fun n node _ hn => ⟨node, hn, .refl node⟩

lemma Counts.wild (h : Counts s s' chg made) : Counts s s'.wild chg made :=
  ⟨⟨h.queued.nodup, h.queued.mem⟩, h.new, h.old⟩

lemma alike_setNode (hnode : ∀ old, s.nodes n = some old → s.Out n ∨ old.Alike node) :
    ∀ m old, ¬s.Out m → s.nodes m = some old → ∃ node', (s.setNode n node).nodes m = some node' ∧ old.Alike node' := by
  intro m old hout hm
  by_cases hmn : m = n
  · subst hmn
    exact ⟨node, by simp, (hnode old hm).resolve_left hout⟩
  · exact ⟨old, by simp [hmn, hm], .refl old⟩

lemma counts_setNode (h : Queued s) (hnode : ∀ old, s.nodes n = some old → s.Out n ∨ old.Alike node) :
    Counts s (s.setNode n node) none none :=
  counts_same h (fun _ w hw => ⟨w, hw, rfl⟩) (alike_setNode hnode)

section

variable (h : Queued s) (hw : s.nets k = some w) (hqueue : w'.connectqueue = w.connectqueue)

include h hw hqueue

lemma counts_setBoth (hnode : ∀ old, s.nodes n = some old → s.Out n ∨ old.Alike node) :
    Counts s ((s.setNet k w').setNode n node) none none := by
  apply counts_same h
  · intro j v hv
    by_cases hj : j = k
    · subst hj
      rw [← (by simpa using hv : w' = v)]
      exact ⟨w, hw, hqueue⟩
    · exact ⟨v, by simpa [hj] using hv, rfl⟩
  · exact alike_setNode hnode

lemma counts_setNet : Counts s (s.setNet k w') none none := by
  apply counts_same h
  · intro j v hv
    by_cases hj : j = k
    · subst hj
      rw [← (by simpa using hv : w' = v)]
      exact ⟨w, hw, hqueue⟩
    · exact ⟨v, by simpa [hj] using hv, rfl⟩
  · exact fun n node _ hn => ⟨node, hn, .refl node⟩

end

lemma can_congr {l : List Nat} (hnodes : ∀ m ∈ l, s'.nodes m = s.nodes m) :
    l.countP (s'.can flag) = l.countP (s.can flag) := by
  apply countP_congr
  intro m hm
  rw [State.can, State.can, hnodes m hm]

lemma counts_enters (h : Queued s) (hw : s.nets k = some w) (hout : s.Out n)
    (hqueue : w'.connectqueue = w.connectqueue ++ [n]) (hipn : node.ipn = some k)
    (hsock : node.sock ≠ some .unconnected)
    (hchg : ∀ j flag, Counter flag → amountAt chg j flag = if j = k ∧ node.shutdown &&& flag = 0 then 1 else 0) :
    Counts s ((s.setNet k w').setNode n node) chg none := by
  have hother : ∀ j v, s.nets j = some v → ∀ m ∈ v.connectqueue,
      ((s.setNet k w').setNode n node).nodes m = s.nodes m := by
    intro j v hv m hm
    have hmn : m ≠ n := fun heq => hout j v hv (heq ▸ hm)
    simp [hmn]
  have hself : ((s.setNet k w').setNode n node).nodes n = some node := by simp
  constructor
  · constructor
    · intro j v hv
      by_cases hj : j = k
      · subst hj
        rw [← (by simpa using hv : w' = v), hqueue]
        apply Nodup.append (h.nodup j w hw) (nodup_singleton n)
        intro m hm hmn
        rw [mem_singleton.1 hmn] at hm
        exact hout j w hw hm
      · exact h.nodup j v (by simpa [hj] using hv)
    intro j v m hv hm
    by_cases hj : j = k
    · subst hj
      rw [← (by simpa using hv : w' = v), hqueue, mem_append, mem_singleton] at hm
      cases hm with
      | inl hmem =>
        rw [hother j w hw m hmem]
        exact h.mem j w m hw hmem
      | inr heq =>
        rw [heq, hself]
        exact ⟨node, rfl, hipn, hsock⟩
    have hv' : s.nets j = some v := by simpa [hj] using hv
    rw [hother j v hv' m hm]
    exact h.mem j v m hv' hm
  · exact fun _ _ _ hmade => absurd hmade.symm (some_ne_none _)
  intro j v hv _
  by_cases hj : j = k
  · subst hj
    refine ⟨w, hw, fun flag hflag => ?_⟩
    have hcan : ((s.setNet j w').setNode n node).can flag n = (node.shutdown &&& flag == 0) := by
      rw [State.can, hself]
    rw [hchg j flag hflag, ← (by simpa using hv : w' = v), openCount, openCount, hqueue, countP_append,
      can_congr (hother j w hw), countP_singleton, hcan]
    by_cases hopen : node.shutdown &&& flag = 0
    · rw [if_pos (by simp [hopen]), if_pos ⟨rfl, hopen⟩]
      rfl
    rw [if_neg (by simpa using hopen), if_neg fun hboth => hopen hboth.2]
    rfl
  have hv' : s.nets j = some v := by simpa [hj] using hv
  refine ⟨v, hv', fun flag hflag => ?_⟩
  rw [hchg j flag hflag, if_neg fun hboth => hj hboth.1, openCount, openCount, can_congr (hother j v hv'),
    Int.add_zero]

lemma counts_leaves (h : Queued s) (hw : s.nets k = some w) (hn : s.nodes n = some node) (hipn : node.ipn = some k)
    (hnodes : s'.nodes = update s.nodes n none)
    (hnets : ∀ j, j ≠ k → s'.nets j = s.nets j)
    (hnet : ∀ w', s'.nets k = some w' → w'.connectqueue = w.connectqueue.erase n)
    (hchg : ∀ j flag, Counter flag → s'.nets j ≠ none →
      amountAt chg j flag = if j = k ∧ n ∈ w.connectqueue ∧ node.shutdown &&& flag = 0 then -1 else 0) :
    Counts s s' chg none := by
  have hsame : ∀ m, m ≠ n → s'.nodes m = s.nodes m := by
    intro m hm
    rw [hnodes, update_of_ne hm]
  have hother : ∀ j v, j ≠ k → s.nets j = some v → ∀ m ∈ v.connectqueue, m ≠ n := by
    intro j v hj hv m hm heq
    subst heq
    exact hj (some.inj ((h.ipn_of_mem hn hv hm).symm.trans hipn))
  have hnodup := h.nodup k w hw
  constructor
  · constructor
    · intro j v hv
      by_cases hj : j = k
      · subst hj
        rw [hnet v hv]
        exact hnodup.erase n
      rw [hnets j hj] at hv
      exact h.nodup j v hv
    intro j v m hv hm
    by_cases hj : j = k
    · subst hj
      rw [hnet v hv, hnodup.mem_erase_iff] at hm
      rw [hsame m hm.1]
      exact h.mem j w m hw hm.2
    rw [hnets j hj] at hv
    rw [hsame m (hother j v hj hv m hm)]
    exact h.mem j v m hv hm
  · exact fun _ _ _ hmade => absurd hmade.symm (some_ne_none _)
  intro j v hv _
  have hthere : s'.nets j ≠ none := by
    rw [hv]
    exact some_ne_none v
  by_cases hj : j = k
  · subst hj
    refine ⟨w, hw, fun flag hflag => ?_⟩
    have hcan : s.can flag n = (node.shutdown &&& flag == 0) := by rw [State.can, hn]
    have hrest : ∀ m ∈ w.connectqueue.erase n, s'.nodes m = s.nodes m :=
      fun m hm => hsame m (hnodup.mem_erase_iff.1 hm).1
    rw [hchg j flag hflag hthere, openCount, openCount, hnet v hv, can_congr hrest]
    by_cases hmem : n ∈ w.connectqueue
    · have hperm := (perm_cons_erase hmem).countP_eq (s.can flag)
      rw [countP_cons, hcan] at hperm
      by_cases hopen : node.shutdown &&& flag = 0
      · simp only [hopen, beq_self_eq_true, if_true] at hperm
        rw [if_pos ⟨rfl, hmem, hopen⟩]
        omega
      simp only [hopen, beq_iff_eq, if_false] at hperm
      rw [if_neg fun hall => hopen hall.2.2]
      omega
    · rw [erase_of_not_mem hmem, if_neg fun hall => hmem hall.2.1, Int.add_zero]
  rw [hnets j hj] at hv
  refine ⟨v, hv, fun flag hflag => ?_⟩
  rw [hchg j flag hflag hthere, if_neg fun hall => hj hall.1, Int.add_zero, openCount, openCount,
    can_congr fun m hm => hsame m (hother j v hj hv m hm)]

end

lemma Counts.after {s s₁ s' : State} {chg : Option CounterChange}
    (h₁ : Counts s s₁ none none) (h : Counts s₁ s' chg made) : Counts s s' chg made where
  queued := h.queued
  new := h.new
  old := by
    intro k w' hw' hmade
    obtain ⟨w₁, hw₁, hflags⟩ := h.old k w' hw' hmade
    obtain ⟨w, hw, hflags₁⟩ := h₁.old k w₁ hw₁ (by simp)
    refine ⟨w, hw, fun flag hflag => ?_⟩
    rw [hflags flag hflag, hflags₁ flag hflag]
    simp only [amountAt]
    omega

/-! ## The calls -/

variable {lock netLock : Bool}

section

variable {s : State} {n k : Nat} {node : Node} {w : Network}

/-! ### Sockets, bind and connect -/

lemma ipnCreate_counts (h : Queued s) (hn : s.nodes n = none) (protocol : Int) (registered : Bool) :
    Counts s (ipnCreate s n protocol registered).2 none none := by
  unfold ipnCreate
  generalize (if 0 < protocol then protocol - 1 else IPN_BROADCAST - 1) = protocol
  dsimp only
  split_ifs
  · exact counts_refl h
  apply counts_setNode h
  intro old hold
  rw [hn] at hold
  exact absurd hold.symm (some_ne_none old)

lemma ipnNodeBind_counts (h : Queued s) (hn : s.nodes n = some node) (hipn : node.ipn = none)
    (hw : s.nets k = some w) (pbp : Option PreBindParms) :
    Counts s (ipnNodeBind s n { node with pbp := pbp } (some k)).2 none none := by
  have hipn' : ({ node with pbp := pbp } : Node).ipn = none := hipn
  have hout : s.Out n := h.out_of_ipn hn fun j hj => absurd (hipn.symm.trans hj) (some_ne_none j).symm
  rw [ipnNodeBind_eq hw hipn']
  apply counts_setBoth h hw
  · rfl
  · exact fun _ _ => .inl hout

lemma ipnBind_counts (h : Queued s) (hn : s.nodes n = some node) {registered : Bool} {path : BindPath}
    (hnew : ∀ k, path = .created k → s.nets k = none) :
    Counts s (ipnBind s n node lock registered path).2 none (IpnEvent.makes s (.bind n lock registered path)) := by
  rcases ipnBind_cases s n node lock registered path with ⟨heq, herr⟩ | ⟨-, hipn, k, s', heq, hpath⟩
  · have hmakes : IpnEvent.makes s (.bind n lock registered path) = none := by
      cases path with
      | failed err => rfl
      | created k =>
        simp only [IpnEvent.makes, hn, bind_some]
        exact if_neg (herr k rfl)
      | found permission isSock k => rfl
    rw [heq, hmakes]
    exact counts_refl h
  rcases hpath with ⟨rfl, rfl⟩ | ⟨hpath, hsame, w, hw⟩
  · simp only [IpnEvent.makes, hn, bind_some]
    have hipn' : ({ node with pbp := none } : Node).ipn = none := hipn
    have hnet : (s.setNet k (newNetwork node.protocol (node.pbp.getD stdBindParms))).nets k =
        some (newNetwork node.protocol (node.pbp.getD stdBindParms)) := by simp
    have hout : s.Out n := h.out_of_ipn hn fun j hj => absurd (hipn.symm.trans hj) (some_ne_none j).symm
    rw [heq, if_pos rfl, ipnNodeBind_eq hnet hipn', setNet_setNet]
    apply counts_stays h
    · intro j w' hw' hj
      rw [← some.inj hj] at hw'
      rw [← (by simpa using hw' : _ = w')]
      exact ⟨rfl, rfl⟩
    · intro j w' hw' hj
      have hjk : j ≠ k := fun heq => hj (congrArg some heq.symm)
      exact ⟨w', by simpa [hjk] using hw', rfl⟩
    · exact fun _ _ _ _ _ => rfl
    · exact alike_setNode fun _ _ => .inl hout
  have hmakes : IpnEvent.makes s (.bind n lock registered path) = none := by
    cases path with
    | failed err => rfl
    | created k => exact absurd rfl (hpath k)
    | found permission isSock k => rfl
  rw [heq, hmakes, hsame]
  exact ipnNodeBind_counts h hn hipn hw none

def Node.joins (node : Node) : Option CounterChange :=
  node.ipn.map fun k => { net := k, shutdown := node.shutdown, chg := 1 }

lemma Node.amountAt_joins (hipn : node.ipn = some k) (j : Nat) (flag : BitVec 8) :
    amountAt node.joins j flag = if j = k ∧ node.shutdown &&& flag = 0 then 1 else 0 := by
  simp only [Node.joins, hipn, map_some, amountAt, CounterChange.amount]
  by_cases hj : j = k
  · subst hj
    by_cases hopen : node.shutdown &&& flag = 0
    · simp [hopen]
    · rw [if_pos rfl, if_pos hopen, if_neg fun hboth => hopen hboth.2]
  · rw [if_neg (Ne.symm hj), if_neg fun hboth => hj hboth.1]

lemma ipnConnectAt_counts {old : Node} {previousipnn : Option Nat} (h : Queued s)
    (hn : s.nodes n = some old) (hold : old.sock = some .unconnected) (hipn : node.ipn = some k)
    (hwild : s.nets k = none → old.ipn = some k) : (ipnConnectAt s n node previousipnn k netLock).1 ≠ 0 ∧
    Counts s (ipnConnectAt s n node previousipnn k netLock).2 none none ∨
    (ipnConnectAt s n node previousipnn k netLock).1 = 0 ∧ ∃ node',
    (ipnConnectAt s n node previousipnn k netLock).2.nodes n = some node' ∧
    Counts s (ipnConnectAt s n node previousipnn k netLock).2 node'.joins none := by
  have hout := h.out_of_unconnected hn hold
  unfold ipnConnectAt
  cases hw : s.nets k with
  | none =>
    right
    rw [State.net, hw]
    refine ⟨rfl, old, hn, ?_⟩
    apply Counts.wild
    apply counts_stays h
    · exact fun _ _ _ hmade => absurd hmade.symm (some_ne_none _)
    · exact fun j w hw _ => ⟨w, hw, rfl⟩
    · intro j w' hw' flag _
      have hjk : j ≠ k := by
        intro heq
        rw [heq, hw] at hw'
        exact some_ne_none w' hw'.symm
      rw [Node.amountAt_joins (hwild hw), if_neg fun hboth => hjk hboth.1]
    · exact fun m node _ hm => ⟨node, hm, .refl node⟩
  | some w =>
    rw [State.net_eq hw]
    cases netLock with
    | false => exact .inl ⟨by simp [ERESTARTSYS], counts_setNode h fun _ _ => .inl hout⟩
    | true =>
      rw [if_neg (by simp)]
      dsimp only
      cases ipnNewport_cases w with
      | inl hfull =>
        rw [hfull, if_neg (by omega)]
        exact .inl ⟨by simp [EADDRNOTAVAIL], counts_setNode h fun _ _ => .inl hout⟩
      | inr hport =>
        obtain ⟨p, hp, hlt, _⟩ := hport
        rw [hp, if_pos (by omega), Network.store_eq hlt]
        right
        refine ⟨rfl, { node with sock := some .connected, portno := (p : Int) }, by simp, ?_⟩
        apply counts_enters h hw hout
        · cases node.bound with
          | true => simp [Network.listDel, erase_of_not_mem (hout k w hw)]
          | false => rfl
        · exact hipn
        · simp
        · exact fun j flag _ => Node.amountAt_joins hipn j flag

lemma ipnConnect_counts (h : Queued s) (hn : s.nodes n = some node) (lock netLock : Bool) (path : ConnectPath) :
    Counts s (ipnConnect s n node lock netLock path).2 (ipnConnectChange s n node lock netLock path) none := by
  -- what the change is, once it is known what the call does
  have hchange : ∀ r : Int × State, ipnConnect s n node lock netLock path = r →
      (r.1 ≠ 0 ∧ Counts s r.2 none none ∨
        r.1 = 0 ∧ ∃ node', r.2.nodes n = some node' ∧ Counts s r.2 node'.joins none) →
      Counts s (ipnConnect s n node lock netLock path).2 (ipnConnectChange s n node lock netLock path) none := by
    intro r heq hcases
    unfold ipnConnectChange
    rw [heq]
    cases hcases with
    | inl hfailed =>
      dsimp only
      rw [if_pos hfailed.1]
      exact hfailed.2
    | inr hdone =>
      obtain ⟨hzero, node', hnode', hcounts⟩ := hdone
      dsimp only
      rw [if_neg (not_not.2 hzero), hnode']
      exact hcounts
  apply hchange _ rfl
  unfold ipnConnect
  split_ifs with hsock hlock
  · exact .inl ⟨by simp [EISCONN], counts_refl h⟩
  · exact .inl ⟨by simp [ERESTARTSYS], counts_refl h⟩
  have hsock : node.sock = some .unconnected := not_not.1 hsock
  cases hipn : node.ipn with
  | some k =>
    exact ipnConnectAt_counts h hn hsock hipn fun _ => hipn
  | none =>
    cases ipnConnectPath_cases s node path with
    | inl herr =>
      obtain ⟨err, sh, heq⟩ := herr
      simp only [heq]
      have hcounts : Counts s (s.setNode n { node with shutdown := sh }) none none :=
        counts_setNode h fun _ _ => .inl (h.out_of_unconnected hn hsock)
      by_cases hzero : err = 0
      · refine .inr ⟨hzero, { node with shutdown := sh }, by simp, ?_⟩
        simpa [Node.joins, hipn] using hcounts
      · exact .inl ⟨hzero, hcounts⟩
    | inr hfound =>
      obtain ⟨k, w, protocol, sh, hw, heq⟩ := hfound
      simp only [heq]
      apply ipnConnectAt_counts h hn hsock rfl
      intro hnone
      rw [hw] at hnone
      exact absurd hnone (some_ne_none w)

/-! ### Ioctl, options and shutdown -/

lemma Node.BothShut.closed (h : node.BothShut) (hflag : Counter flag) : ¬node.shutdown &&& flag = 0 := by
  cases hflag with
  | inl hr =>
    rw [hr]
    exact h.1
  | inr hs =>
    rw [hs]
    exact h.2

lemma ipnIoctl_counts (h : Queued s) (hn : s.nodes n = some node) {req : Ioctl}
    (hok : ∀ activate, req = .net (.connNetdev true true true true activate) → ∀ k w,
      node.shutdown ≠ SHUTDOWN_XMASK → node.ipn = some k → s.nets k = some w → w.terminated = false →
      node.sock = some .unconnected → activate = 0 → 0 ≤ ipnNewport w → node.BothShut) :
    Counts s (ipnIoctl s n node req).2 none none := by
  have hcase := ipnIoctl_case s n node req
  generalize (ipnIoctl s n node req).2 = s' at hcase
  cases hcase with
  | same => exact counts_refl h
  | wild => exact (counts_refl h).wild
  | joined k w hipn hw =>
    have hbind := ipnNodeBind_counts h hn hipn hw node.pbp
    rwa [ipnNodeBind_eq hw hipn] at hbind
  | chrdev k w chrdev hipn hw => exact counts_setNet h hw rfl
  | undone k w _ _ hsock => exact counts_setNode h fun _ _ => .inl (h.out_of_unconnected hn hsock)
  | refused k w _ hw hsock => exact counts_setBoth h hw rfl fun _ _ => .inl (h.out_of_unconnected hn hsock)
  | attached k w p hreq hreset hipn hw hterm hsock hport =>
    have hout := h.out_of_unconnected hn hsock
    have hshut := hok 0 hreq k w hreset hipn hw hterm hsock rfl (by omega)
    apply counts_enters h hw hout
    · simp [Network.listDel, erase_of_not_mem (hout k w hw)]
    · exact hipn
    · simp
    · intro j flag hflag
      exact (if_neg fun hboth => hshut.closed hflag hboth.2).symm

lemma handleOob_bits (sh : BitVec 8) (hflag : Counter flag) :
    (sh &&& ~~~RCV_SHUTDOWN_NO_OOB) &&& flag = sh &&& flag ∧ (sh ||| RCV_SHUTDOWN_NO_OOB) &&& flag = sh &&& flag := by
  have hclosed : ~~~RCV_SHUTDOWN_NO_OOB &&& flag = flag ∧ RCV_SHUTDOWN_NO_OOB &&& flag = 0 := by
    cases hflag with
    | inl hr =>
      rw [hr]
      exact ⟨rfl, rfl⟩
    | inr hs =>
      rw [hs]
      exact ⟨rfl, rfl⟩
  rw [BitVec.and_assoc, hclosed.1, BitVec.and_or_distrib_right, hclosed.2]
  simp

lemma ipnNetresize_counts (h : Queued s) (k : Nat) (val : Int) (netLock alloc : Bool) :
    Counts s (ipnNetresize s k val netLock alloc).2 none none := by
  unfold ipnNetresize
  cases hw : s.nets k with
  | none =>
    simp only [State.net, hw]
    exact (counts_refl h).wild
  | some w =>
    simp only [State.net_eq hw]
    split_ifs <;> first | exact counts_refl h | exact counts_setNet h hw rfl

section

variable (h : Queued s) (hn : s.nodes n = some node)

include h hn

lemma ipnSockoptVal_counts (pbp : Option PreBindParms)
    (optname : BitVec 32) (val : Int) (netLock alloc : Bool) :
    Counts s (ipnSockoptVal s n { node with pbp := pbp } optname val netLock alloc).2 none none := by
  have hset : ∀ pbp portno sh, (∀ flag, Counter flag → sh &&& flag = node.shutdown &&& flag) →
      Counts s (s.setNode n { node with pbp := pbp, portno := portno, shutdown := sh }) none none := by
    intro pbp portno sh hbits
    apply counts_setNode h
    intro old hold
    have hold := some.inj (hold.symm.trans hn)
    subst hold
    exact .inr ⟨rfl, id, hbits⟩
  rcases ipnSockoptVal_cases s n { node with pbp := pbp } optname val netLock alloc with
    heq | ⟨pbp', sh, hsh, heq⟩ | ⟨-, heq⟩ | ⟨-, -, -, ⟨-, heq⟩ | ⟨k, -, heq⟩⟩
  · rw [heq]
    exact counts_refl h
  · rw [heq]
    apply hset
    intro flag hflag
    rcases hsh with rfl | rfl | rfl
    · rfl
    · exact (handleOob_bits node.shutdown hflag).1
    · exact (handleOob_bits node.shutdown hflag).2
  · rw [heq]
    exact hset pbp val node.shutdown fun _ _ => rfl
  · rw [heq]
    exact (counts_refl h).wild
  · rw [heq]
    exact ipnNetresize_counts h k val netLock alloc

lemma ipnSetsockopt_counts (level : Int) (optname : BitVec 32)
    (optlen : Nat) (val : Int) (netLock pbpAlloc alloc : Bool) :
    Counts s (ipnSetsockopt s n node level optname optlen val netLock pbpAlloc alloc).2 none none := by
  rcases ipnSetsockopt_cases s n node level optname optlen val netLock pbpAlloc alloc with
    heq | ⟨k, -, -, heq⟩ | ⟨-, pbp, heq⟩
  · rw [heq]
    exact counts_refl h
  · rw [heq]
    exact (counts_refl h).wild
  rw [heq]
  exact ipnSockoptVal_counts h hn pbp optname val netLock alloc

lemma ipnShutdown_counts (hsock : node.sock.isSome) {mode : Int}
    (hok : netLock = true → node.sock = some .connected → node.ipn ≠ none →
      node.shutdown ||| (BitVec.ofInt 8 (mode + 1) &&& (RCV_SHUTDOWN ||| SEND_SHUTDOWN)) = node.shutdown) :
    Counts s (ipnShutdown s n node mode netLock).2 (ipnShutdownChange node mode netLock) none := by
  have hchange : ipnShutdownChange node mode netLock = none := by
    unfold ipnShutdownChange
    cases hipn : node.ipn with
    | none => simp
    | some k =>
      dsimp only
      split_ifs with hlock hboth
      · rfl
      · have hkeeps := hok (by simpa using hlock) hboth.1 (by rw [hipn]; exact some_ne_none k)
        exact absurd hkeeps hboth.2
      · rfl
  have hset : s.Out n ∨ node.Alike { node with
        shutdown := node.shutdown ||| (BitVec.ofInt 8 (mode + 1) &&& (RCV_SHUTDOWN ||| SEND_SHUTDOWN)) } →
      Counts s (s.setNode n { node with
        shutdown := node.shutdown ||| (BitVec.ofInt 8 (mode + 1) &&& (RCV_SHUTDOWN ||| SEND_SHUTDOWN)) }) none none := by
    intro hcase
    apply counts_setNode h
    intro old hold
    have hold := some.inj (hold.symm.trans hn)
    subst hold
    exact hcase
  rw [hchange]
  unfold ipnShutdown
  cases hipn : node.ipn with
  | none =>
    have hout : s.Out n := h.out_of_ipn hn fun j hj => absurd (hipn.symm.trans hj) (some_ne_none j).symm
    have hcounts := hset (.inl hout)
    rw [hipn] at hcounts
    exact hcounts
  | some k =>
    cases hw : s.nets k with
    | none =>
      simp only [State.net, hw]
      exact (counts_refl h).wild
    | some w =>
      simp only [State.net_eq hw]
      split_ifs with hlock
      · exact counts_refl h
      have hcase : s.Out n ∨ node.Alike { node with
          shutdown := node.shutdown ||| (BitVec.ofInt 8 (mode + 1) &&& (RCV_SHUTDOWN ||| SEND_SHUTDOWN)) } := by
        cases hst : node.sock with
        | none =>
          rw [hst] at hsock
          exact absurd hsock (by simp)
        | some st =>
          cases st with
          | unconnected => exact .inl (h.out_of_unconnected hn hst)
          | connected =>
            right
            have hkeeps := hok (by simpa using hlock) hst (by rw [hipn]; exact some_ne_none k)
            rw [hkeeps, ← hst]
            exact .refl node
      have hcounts := hset hcase
      rw [hipn] at hcounts
      exact hcounts

end

/-! ### Release and devices -/

lemma Queued.free_counts (h : Queued s) {chg : Option CounterChange} (hout : s.Out n)
    (hchg : ∀ k w, s.nets k = some w → ∀ flag, amountAt chg k flag = 0) : Counts s (s.freeNode n) chg none := by
  apply counts_stays h
  · exact fun _ _ _ hmade => absurd hmade.symm (some_ne_none _)
  · exact fun k w hw _ => ⟨w, hw, rfl⟩
  · exact fun k w hw flag _ => hchg k w hw flag
  · intro m old hm hold
    have hmn : m ≠ n := fun heq => hm (heq ▸ hout)
    exact ⟨old, by simp [hmn, hold], .refl old⟩

lemma ipnTerminateChange_amount (hipn : node.ipn = some k) (j : Nat) (flag : BitVec 8) :
    amountAt (ipnTerminateChange node true) j flag = if j = k ∧ node.shutdown &&& flag = 0 then -1 else 0 := by
  simp only [ipnTerminateChange, Bool.not_true, Bool.false_eq_true, if_false, hipn, map_some, amountAt,
    CounterChange.amount]
  by_cases hj : j = k
  · subst hj
    by_cases hopen : node.shutdown &&& flag = 0
    · simp [hopen]
    · rw [if_pos rfl, if_pos hopen, if_neg fun hboth => hopen hboth.2]
  · rw [if_neg (Ne.symm hj), if_neg fun hboth => hj hboth.1]

section

variable (h : Queued s) (hn : s.nodes n = some node)

include h hn

lemma Queued.leave_counts {s' : State} (hipn : node.ipn = some k)
    (hw : s.nets k = some w) (hcase : n ∈ w.connectqueue ∨ node.BothShut ∨ w.Last)
    (hnodes : s'.nodes = update s.nodes n none) (hnets : ∀ j, j ≠ k → s'.nets j = s.nets j)
    (hnet : ∀ w', s'.nets k = some w' → w'.connectqueue = w.connectqueue.erase n)
    (hlast : w.Last → s'.nets k = none) : Counts s s' (ipnTerminateChange node true) none := by
  apply counts_leaves h hw hn hipn hnodes hnets hnet
  intro j flag hflag hthere
  rw [ipnTerminateChange_amount hipn j flag]
  by_cases hj : j = k
  · rcases hcase with hmem | hboth | hgone
    · simp [hmem]
    · rw [if_neg fun hall => hboth.closed hflag hall.2, if_neg fun hall => hboth.closed hflag hall.2.2]
    rw [hj, hlast hgone] at hthere
    exact absurd rfl hthere
  · rw [if_neg fun hall => hj hall.1, if_neg fun hall => hj hall.1]

lemma ipnNodeRelease_counts
    (hok : lock = true → netLock = true → LeaveOk s n) : (ipnNodeRelease s n node lock netLock).1 = 0 ∧
    Counts s (ipnNodeRelease s n node lock netLock).2 (ipnReleaseChange node lock netLock) none ∨
    ipnNodeRelease s n node lock netLock = (-ERESTARTSYS, s) ∧ ipnReleaseChange node lock netLock = none := by
  cases lock with
  | false => exact .inr ⟨rfl, rfl⟩
  | true =>
    unfold ipnNodeRelease ipnReleaseChange
    rw [if_neg (by simp), if_neg (by simp)]
    cases hipn : node.ipn with
    | none =>
      have hout : s.Out n := h.out_of_ipn hn fun j hj => absurd (hipn.symm.trans hj) (some_ne_none j).symm
      have hchange : ipnTerminateChange node netLock = none := by simp [ipnTerminateChange, hipn]
      left
      rw [hchange]
      simp only [ipnTerminateNode, hipn, State.freeNode_setNode, if_true, true_and]
      exact h.free_counts hout fun _ _ _ _ => rfl
    | some k =>
      cases hw : s.nets k with
      | none =>
        have hout : s.Out n := by
          apply h.out_of_ipn hn
          intro j hj
          rw [← some.inj (hipn.symm.trans hj)]
          exact hw
        left
        simp only [ipnTerminateNode, hipn, State.net, hw, if_true, true_and]
        have hcounts : Counts s (s.freeNode n) (ipnTerminateChange node netLock) none := by
          apply h.free_counts hout
          intro j v hv flag
          have hjk : k ≠ j := by
            intro heq
            rw [← heq, hw] at hv
            exact some_ne_none v hv.symm
          simp only [ipnTerminateChange, hipn, map_some]
          split_ifs
          · rfl
          · exact if_neg hjk
        exact hcounts.wild
      | some w =>
        cases netLock with
        | false =>
          right
          simp [ipnTerminateNode, ipnTerminateChange, hipn, State.net_eq hw, ERESTARTSYS]
        | true =>
          left
          obtain ⟨hlt, hcase⟩ := hok rfl rfl node k w hn hipn hw
          obtain ⟨connport, hstore⟩ := Network.clear_eq hlt
          rw [ipnTerminateNode_eq hipn hw hstore]
          by_cases hlast : w.refcnt - 1 = 0 ∧ (!ipnIsPersistentChrdev w) = true
          · dsimp only
            rw [if_pos hlast, if_pos rfl]
            apply And.intro rfl
            apply h.leave_counts hn hipn hw hcase
            · simp
            · intro j hj
              simp [hj]
            · intro w' hw'
              simp at hw'
            · intro _
              simp
          dsimp only
          rw [if_neg hlast, if_pos rfl]
          apply And.intro rfl
          apply h.leave_counts hn hipn hw hcase
          · simp
          · intro j hj
            simp [hj]
          · intro w' hw'
            rw [← (by simpa using hw' : w.without n connport = w')]
            rfl
          · intro hgone
            apply absurd _ hlast
            have hone := hgone.1
            exact ⟨by omega, by simp [hgone.2]⟩

lemma ipnRelease_counts (hok : lock = true → netLock = true → LeaveOk s n) :
    Counts s (ipnRelease s n node lock netLock).2 (ipnReleaseChange node lock netLock) none := by
  unfold ipnRelease
  cases ipnNodeRelease_counts h hn hok with
  | inl hgone =>
    dsimp only
    rw [if_pos hgone.1]
    exact hgone.2
  | inr hstays =>
    rw [hstays.1, hstays.2]
    dsimp only
    rw [if_neg (by simp [ERESTARTSYS])]
    apply counts_setNode h
    intro old hold
    have hold := some.inj (hold.symm.trans hn)
    subst hold
    exact .inr ⟨rfl, id, fun _ _ => rfl⟩

end

lemma ipnNodeGiveUp_counts (h : Queued s) (hn : s.nodes n = none) {lock netLock : Bool} {err : Int}
    (hok : lock = true → netLock = true → ∀ k w, node.ipn = some k → s.nets k = some w →
      node.portno < w.maxports ∧ w.Last) :
    Counts s (ipnNodeGiveUp s n node lock netLock err).2 (ipnReleaseChange node lock netLock) none := by
  have hcreated : Counts s (s.setNode n { node with closed := true }) none none := by
    apply counts_setNode h
    intro old hold
    rw [hn] at hold
    exact absurd hold.symm (some_ne_none old)
  have hleave : lock = true → netLock = true → LeaveOk (s.setNode n { node with closed := true }) n := by
    intro hlock hnetLock node' k w hnode' hipn hw
    have hnode' : { node with closed := true } = node' := by simpa using hnode'
    subst hnode'
    obtain ⟨hlt, hlast⟩ := hok hlock hnetLock k w hipn hw
    exact ⟨hlt, .inr (.inr hlast)⟩
  have hself : (s.setNode n { node with closed := true }).nodes n = some { node with closed := true } := by simp
  unfold ipnNodeGiveUp
  cases ipnNodeRelease_counts hcreated.queued hself hleave with
  | inl hgone => exact hcreated.after hgone.2
  | inr hstays =>
    have hchange : ipnReleaseChange node lock netLock = none := hstays.2
    rw [hchange]
    dsimp only
    rw [hstays.1]
    exact hcreated

section

variable (h : Queued s) (hn : s.nodes n = none)

include h hn

lemma ipnNodeGiveUp_alone (hipn : node.ipn = none) (lock netLock : Bool)
    (err : Int) : Counts s (ipnNodeGiveUp s n node lock netLock err).2 none none := by
  have hcounts := @ipnNodeGiveUp_counts s n node h hn lock netLock err
    fun _ _ k w hk => absurd (hipn.symm.trans hk) (some_ne_none k).symm
  have hchange : ipnReleaseChange node lock netLock = none := by simp [ipnReleaseChange, ipnTerminateChange, hipn]
  rw [hchange] at hcounts
  exact hcounts

lemma ipnNodeCreateConnect_counts (hw : s.nets k = some w)
    {locks : OpenLocks} (hok : locks.lock = true → locks.netLock = false → locks.releaseLock = true →
      locks.releaseNetLock = true → w.Last) :
    (ipnNodeCreateConnect s n k locks).1 ≠ 0 ∧
        Counts s (ipnNodeCreateConnect s n k locks).2 (ipnNodeCreateConnectChange s n k locks) none ∨
      locks.lock = true ∧ locks.netLock = true ∧ 0 ≤ ipnNewport w ∧
        ∃ w' node, ipnNodeCreateConnect s n k locks = (0, (s.setNet k w').setNode n node) ∧
          Counts s ((s.setNet k w').setNode n { node with shutdown := 0 })
            (ipnNodeCreateConnectChange s n k locks) none := by
  unfold ipnNodeCreateConnectChange
  cases hlock : locks.lock with
  | false =>
    have heq : ipnNodeCreateConnect s n k locks =
        ipnNodeGiveUp s n ipnNodeCreate locks.releaseLock locks.releaseNetLock (-ERESTARTSYS) := by
      simp [ipnNodeCreateConnect, hlock]
    left
    rw [heq]
    apply And.intro (by simp [ipnNodeGiveUp, ERESTARTSYS])
    rw [if_neg (by simp [ipnNodeGiveUp, ERESTARTSYS]), if_neg (by simp)]
    exact ipnNodeGiveUp_alone h hn rfl _ _ _
  | true =>
    cases hnetLock : locks.netLock with
    | false =>
      have heq : ipnNodeCreateConnect s n k locks =
          ipnNodeGiveUp s n { ipnNodeCreate with ipn := some k, protocol := w.protocol } locks.releaseLock
            locks.releaseNetLock (-ERESTARTSYS) := by
        simp [ipnNodeCreateConnect, hlock, hnetLock, State.net_eq hw]
      left
      rw [heq]
      apply And.intro (by simp [ipnNodeGiveUp, ERESTARTSYS])
      rw [if_neg (by simp [ipnNodeGiveUp, ERESTARTSYS]), if_pos (by simp)]
      apply @ipnNodeGiveUp_counts s n { ipnNodeCreate with ipn := some k, protocol := w.protocol } h hn
      intro hrelease hreleaseNet j v hipn hv
      have hjk : k = j := some.inj hipn
      subst hjk
      have hv := some.inj (hv.symm.trans hw)
      subst hv
      have hport : ipnNodeCreate.portno < v.maxports := by
        simp only [ipnNodeCreate, IPN_PORTNO_ANY]
        omega
      exact ⟨hport, hok hlock hnetLock hrelease hreleaseNet⟩
    | true =>
      cases ipnNewport_cases w with
      | inl hfull =>
        have heq : ipnNodeCreateConnect s n k locks =
            ipnNodeGiveUp s n { ipnNodeCreate with ipn := none, protocol := w.protocol } locks.releaseLock
              locks.releaseNetLock (-EADDRNOTAVAIL) := by
          simp [ipnNodeCreateConnect, hlock, hnetLock, State.net_eq hw, hfull]
        left
        rw [heq]
        apply And.intro (by simp [ipnNodeGiveUp, EADDRNOTAVAIL])
        rw [if_neg (by simp [ipnNodeGiveUp, EADDRNOTAVAIL]), if_neg (by simp)]
        exact ipnNodeGiveUp_alone h hn rfl _ _ _
      | inr hport =>
        obtain ⟨p, hp, hlt, _⟩ := hport
        have hrange : (0 : Int) ≤ p ∧ (p : Int) < w.maxports := by omega
        have hout := h.out_of_none hn
        right
        refine ⟨rfl, rfl, by omega, ?_⟩
        unfold ipnNodeCreateConnect
        dsimp only
        rw [hlock, hnetLock, if_neg (by simp), State.net_eq hw, if_neg (by simp), hp, if_pos hrange,
          Network.store_eq hlt]
        refine ⟨_, _, rfl, ?_⟩
        rw [if_pos rfl]
        apply counts_enters h hw hout
        · simp [ipnNodeCreate, Network.listDel, erase_of_not_mem (hout k w hw)]
        · rfl
        · simp [ipnNodeCreate]
        · intro j flag hflag
          have hcounted : ipnNodeCreate.shutdown &&& flag = 0 := by
            cases hflag with
            | inl hr =>
              rw [hr]
              rfl
            | inr hs =>
              rw [hs]
              rfl
          simp [amountAt, CounterChange.amount, hcounted, eq_comm]

lemma ipnChrdevOpen_counts (hw : s.nets k = some w)
    {modeRead modeWrite : Bool} {mayRead mayWrite : Int} {alloc : Bool} {locks : OpenLocks} {stale : Bool}
    (hok : ((!modeRead || mayRead == -EACCES || mayRead == -EROFS) && (!modeWrite || mayWrite == -EACCES)) = true ∨
      alloc = false ∨ OpenCountOk w (!modeRead || mayRead == -EACCES || mayRead == -EROFS)
        (!modeWrite || mayWrite == -EACCES) locks) :
    Counts s (ipnChrdevOpen s n k modeRead modeWrite mayRead mayWrite alloc locks stale).2
      (ipnChrdevOpenChange s n k modeRead modeWrite mayRead mayWrite alloc locks) none := by
  unfold ipnChrdevOpen ipnChrdevOpenChange
  generalize (!modeRead || mayRead == -EACCES || mayRead == -EROFS) = rcv at hok ⊢
  generalize (!modeWrite || mayWrite == -EACCES) = send at hok ⊢
  dsimp only
  by_cases hdenied : (rcv && send) = true
  · rw [if_pos hdenied, if_pos (by simp [hdenied])]
    exact counts_refl h
  rw [if_neg hdenied]
  by_cases halloc : alloc = false
  · rw [if_pos (by simp [halloc]), if_pos (by simp [halloc])]
    exact (counts_refl h).wild
  have hopens : ¬(rcv && send || !alloc) = true := by
    rw [Bool.eq_false_iff.2 hdenied]
    simpa using halloc
  rw [if_neg (by simpa using halloc), if_neg hopens]
  have hok := (hok.resolve_left hdenied).resolve_left halloc
  have hrelease : locks.lock = true → locks.netLock = false → locks.releaseLock = true →
      locks.releaseNetLock = true → w.Last := fun hlock => (hok hlock).2
  cases ipnNodeCreateConnect_counts h hn hw hrelease with
  | inl hfailed =>
    rw [if_neg hfailed.1]
    split_ifs
    · exact hfailed.2.wild
    · exact hfailed.2
  | inr hdone =>
    obtain ⟨hlock, hnetLock, hport, w', node, heq, hcounts⟩ := hdone
    obtain ⟨hrcv, hsend⟩ := (hok hlock).1 hnetLock hport
    rw [heq, if_pos rfl]
    simp only [State.setNode_nodes, update_self, setNode_setNode]
    rw [hrcv, hsend]
    exact hcounts

end

end

/-! ## Every run -/

lemma ipnStep_counts {s : State} {e : IpnEvent} (h : Queued s) (hlegal : e.Legal s) (hok : CountersOk s e) :
    Counts s (ipnStep s e) (e.change s) (e.makes s) := by
  cases e with
  | socket n protocol registered => exact ipnCreate_counts h hlegal protocol registered
  | bind n lock registered path =>
    obtain ⟨⟨node, hn, _⟩, hnew⟩ := hlegal
    simp only [ipnStep, State.onNode_eq hn]
    apply ipnBind_counts h hn
    intro k hpath
    rw [hpath] at hnew
    exact hnew
  | connect n lock netLock path =>
    obtain ⟨node, hn, _⟩ := hlegal
    simp only [ipnStep, State.onNode_eq hn, IpnEvent.change, hn, bind_some]
    exact ipnConnect_counts h hn lock netLock path
  | ioctl n req =>
    obtain ⟨node, hn, _⟩ := hlegal
    simp only [ipnStep, State.onNode_eq hn]
    apply ipnIoctl_counts h hn
    intro activate hreq k w
    rw [hreq] at hok
    exact hok node k w hn
  | chrdevOpen n k modeRead modeWrite mayRead mayWrite alloc locks stale =>
    obtain ⟨hn, w, hw, _⟩ := hlegal
    apply ipnChrdevOpen_counts h hn hw
    cases hok with
    | inl hdenied => exact .inl hdenied
    | inr hrest => exact .inr (hrest.imp_right fun hopen => hopen w hw)
  | setsockopt n level optname optlen val netLock pbpAlloc alloc =>
    obtain ⟨node, hn, _⟩ := hlegal
    simp only [ipnStep, State.onNode_eq hn]
    exact ipnSetsockopt_counts h hn level optname optlen val netLock pbpAlloc alloc
  | shutdown n mode netLock =>
    obtain ⟨node, hn, _, hsock⟩ := hlegal
    simp only [ipnStep, State.onNode_eq hn, IpnEvent.change, hn, bind_some]
    apply ipnShutdown_counts h hn hsock
    rintro rfl
    exact hok node hn
  | release n lock netLock =>
    obtain ⟨node, hn, _⟩ := hlegal
    simp only [ipnStep, State.onNode_eq hn, IpnEvent.change, hn, bind_some]
    apply ipnRelease_counts h hn
    rintro rfl rfl
    exact hok

lemma countInv_init : CountInv countInit where
  queued := {
    nodup := fun _ w hw => absurd hw (some_ne_none w).symm
    mem := fun _ w _ hw => absurd hw (some_ne_none w).symm }
  counts _ w hw := absurd hw (some_ne_none w).symm

/-- The counters are the numbers of the nodes that can read and write at any time, as long as the calls are of
the kinds above. -/
theorem counters_right (es : List IpnEvent) (hes : countMachine.Along countMachine.enabled countInit es)
    (hok : countMachine.Along (fun c e => CountersOk c.ipn e) countInit es) :
    countMachine.Always CountersRight countInit es := by
  apply Machine.Along.always CountInv _ _ countInv_init (hes.and hok)
  · exact fun c hc => countersRight_of_inv hc
  intro c e hc he
  exact countStep_inv hc (ipnStep_counts hc.queued he.1.2 he.2)

theorem counters_right_second : countMachine.Always CountersRight countInit secondSocketRun := by
  apply counters_right
  · exact ⟨⟨rfl, rfl⟩, ⟨rfl, ⟨_, rfl, rfl, rfl⟩, rfl⟩, ⟨rfl, _, rfl, rfl, rfl⟩, ⟨rfl, rfl⟩,
      ⟨rfl, _, rfl, rfl, rfl⟩, ⟨rfl, _, rfl, rfl⟩, trivial⟩
  refine ⟨trivial, trivial, trivial, trivial, trivial, ?_, trivial⟩
  intro node k w hn hipn hw
  have hnode := some.inj hn
  subst hnode
  have hk := some.inj hipn
  subst hk
  have hnet := some.inj hw
  subst hnet
  exact ⟨by decide, .inl (by decide)⟩

def shutReadRun : List IpnEvent :=
  [.socket 0 1 true, .bind 0 true true (.created 0), .connect 0 true true (.failed 0), .shutdown 0 0 true]

theorem shut_reader_counted : ¬∀ es, countMachine.Along countMachine.enabled countInit es →
    countMachine.Always CountersRight countInit es := by
  intro h
  have hes : countMachine.Along countMachine.enabled countInit shutReadRun :=
    ⟨⟨rfl, rfl⟩, ⟨rfl, ⟨_, rfl, rfl, rfl⟩, rfl⟩, ⟨rfl, _, rfl, rfl, rfl⟩, ⟨rfl, _, rfl, rfl, rfl⟩, trivial⟩
  have hlast : CountersRight (countMachine.run countInit shutReadRun) := (h shutReadRun hes).last
  have hreaders := (hlast 0 _ rfl).1
  exact absurd hreaders (by decide)

end Vde.Ipn
