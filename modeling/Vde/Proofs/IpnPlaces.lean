import Vde.Ipn
import Mathlib.Data.List.Nodup

/-!
# Where the nodes of IPN networks are

A node is away, waits at a network, or has a port of it. The queues, the table and the count of a
network say where the nodes are, and the node itself says it again. A call moves one node at most, so
for each kind of move both sides are shown to follow.
-/

namespace Vde.Ipn

open List Function

/-! ## Places -/

def Node.connected (node : Node) : Bool :=
  match node.sock with
  | some st => st == .connected
  | none => decide (0 ≤ node.portno)

/-- A node is away, waits at a network it is bound to, has a port of one, or was left astray by an
interrupted `connect`: it has the network, which does not know of it. -/
inductive Place where
  | away
  | stray (k : Nat)
  | waiting (k : Nat)
  | port (k : Nat) (p : Int)

def Place.CountsAt (k : Nat) : Place → Prop
  | .waiting k' | .port k' _ => k' = k
  | _ => False

def Place.Refers (k : Nat) : Place → Prop
  | .away => False
  | .stray k' | .waiting k' | .port k' _ => k' = k

lemma Place.CountsAt.refers {k : Nat} {q : Place} (h : q.CountsAt k) : q.Refers k := by
  cases q with
  | away | stray => exact h.elim
  | waiting | port => exact h

def Node.place (node : Node) : Place :=
  match node.ipn with
  | none => .away
  | some k =>
    if node.connected then .port k node.portno
    else if node.bound then .waiting k
    else if node.closed then .away
    else .stray k

def State.place (s : State) (n : Nat) : Place :=
  match s.nodes n with
  | none => .away
  | some node => node.place

lemma Node.place_of_connected {node : Node} {k : Nat} (hk : node.ipn = some k) (hc : node.connected = true) :
    node.place = .port k node.portno := by
  rw [Node.place, hk]
  exact if_pos hc

lemma Node.place_of_bound {node : Node} {k : Nat} (hk : node.ipn = some k) (hc : node.connected = false)
    (hb : node.bound = true) : node.place = .waiting k := by
  simp [Node.place, hk, hc, hb]

lemma Node.place_of_none {node : Node} (h : node.ipn = none) : node.place = .away := by
  rw [Node.place, h]

lemma Node.ipn_of_refers {node : Node} {k : Nat} (h : node.place.Refers k) : node.ipn = some k := by
  unfold Node.place at h
  cases hk : node.ipn with
  | none =>
    rw [hk] at h
    exact h.elim
  | some k' =>
    simp only [hk] at h
    split_ifs at h <;> first | exact congrArg some h | exact h.elim

lemma Node.place_eq_port {node : Node} {k : Nat} {p : Int} (h : node.place = .port k p) :
    node.ipn = some k ∧ node.connected = true ∧ node.portno = p := by
  unfold Node.place at h
  cases hk : node.ipn with
  | none =>
    rw [hk] at h
    exact Place.noConfusion h
  | some k' =>
    simp only [hk] at h
    split_ifs at h with hc
    obtain ⟨hk', hp⟩ := Place.port.inj h
    exact ⟨congrArg some hk', hc, hp⟩

lemma State.place_setNode (s : State) (n : Nat) (node : Node) :
    (s.setNode n node).place = update s.place n node.place := by
  funext m
  by_cases h : m = n
  · subst h
    simp [State.place, State.setNode]
  · simp [State.place, State.setNode, h]

lemma State.place_freeNode (s : State) (n : Nat) : (s.freeNode n).place = update s.place n .away := by
  funext m
  by_cases h : m = n
  · subst h
    simp [State.place, State.freeNode]
  · simp [State.place, State.freeNode, h]

lemma State.place_eq {s : State} {n : Nat} {node : Node} (h : s.nodes n = some node) : s.place n = node.place := by
  rw [State.place, h]

/-! ## A network and the places of the nodes -/

structure NetOk (place : Nat → Place) (k : Nat) (w : Network) : Prop where
  conn : ∀ n, n ∈ w.connectqueue ↔ ∃ p, place n = .port k p
  wait : ∀ n, n ∈ w.unconnectqueue ↔ place n = .waiting k
  connNodup : w.connectqueue.Nodup
  waitNodup : w.unconnectqueue.Nodup
  slots : ∀ p n, w.connport p = some n ↔ place n = .port k p
  portLt : ∀ n p, place n = .port k p → 0 ≤ p ∧ p < w.maxports
  count : w.refcnt = w.connectqueue.length + w.unconnectqueue.length

lemma NetOk.congr {place place' : Nat → Place} {k : Nat} {w : Network} (h : NetOk place k w)
    (hp : ∀ n q, q.CountsAt k → (place' n = q ↔ place n = q)) : NetOk place' k w where
  conn n := by
    rw [h.conn n]
    exact exists_congr fun p => (hp n (.port k p) rfl).symm
  wait n := by rw [h.wait n, hp n (.waiting k) rfl]
  connNodup := h.connNodup
  waitNodup := h.waitNodup
  slots p n := by rw [h.slots p n, hp n (.port k p) rfl]
  portLt n p hn := h.portLt n p ((hp n (.port k p) rfl).1 hn)
  count := h.count

lemma NetOk.elsewhere {place : Nat → Place} {k n : Nat} {w : Network} {q : Place} (h : NetOk place k w)
    (hold : ¬(place n).CountsAt k) (hnew : ¬q.CountsAt k) : NetOk (update place n q) k w := by
  apply h.congr
  intro m r hr
  by_cases hm : m = n
  · rw [hm, update_self]
    constructor
    · intro hq
      exact absurd (hq ▸ hr) hnew
    intro hq
    exact absurd (hq ▸ hr) hold
  · rw [update_of_ne hm]

section Moves

variable {place : Nat → Place} {k n : Nat} {w : Network} (h : NetOk place k w)
include h

lemma NetOk.enqueue (hold : ¬(place n).CountsAt k) :
    NetOk (update place n (.waiting k)) k
      { w with refcnt := w.refcnt + 1, unconnectqueue := w.unconnectqueue ++ [n] } where
  conn m := by
    rw [h.conn m]
    by_cases hm : m = n
    · subst hm
      simp only [update_self, reduceCtorEq, exists_false, iff_false]
      rintro ⟨p, hp⟩
      exact hold (by rw [hp]; rfl)
    · rw [update_of_ne hm]
  wait m := by
    by_cases hm : m = n
    · simp [hm]
    · simp [hm, h.wait m]
  connNodup := h.connNodup
  waitNodup := by
    apply Nodup.append h.waitNodup (nodup_singleton n)
    intro m hm hn
    rw [mem_singleton.1 hn] at hm
    exact hold (by rw [(h.wait n).1 hm]; rfl)
  slots p m := by
    rw [h.slots p m]
    by_cases hm : m = n
    · subst hm
      simp only [update_self, reduceCtorEq, iff_false]
      intro hp
      exact hold (by rw [hp]; rfl)
    · rw [update_of_ne hm]
  portLt m p hm := by
    by_cases hmn : m = n
    · rw [hmn, update_self] at hm
      exact Place.noConfusion hm
    rw [update_of_ne hmn] at hm
    exact h.portLt m p hm
  count := by
    have := h.count
    simp only [length_append, length_singleton]
    omega

lemma NetOk.enter {p : Nat} (hold : ¬(place n).CountsAt k) (hp : p < w.maxports) (hfree : w.connport p = none) :
    NetOk (update place n (.port k p)) k
      { w with
        connport := update w.connport p (some n)
        refcnt := w.refcnt + 1
        connectqueue := w.connectqueue ++ [n] } where
  conn m := by
    by_cases hm : m = n
    · simp [hm]
    · simp [hm, h.conn m]
  wait m := by
    rw [h.wait m]
    by_cases hm : m = n
    · subst hm
      simp only [update_self, reduceCtorEq, iff_false]
      intro hq
      exact hold (by rw [hq]; rfl)
    · rw [update_of_ne hm]
  connNodup := by
    apply Nodup.append h.connNodup (nodup_singleton n)
    intro m hm hn
    rw [mem_singleton.1 hn] at hm
    obtain ⟨q, hq⟩ := (h.conn n).1 hm
    exact hold (by rw [hq]; rfl)
  waitNodup := h.waitNodup
  slots q m := by
    have hn : ∀ q : Nat, w.connport q ≠ some n := by
      intro q hq
      exact hold (by rw [(h.slots q n).1 hq]; rfl)
    dsimp only
    by_cases hq : q = p
    · subst hq
      rw [update_self]
      by_cases hm : m = n
      · simp [hm]
      have hne : w.connport q ≠ some m := by simp [hfree]
      rw [update_of_ne hm, ← h.slots q m]
      simp [hne, Ne.symm hm]
    rw [update_of_ne hq]
    by_cases hm : m = n
    · subst hm
      simp only [hn q, update_self, Place.port.injEq, true_and, false_iff]
      omega
    · rw [update_of_ne hm, h.slots q m]
  portLt m q hm := by
    by_cases hmn : m = n
    · rw [hmn, update_self] at hm
      have hq := (Place.port.inj hm).2
      dsimp only
      omega
    rw [update_of_ne hmn] at hm
    exact h.portLt m q hm
  count := by
    have := h.count
    simp only [length_append, length_singleton]
    omega

lemma NetOk.leave {connport : Nat → Option Nat} (hold : (place n).CountsAt k)
    (hcp : ∀ p m, connport p = some m ↔ w.connport p = some m ∧ m ≠ n) :
    NetOk (update place n .away) k { w.listDel n with connport := connport, refcnt := w.refcnt - 1 } where
  conn m := by
    by_cases hm : m = n
    · simp [Network.listDel, hm, h.connNodup.mem_erase_iff]
    · simp [Network.listDel, hm, h.connNodup.mem_erase_iff, h.conn m]
  wait m := by
    by_cases hm : m = n
    · simp [Network.listDel, hm, h.waitNodup.mem_erase_iff]
    · simp [Network.listDel, hm, h.waitNodup.mem_erase_iff, h.wait m]
  connNodup := h.connNodup.erase n
  waitNodup := h.waitNodup.erase n
  slots p m := by
    rw [hcp p m]
    by_cases hm : m = n
    · simp [hm]
    · simp [hm, h.slots p m]
  portLt m p hm := by
    by_cases hmn : m = n
    · rw [hmn, update_self] at hm
      exact Place.noConfusion hm
    rw [update_of_ne hmn] at hm
    exact h.portLt m p hm
  count := by
    have hcount := h.count
    cases hn : place n with
    | away | stray =>
      rw [hn] at hold
      exact hold.elim
    | waiting k' =>
      rw [hn] at hold
      have hw : n ∈ w.unconnectqueue := (h.wait n).2 (by rw [hn]; exact congrArg _ hold)
      have hc : n ∉ w.connectqueue := by
        intro hc
        obtain ⟨p, hp⟩ := (h.conn n).1 hc
        rw [hp] at hn
        exact Place.noConfusion hn
      have hpos := length_pos_of_mem hw
      simp only [Network.listDel, erase_of_not_mem hc, length_erase_of_mem hw]
      omega
    | port k' p =>
      rw [hn] at hold
      have hc : n ∈ w.connectqueue := (h.conn n).2 ⟨p, by rw [hn, hold]⟩
      have hw : n ∉ w.unconnectqueue := by
        intro hw
        rw [(h.wait n).1 hw] at hn
        exact Place.noConfusion hn
      have hpos := length_pos_of_mem hc
      simp only [Network.listDel, erase_of_not_mem hw, length_erase_of_mem hc]
      omega

lemma NetOk.resize {connport : Nat → Option Nat} {size : Nat} (hcp : ∀ p, connport p = w.connport p)
    (hsize : ∀ p m, w.connport p = some m → p < size) :
    NetOk place k { w with connport := connport, maxports := size } where
  conn := h.conn
  wait := h.wait
  connNodup := h.connNodup
  waitNodup := h.waitNodup
  slots p m := by
    dsimp only
    rw [hcp p, h.slots p m]
  portLt m p hm := by
    have hp := (h.portLt m p hm).1
    have hslot := hsize p.toNat m ((h.slots p.toNat m).2 (by rw [Int.toNat_of_nonneg hp]; exact hm))
    dsimp only
    omega
  count := h.count

lemma NetOk.slot_lt {p m : Nat} (hm : w.connport p = some m) : p < w.maxports := by
  have := (h.portLt m p ((h.slots p m).1 hm)).2
  omega

end Moves

lemma NetOk.listDel_eq {place : Nat → Place} {k n : Nat} {w : Network} (h : NetOk place k w)
    (hold : ¬(place n).CountsAt k) : w.listDel n = w := by
  have hconn : n ∉ w.connectqueue := by
    intro hn
    obtain ⟨p, hp⟩ := (h.conn n).1 hn
    exact hold (by rw [hp]; rfl)
  have hwait : n ∉ w.unconnectqueue := by
    intro hn
    exact hold (by rw [(h.wait n).1 hn]; rfl)
  rw [Network.listDel, erase_of_not_mem hconn, erase_of_not_mem hwait]

lemma netOk_newNetwork {place : Nat → Place} {k : Nat} (protocol : Nat) (parms : PreBindParms)
    (h : ∀ n, ¬(place n).Refers k) : NetOk place k (newNetwork protocol parms) where
  conn n := by
    simp only [newNetwork, not_mem_nil, false_iff, not_exists]
    intro p hp
    exact h n (by rw [hp]; rfl)
  wait n := by
    simp only [newNetwork, not_mem_nil, false_iff]
    intro hp
    exact h n (by rw [hp]; rfl)
  connNodup := nodup_nil
  waitNodup := nodup_nil
  slots p n := by
    simp only [newNetwork, reduceCtorEq, false_iff]
    intro hp
    exact h n (by rw [hp]; rfl)
  portLt n p hp := absurd (by rw [hp]; rfl) (h n)
  count := rfl

/-! ## The invariant -/

def Node.Fresh (node : Node) : Prop :=
  node.closed = false → node.ipn = none → node.sock = some .unconnected ∧ node.bound = false

structure Inv (s : State) : Prop where
  fault : s.fault = false
  net : ∀ k w, s.nets k = some w → NetOk s.place k w
  live : ∀ n k, (s.place n).Refers k → s.nets k ≠ none
  fresh : ∀ n node, s.nodes n = some node → node.Fresh

lemma Node.refers_of_open {node : Node} {k : Nat} (hk : node.ipn = some k) (hopen : node.closed = false) :
    node.place.Refers k := by
  rw [Node.place, hk]
  simp only [hopen, Bool.false_eq_true, if_false]
  split_ifs <;> exact rfl

lemma State.refers_eq {s : State} {n k : Nat} {node : Node} (hn : s.nodes n = some node) (hk : node.ipn = some k)
    {k' : Nat} (h : (s.place n).Refers k') : k' = k := by
  rw [State.place_eq hn] at h
  exact Option.some.inj ((Node.ipn_of_refers h).symm.trans hk)

lemma Inv.net_of_open {s : State} (h : Inv s) {n k : Nat} {node : Node} (hn : s.nodes n = some node)
    (hopen : node.closed = false) (hk : node.ipn = some k) : ∃ w, s.nets k = some w := by
  have hrefers : (s.place n).Refers k := by
    rw [State.place_eq hn]
    exact Node.refers_of_open hk hopen
  exact Option.ne_none_iff_exists'.1 (h.live n k hrefers)

lemma Inv.move {s s' : State} {n k : Nat} {q : Place} (h : Inv s) (hfault : s'.fault = s.fault)
    (hplace : s'.place = update s.place n q) (hold : ∀ k', (s.place n).Refers k' → k' = k)
    (hnew : ∀ k', q.Refers k' → k' = k) (hnets : ∀ k', k' ≠ k → s'.nets k' = s.nets k')
    (hnet : ∀ w, s'.nets k = some w → NetOk (update s.place n q) k w)
    (hlive : ∀ m, (s'.place m).Refers k → s'.nets k ≠ none)
    (hnodes : ∀ m node, s'.nodes m = some node → s.nodes m = some node ∨ node.Fresh) : Inv s' where
  fault := hfault.trans h.fault
  net k' w hw := by
    rw [hplace]
    by_cases hk : k' = k
    · subst hk
      exact hnet w hw
    rw [hnets k' hk] at hw
    apply (h.net k' w hw).elsewhere
    · intro hc
      exact hk (hold k' hc.refers)
    intro hc
    exact hk (hnew k' hc.refers)
  live m k' hm := by
    by_cases hk : k' = k
    · subst hk
      exact hlive m hm
    rw [hnets k' hk]
    apply h.live m k'
    rw [hplace] at hm
    by_cases hmn : m = n
    · rw [hmn, update_self] at hm
      exact absurd (hnew k' hm) hk
    rw [update_of_ne hmn] at hm
    exact hm
  fresh m node hm := by
    cases hnodes m node hm with
    | inl hold => exact h.fresh m node hold
    | inr hnew => exact hnew

section

variable {s : State} {n k : Nat} {node : Node}

lemma nodes_of_setNode {m : Nat} {node' : Node} (hm : (s.setNode n node).nodes m = some node') :
    m = n ∧ node' = node ∨ s.nodes m = some node' := by
  by_cases hmn : m = n
  · subst hmn
    left
    simp only [State.setNode, update_self, Option.some.injEq] at hm
    exact ⟨rfl, hm.symm⟩
  right
  simpa [State.setNode, hmn] using hm

lemma nodes_of_freeNode {m : Nat} {node' : Node} (hm : (s.freeNode n).nodes m = some node') :
    s.nodes m = some node' := by
  by_cases hmn : m = n
  · subst hmn
    simp [State.freeNode] at hm
  · simpa [State.freeNode, hmn] using hm

section

variable (h : Inv s) (hfresh : node.Fresh)

include h hfresh

lemma Inv.setNode (hcounts : ∀ k q, q.CountsAt k → (node.place = q ↔ s.place n = q))
    (hlive : ∀ k, node.place.Refers k → s.nets k ≠ none) : Inv (s.setNode n node) where
  fault := h.fault
  net k w hw := by
    apply (h.net k w hw).congr
    intro m q hq
    rw [State.place_setNode]
    by_cases hm : m = n
    · rw [hm, update_self]
      exact hcounts k q hq
    · rw [update_of_ne hm]
  live m k hm := by
    rw [State.place_setNode] at hm
    by_cases hmn : m = n
    · rw [hmn, update_self] at hm
      exact hlive k hm
    rw [update_of_ne hmn] at hm
    exact h.live m k hm
  fresh m node' hm := by
    cases nodes_of_setNode hm with
    | inl heq =>
      rw [heq.2]
      exact hfresh
    | inr hold => exact h.fresh m node' hold

lemma Inv.setNode_same (hplace : node.place = s.place n) : Inv (s.setNode n node) := by
  apply h.setNode hfresh
  · intro k q _
    rw [hplace]
  intro k hk
  rw [hplace] at hk
  exact h.live n k hk

lemma Inv.setNode_stray {w : Network} (hold : s.place n = .away)
    (hw : s.nets k = some w) (hplace : node.place = .stray k) : Inv (s.setNode n node) := by
  apply h.setNode hfresh
  · intro k' q hq
    rw [hold, hplace]
    cases q with
    | away | stray => exact hq.elim
    | waiting | port => simp
  intro k' hk
  rw [hplace] at hk
  rw [← show k = k' from hk, hw]
  exact Option.some_ne_none w

lemma Inv.setBoth {w : Network} (hold : ∀ k', (s.place n).Refers k' → k' = k)
    (hnew : ∀ k', node.place.Refers k' → k' = k) (hnet : NetOk (update s.place n node.place) k w) :
    Inv ((s.setNet k w).setNode n node) := by
  have hmoved : ((s.setNet k w).setNode n node).place = update s.place n node.place :=
    State.place_setNode (s.setNet k w) n node
  apply h.move (k := k) (State.setNode_fault (s.setNet k w) n node) hmoved
  · exact hold
  · exact hnew
  · intro k' hk
    simp [hk]
  · intro w' hw'
    rw [← (by simpa using hw' : w = w')]
    exact hnet
  · intro m _
    simp
  · intro m node' hm
    cases nodes_of_setNode hm with
    | inl heq =>
      right
      rw [heq.2]
      exact hfresh
    | inr hold => exact .inl hold

end

lemma Inv.setNet {w : Network} (h : Inv s) (hnet : NetOk s.place k w) : Inv (s.setNet k w) where
  fault := h.fault
  net k' w' hw' := by
    by_cases hk : k' = k
    · subst hk
      rw [← (by simpa using hw' : w = w')]
      exact hnet
    · exact h.net k' w' (by simpa [hk] using hw')
  live m k' hm := by
    by_cases hk : k' = k
    · simp [hk]
    · simpa [hk] using h.live m k' hm
  fresh := h.fresh

lemma Inv.freeNode (h : Inv s) (hplace : s.place n = .away) : Inv (s.freeNode n) := by
  have hsame : (s.freeNode n).place = s.place := by
    rw [State.place_freeNode, ← hplace, update_eq_self]
  exact {
    fault := h.fault
    net := by
      rw [hsame]
      exact h.net
    live := by
      rw [hsame]
      exact h.live
    fresh := fun m node' hm => h.fresh m node' (nodes_of_freeNode hm) }

lemma Inv.leave {w : Network} (h : Inv s) (hold : ∀ k', (s.place n).Refers k' → k' = k)
    (hnet : NetOk (update s.place n .away) k w) : Inv ((s.setNet k w).freeNode n) := by
  have hmoved : ((s.setNet k w).freeNode n).place = update s.place n .away :=
    State.place_freeNode (s.setNet k w) n
  apply h.move (k := k) (State.freeNode_fault (s.setNet k w) n) hmoved
  · exact hold
  · exact fun _ hk => hk.elim
  · intro k' hk
    simp [hk]
  · intro w' hw'
    rw [← (by simpa using hw' : w = w')]
    exact hnet
  · intro m _
    simp
  · exact fun m node' hm => .inl (nodes_of_freeNode hm)

lemma Inv.leave_last (h : Inv s) (hold : ∀ k', (s.place n).Refers k' → k' = k)
    (hlast : ∀ m, m ≠ n → ¬(s.place m).Refers k) : Inv ((s.freeNet k).freeNode n) := by
  have hmoved : ((s.freeNet k).freeNode n).place = update s.place n .away :=
    State.place_freeNode (s.freeNet k) n
  apply h.move (k := k) (State.freeNode_fault (s.freeNet k) n) hmoved
  · exact hold
  · exact fun _ hk => hk.elim
  · intro k' hk
    simp [hk]
  · intro w' hw'
    simp at hw'
  · intro m hm
    rw [hmoved] at hm
    by_cases hmn : m = n
    · rw [hmn, update_self] at hm
      exact hm.elim
    rw [update_of_ne hmn] at hm
    exact absurd hm (hlast m hmn)
  · exact fun m node' hm => .inl (nodes_of_freeNode hm)

end

end Vde.Ipn
