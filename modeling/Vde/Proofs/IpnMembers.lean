import Mathlib.Data.Set.Card
import Vde.IpnNetdev

/-!
# Who belongs to an IPN network

A network counts the nodes that have it, and each of them is in one of its two queues; the network is in the
table as long as it has a node or a persistent device. That is so as long as no call is interrupted between
the field of the node and the network, and no socket joins a device.
-/

namespace Vde.Ipn

open List Function
open Option hiding or_assoc

/-! ## The claims -/

def State.ipnOf (s : State) (n : Nat) : Option Nat := (s.nodes n).bind Node.ipn

def State.members (s : State) (k : Nat) : Set Nat := { n | ∃ node, s.nodes n = some node ∧ node.ipn = some k }

/-- What the count and the queues of every network should say, and which networks there are. -/
structure MembersRight (s : State) : Prop where
  count : ∀ k w, s.nets k = some w → (s.members k).Finite ∧ w.refcnt = (s.members k).ncard
  once : ∀ k w, s.nets k = some w → ∀ n ∈ s.members k,
    w.connectqueue.count n + w.unconnectqueue.count n = 1
  live : ∀ k w, s.nets k = some w → ∀ n, n ∈ w.connectqueue ∨ n ∈ w.unconnectqueue → n ∈ s.members k
  table : ∀ k n, n ∈ s.members k → s.nets k ≠ none
  kept : ∀ k w, s.nets k = some w → w.refcnt = 0 → ipnIsPersistentChrdev w = true

/-- A network goes with its last node, unless its device is persistent. -/
def RemovedRight (s s' : State) : Prop :=
  ∀ k w, s.nets k = some w → (s'.nets k = none ↔ s'.members k = ∅ ∧ ipnIsPersistentChrdev w = false)

/-! ## The steps that are right -/

def TerminateOk (s : State) (n : Nat) : Prop :=
  ∀ node k w, s.nodes n = some node → node.ipn = some k → s.nets k = some w → node.portno < w.maxports

def ClearOk (d : DevState) (m : Nat) (persist netLock : Bool) : Prop :=
  persist = false → d.inUse m = false → netLock = true → TerminateOk d.ipn m

def DevIoctl.Ok (d : DevState) (n : Nat) (node : Node) : DevIoctl → Prop
  | .setpersistNetdev value capable lock netLock dev => capable = true → lock = true →
      ∀ m, dev = some m → ClearOk d m value netLock
  | .setpersist arg lock netLock => node.ipn ≠ none → node.netdev = true → lock = true → ClearOk d n arg netLock
  | .joinNetdev lock netLock dev => node.sock = some .unconnected → lock = true → netLock = true →
      ∀ k w, node.ipn = some k → d.ipn.nets k = some w → w.terminated = false →
      ∀ m, dev = some m → ∀ i < w.maxports, w.connport i ≠ some m

/-- No `connect` of an unbound socket and no open of a device gets the first semaphore and not the second,
no socket joins a device, and no node goes with a port number beyond the table. -/
def MembersOk (d : DevState) : DevEvent → Prop
  | .call (.connect n true false path) => ∀ node, d.ipn.nodes n = some node → node.sock = some .unconnected →
      node.ipn = none → ∀ k node', ipnConnectPath d.ipn node path ≠ (.ok k, node')
  | .call (.chrdevOpen _ _ modeRead modeWrite mayRead mayWrite alloc locks _) =>
    (modeRead = false ∨ mayRead = -EACCES ∨ mayRead = -EROFS) ∧ (modeWrite = false ∨ mayWrite = -EACCES) ∨
      alloc = false ∨ locks.lock = false ∨ locks.netLock = true
  | .call (.release n true true) => d.persist n = false → TerminateOk d.ipn n
  | .ioctl n req => ∀ node, d.ipn.nodes n = some node → node.shutdown ≠ SHUTDOWN_XMASK → req.Ok d n node
  | _ => True

/-! ## A network and its nodes -/

def Network.members (w : Network) : List Nat := w.connectqueue ++ w.unconnectqueue

structure NetCount (ipnOf : Nat → Option Nat) (k : Nat) (w : Network) : Prop where
  nodup : w.members.Nodup
  mem : ∀ n, n ∈ w.members ↔ ipnOf n = some k
  count : w.refcnt = w.members.length

structure Node.Sound (node : Node) : Prop where
  unbound : node.ipn = none → node.bound = false
  bound : node.ipn ≠ none → node.sock = some .unconnected → node.bound = true

structure Members (s : State) : Prop where
  net : ∀ k w, s.nets k = some w → NetCount s.ipnOf k w
  kept : ∀ k w, s.nets k = some w → w.members = [] → ipnIsPersistentChrdev w = true
  table : ∀ n k, s.ipnOf n = some k → s.nets k ≠ none
  sound : ∀ n node, s.nodes n = some node → node.Sound

lemma mem_members {s : State} {n k : Nat} : n ∈ s.members k ↔ s.ipnOf n = some k := by
  rw [State.ipnOf, bind_eq_some_iff]
  exact Iff.rfl

lemma State.ipnOf_eq {s : State} {n : Nat} {node : Node} (hn : s.nodes n = some node) : s.ipnOf n = node.ipn := by
  rw [State.ipnOf, hn, Option.bind_some]

lemma ipnOf_setNode (s : State) (n : Nat) (node : Node) : (s.setNode n node).ipnOf = update s.ipnOf n node.ipn := by
  funext m
  by_cases hm : m = n
  · subst hm
    simp [State.ipnOf]
  · simp [State.ipnOf, hm]

lemma ipnOf_freeNode (s : State) (n : Nat) : (s.freeNode n).ipnOf = update s.ipnOf n none := by
  funext m
  by_cases hm : m = n
  · subst hm
    simp [State.ipnOf]
  · simp [State.ipnOf, hm]

lemma membersRight_of_members {s : State} (h : Members s) : MembersRight s := by
  have hset : ∀ k w, s.nets k = some w → s.members k = {n | n ∈ w.members} := by
    intro k w hw
    ext n
    rw [mem_members]
    exact ((h.net k w hw).mem n).symm
  have hcard : ∀ k w, s.nets k = some w → s.members k = (w.members.toFinset : Set Nat) := by
    intro k w hw
    rw [hset k w hw, coe_toFinset]
  constructor
  · intro k w hw
    rw [hcard k w hw, Set.ncard_coe_finset, toFinset_card_of_nodup (h.net k w hw).nodup]
    exact ⟨Finset.finite_toSet _, (h.net k w hw).count⟩
  · intro k w hw n hn
    rw [← count_append]
    rw [hset k w hw] at hn
    exact count_eq_one_of_mem (h.net k w hw).nodup hn
  · intro k w hw n hn
    rw [hset k w hw]
    exact mem_append.2 hn
  · intro k n hn
    exact h.table n k (mem_members.1 hn)
  · intro k w hw hzero
    apply h.kept k w hw
    apply eq_nil_of_length_eq_zero
    have := (h.net k w hw).count
    omega

section

variable {ipnOf : Nat → Option Nat} {k n : Nat} {w : Network}

lemma members_listDel (hnodup : w.members.Nodup) : (w.listDel n).members = w.members.erase n := by
  unfold Network.members at hnodup ⊢
  rw [erase_append]
  unfold Network.listDel
  by_cases hn : n ∈ w.connectqueue
  · rw [if_pos hn, erase_of_not_mem (l := w.unconnectqueue)]
    exact disjoint_of_nodup_append hnodup hn
  · rw [if_neg hn, erase_of_not_mem hn]

lemma members_requeue (hnodup : w.members.Nodup) (hn : n ∈ w.members) (connport : Nat → Option Nat) :
    ({ w.listDel n with
      connport := connport
      connectqueue := (w.listDel n).connectqueue ++ [n] } : Network).members.Perm w.members := by
  have hmiddle : ({ w.listDel n with
      connport := connport
      connectqueue := (w.listDel n).connectqueue ++ [n] } : Network).members.Perm (n :: (w.listDel n).members) := by
    unfold Network.members
    rw [append_assoc]
    exact perm_middle
  rw [members_listDel hnodup] at hmiddle
  exact hmiddle.trans (perm_cons_erase hn).symm

lemma NetCount.congr {ipnOf' : Nat → Option Nat} {w' : Network} (h : NetCount ipnOf k w)
    (hmembers : w'.members.Perm w.members) (hcount : w'.refcnt = w.refcnt)
    (hipn : ∀ m, ipnOf' m = some k ↔ ipnOf m = some k) : NetCount ipnOf' k w' where
  nodup := hmembers.nodup_iff.2 h.nodup
  mem m := by rw [hmembers.mem_iff, h.mem m, hipn m]
  count := by rw [hcount, hmembers.length_eq, h.count]

lemma NetCount.enter {w' : Network} (h : NetCount ipnOf k w) (hn : ipnOf n ≠ some k)
    (hmembers : w'.members.Perm (n :: w.members)) (hcount : w'.refcnt = w.refcnt + 1) :
    NetCount (update ipnOf n (some k)) k w' where
  nodup := by
    rw [hmembers.nodup_iff, nodup_cons, h.mem n]
    exact ⟨hn, h.nodup⟩
  mem m := by
    rw [hmembers.mem_iff, mem_cons, h.mem m]
    by_cases hm : m = n
    · simp [hm]
    · simp [hm]
  count := by
    have := h.count
    rw [hcount, hmembers.length_eq, length_cons]
    omega

lemma NetCount.leave {w' : Network} (h : NetCount ipnOf k w) (hn : ipnOf n = some k)
    (hmembers : w'.members = w.members.erase n) (hcount : w'.refcnt = w.refcnt - 1) :
    NetCount (update ipnOf n none) k w' where
  nodup := by
    rw [hmembers]
    exact h.nodup.erase n
  mem m := by
    rw [hmembers, h.nodup.mem_erase_iff, h.mem m]
    by_cases hm : m = n
    · simp [hm]
    · simp [hm]
  count := by
    have hmem := (h.mem n).2 hn
    have hpos := length_pos_of_mem hmem
    have := h.count
    rw [hcount, hmembers, length_erase_of_mem hmem]
    omega

end

/-! ## Kinds of steps -/

structure Counted (s s' : State) : Prop where
  members : Members s'
  removed : RemovedRight s s'

lemma Members.not_removable {s : State} (h : Members s) {k : Nat} {w : Network} (hw : s.nets k = some w) :
    ¬(s.members k = ∅ ∧ ipnIsPersistentChrdev w = false) := by
  rintro ⟨hempty, hpersistent⟩
  have hnil : w.members = [] := by
    apply eq_nil_iff_forall_not_mem.2
    intro n hn
    have hmem := mem_members.2 (((h.net k w hw).mem n).1 hn)
    rw [hempty] at hmem
    exact hmem
  rw [h.kept k w hw hnil] at hpersistent
  cases hpersistent

section

variable {s s' : State} {n k : Nat} {node : Node} {w w' : Network}

lemma sound_setNode (h : ∀ m node', s.nodes m = some node' → node'.Sound) (hnode : node.Sound) :
    ∀ m node', (s.setNode n node).nodes m = some node' → node'.Sound := by
  intro m node' hm
  cases nodes_of_setNode hm with
  | inl heq =>
    rw [heq.2]
    exact hnode
  | inr hold => exact h m node' hold

lemma counted_stays (h : Members s) (hipn : s'.ipnOf = s.ipnOf)
    (hnets : ∀ k, s'.nets k = s.nets k ∨ ∃ w w', s.nets k = some w ∧ s'.nets k = some w' ∧
      w'.members.Perm w.members ∧ w'.refcnt = w.refcnt ∧
      (w.members = [] → ipnIsPersistentChrdev w' = ipnIsPersistentChrdev w))
    (hsound : ∀ m node', s'.nodes m = some node' → node'.Sound) : Counted s s' := by
  have hlive : ∀ k, s.nets k ≠ none → s'.nets k ≠ none := by
    intro k hk
    cases hnets k with
    | inl hsame => rwa [hsame]
    | inr hkeeps =>
      obtain ⟨w, w', hw, hw', _⟩ := hkeeps
      rw [hw']
      exact some_ne_none w'
  constructor
  · constructor
    · intro k w' hw'
      rw [hipn]
      cases hnets k with
      | inl hsame =>
        rw [hsame] at hw'
        exact h.net k w' hw'
      | inr hkeeps =>
        obtain ⟨w, w'', hw, hw'', hmembers, hcount, _⟩ := hkeeps
        rw [some.inj (hw'.symm.trans hw'')]
        exact (h.net k w hw).congr hmembers hcount fun _ => Iff.rfl
    · intro k w' hw' hnil
      cases hnets k with
      | inl hsame =>
        rw [hsame] at hw'
        exact h.kept k w' hw' hnil
      | inr hkeeps =>
        obtain ⟨w, w'', hw, hw'', hmembers, _, hpersistent⟩ := hkeeps
        rw [some.inj (hw'.symm.trans hw'')] at hnil ⊢
        have hnil' : w.members = [] := (hnil ▸ hmembers).nil_eq.symm
        rw [hpersistent hnil']
        exact h.kept k w hw hnil'
    · intro m k hm
      rw [hipn] at hm
      exact hlive k (h.table m k hm)
    · exact hsound
  intro k w hw
  have hmembers : s'.members k = s.members k := by
    ext m
    rw [mem_members, mem_members, hipn]
  rw [hmembers]
  constructor
  · intro hgone
    exact absurd hgone (hlive k (by rw [hw]; exact some_ne_none w))
  intro hremovable
  exact absurd hremovable (h.not_removable hw)

lemma counted_refl (h : Members s) : Counted s s :=
  counted_stays h rfl (fun _ => .inl rfl) h.sound

lemma counted_setNode (h : Members s) (hipn : node.ipn = s.ipnOf n) (hsound : node.Sound) :
    Counted s (s.setNode n node) := by
  apply counted_stays h
  · rw [ipnOf_setNode, hipn, update_eq_self]
  · exact fun _ => .inl rfl
  · exact sound_setNode h.sound hsound

lemma counted_setBoth (h : Members s) (hw : s.nets k = some w) (hipn : node.ipn = s.ipnOf n) (hsound : node.Sound)
    (hmembers : w'.members.Perm w.members) (hcount : w'.refcnt = w.refcnt) (hchrdev : w'.chrdev = w.chrdev) :
    Counted s ((s.setNet k w').setNode n node) := by
  apply counted_stays h
  · rw [ipnOf_setNode, hipn]
    exact update_eq_self n s.ipnOf
  · intro j
    by_cases hj : j = k
    · subst hj
      right
      refine ⟨w, w', hw, by simp, hmembers, hcount, fun _ => ?_⟩
      rw [ipnIsPersistentChrdev, ipnIsPersistentChrdev, hchrdev]
    · exact .inl (by simp [hj])
  · exact sound_setNode h.sound hsound

lemma counted_setNet (h : Members s) (hw : s.nets k = some w) (hmembers : w'.members = w.members)
    (hcount : w'.refcnt = w.refcnt) (hpersistent : w'.chrdev = w.chrdev ∨ s.ipnOf n = some k) :
    Counted s (s.setNet k w') := by
  apply counted_stays h
  · rfl
  · intro j
    by_cases hj : j = k
    · subst hj
      right
      refine ⟨w, w', hw, by simp, Perm.of_eq hmembers, hcount, fun hnil => ?_⟩
      cases hpersistent with
      | inl hchrdev => rw [ipnIsPersistentChrdev, ipnIsPersistentChrdev, hchrdev]
      | inr hmember =>
        have hmem := ((h.net j w hw).mem n).2 hmember
        rw [hnil] at hmem
        exact absurd hmem not_mem_nil
    · exact .inl (by simp [hj])
  · exact h.sound

lemma counted_enters (h : Members s) (hw : NetCount s.ipnOf k w) (hn : s.ipnOf n = none) (hipn : node.ipn = some k)
    (hsound : node.Sound) (hmembers : w'.members.Perm (n :: w.members)) (hcount : w'.refcnt = w.refcnt + 1) :
    Counted s ((s.setNet k w').setNode n node) := by
  have hipnOf : ((s.setNet k w').setNode n node).ipnOf = update s.ipnOf n (some k) := by
    rw [ipnOf_setNode, hipn]
    rfl
  have hother : ∀ j, j ≠ k → ∀ m, update s.ipnOf n (some k) m = some j ↔ s.ipnOf m = some j := by
    intro j hj m
    by_cases hm : m = n
    · simp [hm, hn, Ne.symm hj]
    · simp [hm]
  constructor
  · constructor
    · intro j v hv
      rw [hipnOf]
      by_cases hj : j = k
      · subst hj
        rw [← (by simpa using hv : w' = v)]
        exact hw.enter (by simp [hn]) hmembers hcount
      · exact (h.net j v (by simpa [hj] using hv)).congr (Perm.refl _) rfl (hother j hj)
    · intro j v hv hnil
      by_cases hj : j = k
      · subst hj
        rw [← (by simpa using hv : w' = v)] at hnil
        rw [hnil] at hmembers
        exact absurd hmembers.length_eq (by simp)
      · exact h.kept j v (by simpa [hj] using hv) hnil
    · intro m j hm
      by_cases hj : j = k
      · simp [hj]
      rw [hipnOf, hother j hj] at hm
      simpa [hj] using h.table m j hm
    · exact sound_setNode h.sound hsound
  intro j v hv
  by_cases hj : j = k
  · subst hj
    constructor
    · intro hgone
      simp at hgone
    intro hempty
    have hmem : n ∈ ((s.setNet j w').setNode n node).members j := by
      rw [mem_members, hipnOf, update_self]
    rw [hempty.1] at hmem
    exact hmem.elim
  have hset : ((s.setNet k w').setNode n node).members j = s.members j := by
    ext m
    rw [mem_members, mem_members, hipnOf, hother j hj]
  rw [hset]
  constructor
  · intro hgone
    simp [hj, hv] at hgone
  intro hremovable
  exact absurd hremovable (h.not_removable hv)

lemma counted_leaves {net : Option Network} (h : Members s) (hw : s.nets k = some w) (hn : s.ipnOf n = some k)
    (hmembers : w'.members = w.members.erase n) (hcount : w'.refcnt = w.refcnt - 1) (hchrdev : w'.chrdev = w.chrdev)
    (hnet : net = if w'.refcnt = 0 ∧ !ipnIsPersistentChrdev w' then none else some w')
    (hipnOf : s'.ipnOf = update s.ipnOf n none) (hnets : s'.nets = update s.nets k net)
    (hnodes : ∀ m node', s'.nodes m = some node' → s.nodes m = some node') : Counted s s' := by
  have hleft : NetCount s'.ipnOf k w' := by
    rw [hipnOf]
    exact (h.net k w hw).leave hn hmembers hcount
  have hother : ∀ j, j ≠ k → ∀ m, s'.ipnOf m = some j ↔ s.ipnOf m = some j := by
    intro j hj m
    rw [hipnOf]
    by_cases hm : m = n
    · simp [hm, hn, Ne.symm hj]
    · simp [hm]
  have hempty : w'.refcnt = 0 ↔ w'.members = [] := by
    rw [hleft.count, ← length_eq_zero_iff]
    omega
  have hset : s'.members k = ∅ ↔ w'.refcnt = 0 := by
    rw [hempty, Set.eq_empty_iff_forall_notMem, eq_nil_iff_forall_not_mem]
    apply forall_congr'
    intro m
    rw [mem_members, hleft.mem m]
  have hpersistent : ipnIsPersistentChrdev w' = ipnIsPersistentChrdev w := by
    rw [ipnIsPersistentChrdev, ipnIsPersistentChrdev, hchrdev]
  constructor
  · constructor
    · intro j v hv
      by_cases hj : j = k
      · subst hj
        rw [hnets, update_self, hnet] at hv
        split_ifs at hv
        rw [← some.inj hv]
        exact hleft
      rw [hnets, update_of_ne hj] at hv
      exact (h.net j v hv).congr (Perm.refl _) rfl (hother j hj)
    · intro j v hv hnil
      by_cases hj : j = k
      · subst hj
        rw [hnets, update_self, hnet] at hv
        split_ifs at hv with hlast
        rw [← some.inj hv] at hnil ⊢
        have hzero := hempty.2 hnil
        simpa [hzero] using hlast
      rw [hnets, update_of_ne hj] at hv
      exact h.kept j v hv hnil
    · intro m j hm
      by_cases hj : j = k
      · subst hj
        have hmem := (hleft.mem m).2 hm
        have hpos : w'.refcnt ≠ 0 := by
          intro hzero
          rw [hempty.1 hzero] at hmem
          exact not_mem_nil hmem
        rw [hnets, update_self, hnet, if_neg fun hlast => hpos hlast.1]
        exact some_ne_none w'
      rw [hnets, update_of_ne hj]
      exact h.table m j ((hother j hj m).1 hm)
    · exact fun m node' hm => h.sound m node' (hnodes m node' hm)
  · intro j v hv
    by_cases hj : j = k
    · subst hj
      have hv := some.inj (hv.symm.trans hw)
      rw [hnets, update_self, hnet, hset, hv, ← hpersistent]
      constructor
      · intro hgone
        split_ifs at hgone with hlast
        exact ⟨hlast.1, by simpa using hlast.2⟩
      rintro ⟨hzero, hfalse⟩
      rw [if_pos ⟨hzero, by simp [hfalse]⟩]
    have hsame : s'.members j = s.members j := by
      ext m
      rw [mem_members, mem_members, hother j hj]
    rw [hsame, hnets, update_of_ne hj, hv]
    constructor
    · intro hgone
      exact absurd hgone (some_ne_none v)
    intro hremovable
    exact absurd hremovable (h.not_removable hv)

end

/-! ## The calls -/

lemma Counted.wild {s s' : State} (h : Counted s s') : Counted s s'.wild :=
  ⟨⟨h.members.net, h.members.kept, h.members.table, h.members.sound⟩, h.removed⟩

variable {lock netLock : Bool}

section

variable {s : State} {n k : Nat} {node : Node} {w : Network}

section

variable (h : Members s)

include h

lemma Members.net_of_ipn (hn : s.nodes n = some node) (hk : node.ipn = some k) : ∃ w, s.nets k = some w := by
  have hipn : s.ipnOf n = some k := by rw [State.ipnOf_eq hn, hk]
  exact ne_none_iff_exists'.1 (h.table n k hipn)

lemma netCount_new (hk : s.nets k = none) (protocol : Nat) (parms : PreBindParms) :
    NetCount s.ipnOf k (newNetwork protocol parms) where
  nodup := nodup_nil
  mem m := by
    constructor
    · intro hm
      exact absurd hm not_mem_nil
    intro hm
    exact absurd hk (h.table m k hm)
  count := rfl

/-! ### Sockets, bind and connect -/

lemma ipnCreate_counted (hn : s.nodes n = none) (protocol : Int) (registered : Bool) :
    Counted s (ipnCreate s n protocol registered).2 := by
  unfold ipnCreate
  generalize (if 0 < protocol then protocol - 1 else IPN_BROADCAST - 1) = protocol
  dsimp only
  split_ifs
  · exact counted_refl h
  apply counted_setNode h
  · rw [State.ipnOf, hn]
    rfl
  · exact ⟨fun _ => rfl, fun hipn => absurd rfl hipn⟩

lemma counted_binds (hw : NetCount s.ipnOf k w) (hn : s.nodes n = some node)
    (hipn : node.ipn = none) (pbp : Option PreBindParms) :
    Counted s ((s.setNet k { w with refcnt := w.refcnt + 1, unconnectqueue := w.unconnectqueue ++ [n] }).setNode n
      { node with ipn := some k, bound := true, pbp := pbp }) := by
  apply counted_enters h hw
  · rw [State.ipnOf_eq hn, hipn]
  · rfl
  · exact ⟨fun hnone => absurd hnone (some_ne_none k), fun _ _ => rfl⟩
  · unfold Network.members
    rw [← append_assoc]
    exact perm_append_singleton n _
  · rfl

lemma ipnBind_counted (hn : s.nodes n = some node) {registered : Bool} {path : BindPath}
    (hnew : ∀ k, path = .created k → s.nets k = none) : Counted s (ipnBind s n node lock registered path).2 := by
  rcases ipnBind_cases s n node lock registered path with ⟨heq, -⟩ | ⟨-, hipn, k, s', heq, hpath⟩
  · rw [heq]
    exact counted_refl h
  have hipn' : ({ node with pbp := none } : Node).ipn = none := hipn
  rw [heq]
  rcases hpath with ⟨hpath, rfl⟩ | ⟨-, rfl, w, hw⟩
  · have hnet : (s.setNet k (newNetwork node.protocol (node.pbp.getD stdBindParms))).nets k =
        some (newNetwork node.protocol (node.pbp.getD stdBindParms)) := by simp
    rw [ipnNodeBind_eq hnet hipn', setNet_setNet]
    exact counted_binds h (netCount_new h (hnew k hpath) _ _) hn hipn' none
  rw [ipnNodeBind_eq hw hipn']
  exact counted_binds h (h.net k w hw) hn hipn' none

/-- At the network, a bound node gets a port, or one that is new to it if nothing interrupts; otherwise the
node is as it was. -/
lemma ipnConnectAt_counted {old : Node} {previousipnn : Option Nat}
    (hn : s.nodes n = some old) (hw : s.nets k = some w) (hipn : node.ipn = some k) (hsound : old.Sound)
    (hold : old.sock = some .unconnected) (hbound : node.bound = old.bound) (hprevious : previousipnn = old.ipn)
    (hlock : old.ipn = some k ∨ old.ipn = none ∧ netLock = true) :
    Counted s (ipnConnectAt s n node previousipnn k netLock).2 := by
  have hwas := State.ipnOf_eq hn
  rw [ipnConnectAt, State.net_eq hw]
  cases hnetLock : netLock with
  | false =>
    have hk : old.ipn = some k := hlock.resolve_right fun hnone => by
      rw [hnetLock] at hnone
      exact Bool.noConfusion hnone.2
    rw [if_pos (by simp)]
    apply counted_setNode h
    · rw [hipn, hwas, hk]
    constructor
    · intro hnone
      exact absurd (hipn.symm.trans hnone) (some_ne_none k)
    intro _ _
    rw [hbound]
    apply hsound.bound _ hold
    rw [hk]
    exact some_ne_none k
  | true =>
    rw [if_neg (by simp)]
    dsimp only
    cases ipnNewport_cases w with
    | inl hfull =>
      rw [hfull, if_neg (by omega)]
      apply counted_setNode h
      · rw [hwas, hprevious]
      constructor
      · intro hnone
        rw [hbound]
        exact hsound.unbound (hprevious.symm.trans hnone)
      intro hsome _
      rw [hbound]
      apply hsound.bound _ hold
      rw [← hprevious]
      exact hsome
    | inr hport =>
      obtain ⟨p, hp, hlt, hfree⟩ := hport
      rw [hp, if_pos (by omega), Network.store_eq hlt]
      have hconnected : ∀ b, ({ node with bound := b, sock := some .connected, portno := (p : Int) } : Node).Sound := by
        intro b
        constructor
        · intro hnone
          exact absurd (hipn.symm.trans hnone) (some_ne_none k)
        intro _ hunconnected
        exact absurd hunconnected (by simp)
      cases hlock with
      | inl hk =>
        have hb : node.bound = true := by
          rw [hbound]
          apply hsound.bound _ hold
          rw [hk]
          exact some_ne_none k
        have hmem := ((h.net k w hw).mem n).2 (hwas.trans hk)
        simp only [hb, Bool.not_true, Bool.false_eq_true, if_false]
        apply counted_setBoth h hw
        · exact hipn.trans (hwas.trans hk).symm
        · exact hconnected _
        · exact members_requeue (h.net k w hw).nodup hmem _
        · rfl
        · rfl
      | inr hnone =>
        have hb : node.bound = false := by rw [hbound, hsound.unbound hnone.1]
        simp only [hb, Bool.not_false, if_true]
        apply counted_enters h (h.net k w hw)
        · rw [hwas, hnone.1]
        · exact hipn
        · exact hconnected _
        · unfold Network.members
          rw [append_assoc]
          exact perm_middle
        · rfl

lemma ipnConnect_counted (hn : s.nodes n = some node) {path : ConnectPath}
    (hok : lock = true → netLock = false → node.sock = some .unconnected → node.ipn = none →
      ∀ k node', ipnConnectPath s node path ≠ (.ok k, node')) :
    Counted s (ipnConnect s n node lock netLock path).2 := by
  have hsound := h.sound n node hn
  unfold ipnConnect
  split_ifs with hsock hlock
  · exact counted_refl h
  · exact counted_refl h
  have hsock : node.sock = some .unconnected := not_not.1 hsock
  cases hipn : node.ipn with
  | some k =>
    obtain ⟨w, hw⟩ := h.net_of_ipn hn hipn
    exact ipnConnectAt_counted h hn hw hipn hsound hsock rfl hipn.symm (.inl hipn)
  | none =>
    cases ipnConnectPath_cases s node path with
    | inl herr =>
      obtain ⟨err, sh, heq⟩ := herr
      simp only [heq]
      apply counted_setNode h
      · exact (State.ipnOf_eq hn).symm
      · exact ⟨hsound.unbound, hsound.bound⟩
    | inr hfound =>
      obtain ⟨k, w, protocol, sh, hw, heq⟩ := hfound
      simp only [heq]
      apply ipnConnectAt_counted h hn hw _ hsound hsock _ hipn.symm
      · right
        apply And.intro hipn
        cases hnetLock : netLock with
        | true => rfl
        | false => exact absurd heq (hok (by simpa using hlock) hnetLock hsock hipn k _)
      · rfl
      · rfl

/-! ### Release -/

lemma ipnTerminateNode_counted (hn : s.nodes n = some node) (hok : netLock = true → TerminateOk s n) :
    (ipnTerminateNode s n node netLock).1 = 0 ∧ Counted s ((ipnTerminateNode s n node netLock).2.freeNode n) ∨
    (ipnTerminateNode s n node netLock).1 ≠ 0 ∧ (ipnTerminateNode s n node netLock).2 = s := by
  have hwas := State.ipnOf_eq hn
  cases hipn : node.ipn with
  | none =>
    left
    simp only [ipnTerminateNode, hipn, State.freeNode_setNode, true_and]
    apply counted_stays h
    · rw [ipnOf_freeNode, ← hipn, ← hwas, update_eq_self]
    · exact fun _ => .inl rfl
    · exact fun m node' hm => h.sound m node' (nodes_of_freeNode hm)
  | some k =>
    obtain ⟨w, hw⟩ := h.net_of_ipn hn hipn
    cases hnetLock : netLock with
    | false =>
      right
      simp [ipnTerminateNode, hipn, State.net_eq hw, ERESTARTSYS]
    | true =>
      left
      have hlt := hok hnetLock node k w hn hipn hw
      obtain ⟨connport, hstore⟩ := Network.clear_eq hlt
      have hleaves : ∀ net s', net = (if w.refcnt - 1 = 0 ∧ !ipnIsPersistentChrdev w then none else
            some (w.without n connport)) →
          s'.nodes = update s.nodes n none → s'.nets = update s.nets k net → Counted s s' := by
        intro net s' hnet hnodes hnets
        have hfree : ∀ m, s'.nodes m = (s.freeNode n).nodes m := fun m => congrFun hnodes m
        have hipnOf : s'.ipnOf = update s.ipnOf n none := by
          rw [← ipnOf_freeNode]
          funext m
          rw [State.ipnOf, State.ipnOf, hfree]
        apply @counted_leaves s s' n k w (w.without n connport) net h hw (hwas.trans hipn) _ _ _ hnet hipnOf hnets
        · intro m node' hm
          rw [hfree] at hm
          exact nodes_of_freeNode hm
        · exact members_listDel (h.net k w hw).nodup
        · rfl
        · rfl
      rw [ipnTerminateNode_eq hipn hw hstore]
      by_cases hlast : w.refcnt - 1 = 0 ∧ (!ipnIsPersistentChrdev w) = true
      · dsimp only
        rw [if_pos hlast]
        apply And.intro rfl
        apply hleaves none
        · rw [if_pos hlast]
        · simp
        · rfl
      dsimp only
      rw [if_neg hlast]
      apply And.intro rfl
      apply hleaves (some (w.without n connport))
      · rw [if_neg hlast]
      · simp
      · rfl

lemma counted_close (hn : s.nodes n = some node) :
    Counted s (s.setNode n { node with closed := true }) := by
  have hsound := h.sound n node hn
  exact counted_setNode h (State.ipnOf_eq hn).symm ⟨hsound.unbound, hsound.bound⟩

lemma ipnRelease_counted (hn : s.nodes n = some node)
    (hok : lock = true → netLock = true → TerminateOk s n) : Counted s (ipnRelease s n node lock netLock).2 := by
  unfold ipnRelease ipnNodeRelease
  cases hlock : lock with
  | false =>
    have hclose := counted_close h hn
    simpa [ERESTARTSYS] using hclose
  | true =>
    rw [if_neg (by simp)]
    cases ipnTerminateNode_counted h hn (hok hlock) with
    | inl hgone =>
      dsimp only
      rw [if_pos hgone.1, if_pos rfl]
      exact hgone.2
    | inr hstays =>
      dsimp only
      rw [if_neg hstays.1, if_neg hstays.1, hstays.2]
      exact counted_close h hn

/-! ### Devices -/

lemma ipnNodeGiveUp_counted (hn : s.nodes n = none) (hipn : node.ipn = none) (hb : node.bound = false)
    (lock netLock : Bool) (err : Int) : Counted s (ipnNodeGiveUp s n node lock netLock err).2 := by
  have hnone : s.ipnOf n = none := by
    rw [State.ipnOf, hn]
    rfl
  unfold ipnNodeGiveUp ipnNodeRelease
  cases lock with
  | false =>
    apply counted_setNode h
    · exact hipn.trans hnone.symm
    · exact ⟨fun _ => hb, fun hsome => absurd hipn hsome⟩
  | true =>
    simp only [Bool.not_true, Bool.false_eq_true, if_false, if_true, ipnTerminateNode, hipn, State.freeNode_setNode]
    apply counted_stays h
    · rw [ipnOf_freeNode, ← hnone, update_eq_self]
    · exact fun _ => .inl rfl
    intro m node' hm
    exact h.sound m node' (nodes_of_freeNode hm)

lemma ipnNodeCreateConnect_counted (hn : s.nodes n = none) (hw : s.nets k = some w)
    {locks : OpenLocks} (hok : locks.lock = false ∨ locks.netLock = true) :
    (ipnNodeCreateConnect s n k locks).1 ≠ 0 ∧ Counted s (ipnNodeCreateConnect s n k locks).2 ∨
      ∃ w' node, ipnNodeCreateConnect s n k locks = (0, (s.setNet k w').setNode n node) ∧
        ∀ sh, Counted s ((s.setNet k w').setNode n { node with shutdown := sh }) := by
  have hgiveUp : ∀ protocol err, Counted s (ipnNodeGiveUp s n
      { ipnNodeCreate with ipn := none, protocol := protocol } locks.releaseLock locks.releaseNetLock err).2 :=
    fun protocol err => ipnNodeGiveUp_counted h hn rfl rfl locks.releaseLock locks.releaseNetLock err
  unfold ipnNodeCreateConnect
  cases hlock : locks.lock with
  | false => exact .inl ⟨by simp [ipnNodeGiveUp, ERESTARTSYS], hgiveUp 0 _⟩
  | true =>
    have hnetLock : locks.netLock = true := hok.resolve_left (by simp [hlock])
    dsimp only
    rw [if_neg (by simp), State.net_eq hw, hnetLock, if_neg (by simp)]
    cases ipnNewport_cases w with
    | inl hfull =>
      rw [hfull, if_neg (by omega)]
      exact .inl ⟨by simp [ipnNodeGiveUp, EADDRNOTAVAIL], hgiveUp w.protocol _⟩
    | inr hport =>
      obtain ⟨p, hp, hlt, hfree⟩ := hport
      have hrange : (0 : Int) ≤ p ∧ (p : Int) < w.maxports := by omega
      have hnone : s.ipnOf n = none := by
        rw [State.ipnOf, hn]
        rfl
      have hmem : n ∉ w.members := by
        rw [(h.net k w hw).mem n, hnone]
        exact (some_ne_none k).symm
      rw [hp, if_pos hrange, Network.store_eq hlt]
      right
      refine ⟨_, _, rfl, fun sh => ?_⟩
      apply counted_enters h (h.net k w hw) hnone
      · rfl
      · exact ⟨fun _ => rfl, fun _ hsock => absurd hsock (by simp [ipnNodeCreate])⟩
      · have hdel := members_listDel (n := n) (h.net k w hw).nodup
        rw [erase_of_not_mem hmem] at hdel
        rw [← hdel]
        unfold Network.members
        rw [append_assoc]
        exact perm_middle
      · rfl

lemma ipnChrdevOpen_counted (hn : s.nodes n = none) (hw : s.nets k = some w)
    {modeRead modeWrite : Bool} {mayRead mayWrite : Int} {alloc : Bool} {locks : OpenLocks} {stale : Bool}
    (hok : (modeRead = false ∨ mayRead = -EACCES ∨ mayRead = -EROFS) ∧ (modeWrite = false ∨ mayWrite = -EACCES) ∨
      alloc = false ∨ locks.lock = false ∨ locks.netLock = true) :
    Counted s (ipnChrdevOpen s n k modeRead modeWrite mayRead mayWrite alloc locks stale).2 := by
  unfold ipnChrdevOpen
  dsimp only
  by_cases hdenied : ((!modeRead || mayRead == -EACCES || mayRead == -EROFS) && (!modeWrite || mayWrite == -EACCES)) = true
  · rw [if_pos hdenied]
    exact counted_refl h
  rw [if_neg hdenied]
  by_cases halloc : alloc = false
  · rw [if_pos (by simp [halloc])]
    exact (counted_refl h).wild
  rw [if_neg (by simpa using halloc)]
  have hlocks : locks.lock = false ∨ locks.netLock = true := by
    cases hok with
    | inl hboth =>
      apply absurd _ hdenied
      simpa [or_assoc] using hboth
    | inr hrest => exact hrest.resolve_left halloc
  cases ipnNodeCreateConnect_counted h hn hw hlocks with
  | inl hfailed =>
    rw [if_neg hfailed.1]
    split_ifs
    · exact hfailed.2.wild
    · exact hfailed.2
  | inr hdone =>
    obtain ⟨w', node, heq, hcounted⟩ := hdone
    rw [heq, if_pos rfl]
    simp only [State.setNode_nodes, update_self, setNode_setNode]
    exact hcounted _

lemma ipnIoctl_counted (hn : s.nodes n = some node) (req : Ioctl) : Counted s (ipnIoctl s n node req).2 := by
  have hcase := ipnIoctl_case s n node req
  generalize (ipnIoctl s n node req).2 = s' at hcase
  have hsound := h.sound n node hn
  have hwas := (State.ipnOf_eq hn).symm
  cases hcase with
  | same => exact counted_refl h
  | wild k hipn hw =>
    obtain ⟨w, hw'⟩ := h.net_of_ipn hn hipn
    cases hw.symm.trans hw'
  | joined k w hipn hw => exact counted_binds h (h.net k w hw) hn hipn node.pbp
  | chrdev k w chrdev hipn hw => exact counted_setNet h hw rfl rfl (.inr ((State.ipnOf_eq hn).trans hipn))
  | undone => exact counted_setNode h hwas ⟨hsound.unbound, hsound.bound⟩
  | refused k w hipn hw => exact counted_setBoth h hw hwas ⟨hsound.unbound, hsound.bound⟩ (Perm.refl _) rfl rfl
  | attached k w p _ _ hipn hw =>
    have hmem := ((h.net k w hw).mem n).2 (hwas.symm.trans hipn)
    apply counted_setBoth h hw
    · exact hwas
    · exact ⟨hsound.unbound, fun _ hunconnected => absurd hunconnected (by simp)⟩
    · exact members_requeue (h.net k w hw).nodup hmem _
    · rfl
    · rfl

/-! ### Options and shutdown -/

lemma ipnShutdown_counted (hn : s.nodes n = some node) (mode : Int) (netLock : Bool) :
    Counted s (ipnShutdown s n node mode netLock).2 := by
  have hsound := h.sound n node hn
  have hset : Counted s (s.setNode n { node with
      shutdown := node.shutdown ||| (BitVec.ofInt 8 (mode + 1) &&& (RCV_SHUTDOWN ||| SEND_SHUTDOWN)) }) :=
    counted_setNode h (State.ipnOf_eq hn).symm ⟨hsound.unbound, hsound.bound⟩
  unfold ipnShutdown
  cases hipn : node.ipn with
  | none =>
    rw [hipn] at hset
    exact hset
  | some k =>
    obtain ⟨w, hw⟩ := h.net_of_ipn hn hipn
    rw [hipn] at hset
    simp only [State.net_eq hw]
    split_ifs
    · exact counted_refl h
    · exact hset

lemma ipnNetresize_counted (hw : s.nets k = some w) (val : Int) (netLock alloc : Bool) :
    Counted s (ipnNetresize s k val netLock alloc).2 := by
  simp only [ipnNetresize, State.net_eq hw]
  split_ifs
  · exact counted_refl h
  · exact counted_refl h
  · exact counted_refl h
  · exact counted_refl h
  · exact @counted_setNet s 0 k w _ h hw rfl rfl (.inl rfl)
  · exact @counted_setNet s 0 k w _ h hw rfl rfl (.inl rfl)

lemma ipnSockoptVal_counted (hn : s.nodes n = some node) (pbp : Option PreBindParms)
    (optname : BitVec 32) (val : Int) (netLock alloc : Bool) :
    Counted s (ipnSockoptVal s n { node with pbp := pbp } optname val netLock alloc).2 := by
  have hsound := h.sound n node hn
  rcases ipnSockoptVal_cases s n { node with pbp := pbp } optname val netLock alloc with
    heq | ⟨pbp', sh, -, heq⟩ | ⟨-, heq⟩ | ⟨-, -, -, ⟨-, heq⟩ | ⟨k, hipn, heq⟩⟩
  · rw [heq]
    exact counted_refl h
  · rw [heq]
    exact counted_setNode h (State.ipnOf_eq hn).symm ⟨hsound.unbound, hsound.bound⟩
  · rw [heq]
    exact counted_setNode h (State.ipnOf_eq hn).symm ⟨hsound.unbound, hsound.bound⟩
  · rw [heq]
    exact (counted_refl h).wild
  · obtain ⟨w, hw⟩ := h.net_of_ipn hn hipn
    rw [heq]
    exact ipnNetresize_counted h hw val netLock alloc

lemma ipnSetsockopt_counted (hn : s.nodes n = some node) (level : Int) (optname : BitVec 32)
    (optlen : Nat) (val : Int) (netLock pbpAlloc alloc : Bool) :
    Counted s (ipnSetsockopt s n node level optname optlen val netLock pbpAlloc alloc).2 := by
  rcases ipnSetsockopt_cases s n node level optname optlen val netLock pbpAlloc alloc with
    heq | ⟨k, -, -, heq⟩ | ⟨-, pbp, heq⟩
  · rw [heq]
    exact counted_refl h
  · rw [heq]
    exact (counted_refl h).wild
  rw [heq]
  exact ipnSockoptVal_counted h hn pbp optname val netLock alloc

end

end

/-! ### Persistent devices -/

section

variable {d : DevState} {n k : Nat} {node : Node} {w : Network}

lemma ipnReleaseNode_counted (h : Members d.ipn) (hn : d.ipn.nodes n = some node)
    (hok : lock = true → netLock = true → d.persist n = false → TerminateOk d.ipn n) :
    Counted d.ipn (ipnReleaseNode d n node lock netLock).2.ipn := by
  unfold ipnReleaseNode
  by_cases hstays : (lock && d.persist n) = true
  · rw [if_pos hstays]
    exact counted_close h hn
  rw [if_neg hstays]
  apply ipnRelease_counted h hn
  intro hlock hnetLock
  apply hok hlock hnetLock
  simpa [hlock] using hstays

lemma ipnSetpersistNode_counted (h : Members d.ipn) (hn : d.ipn.nodes n = some node) {persist : Bool}
    (hok : ClearOk d n persist netLock) : Counted d.ipn (ipnSetpersistNode d n node persist netLock).2.ipn := by
  unfold ipnSetpersistNode
  by_cases hpersist : persist = true
  · rw [if_pos hpersist]
    exact counted_refl h
  rw [if_neg hpersist]
  by_cases hused : d.inUse n = true
  · dsimp only
    rw [if_pos hused]
    exact counted_refl h
  dsimp only
  rw [if_neg hused]
  have hterminate := ipnTerminateNode_counted h hn (hok (by simpa using hpersist) (by simpa using hused))
  cases hterminate with
  | inl hgone =>
    rw [if_pos hgone.1]
    exact hgone.2
  | inr hstays =>
    rw [if_neg hstays.1, hstays.2]
    exact counted_refl h

lemma ipnSetpersistNetdev_counted (h : Members d.ipn) {dev : Option Nat} {value capable : Bool}
    (hok : capable = true → lock = true → ∀ m, dev = some m → ClearOk d m value netLock) :
    Counted d.ipn (ipnSetpersistNetdev d dev value capable lock netLock).2.ipn := by
  unfold ipnSetpersistNetdev
  split_ifs with hcapable hlock
  · exact counted_refl h
  · exact counted_refl h
  cases dev with
  | none => exact counted_refl h
  | some m =>
    cases hm : d.ipn.nodes m with
    | none =>
      simp only [hm]
      exact counted_refl h
    | some node =>
      simp only [hm]
      exact ipnSetpersistNode_counted h hm (hok (by simpa using hcapable) (by simpa using hlock) m rfl)

lemma ipnJoinNetdev_refused {dev : Option Nat}
    (hok : node.sock = some .unconnected → lock = true → netLock = true →
      ∀ m, dev = some m → ∀ i < w.maxports, w.connport i ≠ some m) :
    (ipnJoinNetdev d n node k w lock netLock dev).2 = d := by
  unfold ipnJoinNetdev
  split_ifs with hsock hlock hnetLock
  · rfl
  · rfl
  · rfl
  cases dev with
  | none => rfl
  | some m =>
    have hnone : ¬∃ i < w.maxports, w.connport i = some m := by
      rintro ⟨i, hi, hslot⟩
      exact hok (not_not.1 hsock) (by simpa using hlock) (by simpa using hnetLock) m rfl i hi hslot
    cases hm : d.ipn.nodes m with
    | none => simp only [hm]
    | some joined =>
      simp only [hm]
      rw [if_neg hnone]

lemma ipnDevIoctl_counted (h : Members d.ipn) (hn : d.ipn.nodes n = some node) {req : DevIoctl}
    (hok : node.shutdown ≠ SHUTDOWN_XMASK → req.Ok d n node) : Counted d.ipn (ipnDevIoctl d n node req).2.ipn := by
  unfold ipnDevIoctl
  by_cases hreset : node.shutdown = SHUTDOWN_XMASK
  · rw [if_pos hreset]
    exact counted_refl h
  rw [if_neg hreset]
  have hok := hok hreset
  cases req with
  | setpersistNetdev value capable lock netLock dev => exact ipnSetpersistNetdev_counted h hok
  | joinNetdev lock netLock dev =>
    cases hipn : node.ipn with
    | none => exact counted_refl h
    | some k =>
      obtain ⟨w, hw⟩ := h.net_of_ipn hn hipn
      simp only [hw]
      split_ifs with hterminated
      · exact counted_refl h
      rw [ipnJoinNetdev_refused]
      · exact counted_refl h
      intro hsock hlock hnetLock
      exact hok hsock hlock hnetLock k w hipn hw (by simpa using hterminated)
  | setpersist arg lock netLock =>
    cases hipn : node.ipn with
    | none => exact counted_refl h
    | some k =>
      obtain ⟨w, hw⟩ := h.net_of_ipn hn hipn
      have hsome : node.ipn ≠ none := by
        rw [hipn]
        exact some_ne_none k
      simp only [hw]
      unfold ipnSetpersist
      split_ifs with _ hnetdev hlock
      · exact counted_refl h
      · exact counted_refl h
      · exact counted_refl h
      · exact ipnSetpersistNode_counted h hn (hok hsome (by simpa using hnetdev) (by simpa using hlock))

end

/-! ## Every run -/

lemma devStep_counted {d : DevState} {e : DevEvent} (h : Members d.ipn) (hlegal : e.Legal d.ipn)
    (hok : MembersOk d e) : Counted d.ipn (devStep d e).ipn := by
  cases e with
  | ioctl n req =>
    obtain ⟨⟨node, hn, _⟩, _⟩ := hlegal
    simp only [devStep, hn]
    exact ipnDevIoctl_counted h hn (hok node hn)
  | call e =>
    cases e with
    | socket n protocol registered => exact ipnCreate_counted h hlegal protocol registered
    | bind n lock registered path =>
      obtain ⟨⟨node, hn, _⟩, hnew⟩ := hlegal
      simp only [devStep, ipnStep, State.onNode_eq hn]
      apply ipnBind_counted h hn
      intro k hpath
      rw [hpath] at hnew
      exact hnew
    | connect n lock netLock path =>
      obtain ⟨node, hn, _⟩ := hlegal
      simp only [devStep, ipnStep, State.onNode_eq hn]
      apply ipnConnect_counted h hn
      rintro rfl rfl hsock hipn
      exact hok node hn hsock hipn
    | ioctl n req =>
      obtain ⟨node, hn, _⟩ := hlegal
      simp only [devStep, ipnStep, State.onNode_eq hn]
      exact ipnIoctl_counted h hn req
    | chrdevOpen n k modeRead modeWrite mayRead mayWrite alloc locks stale =>
      obtain ⟨hn, w, hw, _⟩ := hlegal
      exact ipnChrdevOpen_counted h hn hw hok
    | setsockopt n level optname optlen val netLock pbpAlloc alloc =>
      obtain ⟨node, hn, _⟩ := hlegal
      simp only [devStep, ipnStep, State.onNode_eq hn]
      exact ipnSetsockopt_counted h hn level optname optlen val netLock pbpAlloc alloc
    | shutdown n mode netLock =>
      obtain ⟨node, hn, _⟩ := hlegal
      simp only [devStep, ipnStep, State.onNode_eq hn]
      exact ipnShutdown_counted h hn mode netLock
    | release n lock netLock =>
      obtain ⟨node, hn, _⟩ := hlegal
      simp only [devStep, hn]
      apply ipnReleaseNode_counted h hn
      rintro rfl rfl
      exact hok

lemma members_ipnInit : Members ipnInit where
  net _ w hw := absurd hw (some_ne_none w).symm
  kept _ w hw := absurd hw (some_ne_none w).symm
  table _ k hk := absurd hk (some_ne_none k).symm
  sound _ node hn := absurd hn (some_ne_none node).symm

/-- The count and the queues of every network are those of its nodes at any time, and a network goes with its
last node and only then, as long as the calls are of the kinds above. -/
theorem members_right (es : List DevEvent) (hes : devMachine.Along devMachine.enabled devInit es)
    (hok : devMachine.Along MembersOk devInit es) : devMachine.Always (fun d => MembersRight d.ipn) devInit es ∧
    devMachine.Along (fun d e => RemovedRight d.ipn (devStep d e).ipn) devInit es := by
  apply Machine.Along.always_and_along (fun d => Members d.ipn) _ _ members_ipnInit (hes.and hok)
  · exact fun d hd => membersRight_of_members hd
  intro d e hd he
  have hcounted := devStep_counted hd he.1.2 he.2
  exact ⟨hcounted.members, hcounted.removed⟩

/-- A device is made persistent and its file closed; then another socket clears the persistence. -/
def persistentRun : List DevEvent :=
  [.call (.socket 0 1 true), .call (.bind 0 true true (.created 0)),
    .call (.ioctl 0 (.net (.connNetdev true true true true 0))), .ioctl 0 (.setpersist true true true),
    .call (.release 0 true true), .call (.socket 1 1 true),
    .ioctl 1 (.setpersistNetdev false true true true (some 0))]

theorem members_right_persistent : devMachine.Always (fun d => MembersRight d.ipn) devInit persistentRun ∧
    devMachine.Along (fun d e => RemovedRight d.ipn (devStep d e).ipn) devInit persistentRun := by
  apply members_right
  · refine ⟨⟨rfl, rfl⟩, ⟨rfl, ⟨_, rfl, rfl, rfl⟩, rfl⟩, ⟨rfl, _, rfl, rfl, rfl⟩, ⟨rfl, ⟨_, rfl, rfl, rfl⟩, trivial⟩,
      ⟨rfl, _, rfl, rfl⟩, ⟨rfl, rfl⟩, ⟨rfl, ⟨_, rfl, rfl, rfl⟩, ?_⟩, trivial⟩
    intro m hm
    have hm := some.inj hm
    subst hm
    exact ⟨_, rfl, rfl⟩
  refine ⟨trivial, trivial, trivial, ?_, ?_, trivial, ?_, trivial⟩
  · intro node _ _ _ _ _ hclear
    cases hclear
  · intro hclear
    cases hclear
  intro _ _ _ _ _ m hm _ _ _ node k w hn hipn hw
  have hm := some.inj hm
  subst hm
  have hn := some.inj hn
  subst hn
  have hipn := some.inj hipn
  subst hipn
  have hw := some.inj hw
  subst hw
  decide

def interruptedConnectRun : List DevEvent :=
  [.call (.socket 0 1 true), .call (.bind 0 true true (.created 0)), .call (.socket 1 1 true),
    .call (.connect 1 true false (.found 0 0 true 0))]

/-- The second socket has the network, which does not count it. -/
theorem interrupted_connect_uncounted : ¬∀ es, devMachine.Along devMachine.enabled devInit es →
    devMachine.Always (fun d => MembersRight d.ipn) devInit es ∧
    devMachine.Along (fun d e => RemovedRight d.ipn (devStep d e).ipn) devInit es := by
  intro h
  have hes : devMachine.Along devMachine.enabled devInit interruptedConnectRun :=
    ⟨⟨rfl, rfl⟩, ⟨rfl, ⟨_, rfl, rfl, rfl⟩, rfl⟩, ⟨rfl, rfl⟩, ⟨rfl, _, rfl, rfl, rfl⟩, trivial⟩
  have hlast : MembersRight (devMachine.run devInit interruptedConnectRun).ipn :=
    (h interruptedConnectRun hes).1.last
  have honce := hlast.once 0 _ rfl 1 ⟨_, rfl, rfl⟩
  exact absurd honce (by decide)

end Vde.Ipn
