import Vde.Proofs.IpnDispatch

/-!
# Broadcast without losses

A message that a writer handed to the protocol gets to every other node that is connected and reads, once, and all
of them read in the order in which the messages were handed over: as long as no write is interrupted or fails
to copy its message after the allocation, and no injection finds the flag of another one set.
-/

namespace Vde.Ipn

open Finset Function Option List

/-! ## The claims -/

/-- How often a node has got a message: it has read it, the message was flushed when the node was shut down or
released, or it waits in the queue. -/
def BcastState.copies (s : BcastState) (n m : Nat) : Nat :=
  (s.reads n).count m + (s.flushed n).count m + (s.net.node n).msgqueue.count m

/-- A call that has not handed its message to the protocol has returned an error; the message of a call that has returned
its length has got once to each node that was connected and not shut down for reading while it was dispatched, the
sender apart; and no two nodes read two messages in different orders. -/
structure BroadcastRight (s : BcastState) : Prop where
  error : ∀ r ∈ s.results, (∀ m, r.msg = some m → m ∉ s.handed) → r.ret < 0
  once : ∀ r ∈ s.results, r.ret = r.len → ∀ m, r.msg = some m → ∀ n ∈ s.audience m, s.copies n m = 1
  order : ∀ n n' a b, [a, b].Sublist (s.reads n) → ¬[b, a].Sublist (s.reads n')

/-! ## The steps that are right -/

/-- The message is copied, the wait for the mutex is not interrupted, and the flag is not set by another injection. -/
def BroadcastOk (s : BcastState) : BcastEvent → Prop
  | .net (.copy _ ok) => ok = true
  | .net (.down _ got) => got = true
  | .net (.test _) => s.net.recinject = false
  | _ => True

/-! ## Lists -/

section

variable {α : Type*} {l l' : List α} {a b : α}

lemma not_sublist_swap (h : l.Nodup) (hab : [a, b].Sublist l) : ¬[b, a].Sublist l := by
  intro hba
  induction l with
  | nil => exact absurd (sublist_nil.1 hab) (cons_ne_nil a [b])
  | cons x l ih =>
    obtain ⟨hx, hl⟩ := nodup_cons.1 h
    cases hab with
    | cons _ hab =>
      cases hba with
      | cons _ hba => exact ih hl hab hba
      | cons_cons _ hba => exact hx (hab.subset (by simp))
    | cons_cons _ hab =>
      cases hba with
      | cons _ hba => exact hx (hba.subset (by simp))
      | cons_cons _ hba => exact hx (hab.subset (by simp))

lemma count_append_other [DecidableEq α] (l : List α) (h : b ≠ a) : (l ++ [a]).count b = l.count b := by
  rw [List.count_append, List.count_eq_zero_of_not_mem (fun hb => h (List.mem_singleton.1 hb)), Nat.add_zero]

lemma sublist_of_append_singleton (h : l'.Sublist (l ++ [a])) (ha : a ∉ l') : l'.Sublist l := by
  obtain ⟨l₁, l₂, heq, h₁, h₂⟩ := sublist_append_iff.1 h
  cases h₂ with
  | cons _ h₂ =>
    rw [heq, sublist_nil.1 h₂, append_nil]
    exact h₁
  | cons_cons _ _ =>
    rw [heq] at ha
    exact absurd (by simp) ha

end

def LoopAt (l : List Nat) (cursor : Option Nat) (pre : List Nat) : Option Nat → Prop
  | none => ∃ suf, l = pre ++ suf ∧ listAfter l cursor = some suf
  | some n => ∃ suf, l = pre ++ n :: suf ∧ cursor = some n

lemma listAfter_append {pre suf : List Nat} {n : Nat} (h : (pre ++ n :: suf).Nodup) :
    listAfter (pre ++ n :: suf) (some n) = some suf := by
  have hpre : ∀ a ∈ pre, (a != n) = true := by
    intro a ha
    have hne := (nodup_append.1 h).2.2 a ha n (mem_cons_self)
    simpa using hne
  simp [listAfter, dropWhile_append_of_pos hpre]

lemma LoopAt.pass {l pre : List Nat} {cursor : Option Nat} {n : Nat} (h : LoopAt l cursor pre (some n)) (hl : l.Nodup) :
    LoopAt l cursor (pre ++ [n]) none := by
  obtain ⟨suf, heq, hcursor⟩ := h
  refine ⟨suf, by rw [heq, append_assoc, singleton_append], ?_⟩
  rw [hcursor]
  rw [heq] at hl ⊢
  exact listAfter_append hl

/-! ## The list of the nodes -/

/-- `connectqueue` has the connected nodes, which have their network; there are no messages for nodes that are not there
and for network devices. -/
structure Listed (s : BcastState) : Prop where
  nodup : s.connectqueue.Nodup
  connected : ∀ n, n ∈ s.connectqueue ↔ n ∈ s.net.live ∧ (s.net.node n).connected = true
  ipn : ∀ n ∈ s.connectqueue, (s.net.node n).ipn = true
  dead : ∀ n, n ∉ s.net.live → (s.net.node n).msgqueue = []
  netdev : ∀ n, (s.net.node n).netdev = true → (s.net.node n).msgqueue = []

variable {alloc : Bool} {ch : Change}

section

variable {s s' : BcastState} {c n m : Nat} {node : MsgNode} {e : MsgEvent}

lemma Listed.same (h : Listed s) (hqueue : s'.connectqueue = s.connectqueue) (hnodes : SameNodes s.net s'.net) :
    Listed s' where
  nodup := by
    rw [hqueue]
    exact h.nodup
  connected n := by
    rw [hqueue, hnodes.live, hnodes.connected]
    exact h.connected n
  ipn n hn := by
    rw [hqueue] at hn
    rw [hnodes.ipn]
    exact h.ipn n hn
  dead n hn := by
    rw [hnodes.live] at hn
    rw [hnodes.msgqueue]
    exact h.dead n hn
  netdev n hn := by
    rw [hnodes.netdev] at hn
    rw [hnodes.msgqueue]
    exact h.netdev n hn

/-- One node changes, and may come on the lists or go off them. -/
lemma Listed.change (h : Listed s) (hnodup : s'.connectqueue.Nodup) (hnode : s'.net.node = update s.net.node n node)
    (hqueue : ∀ n', n' ≠ n → (n' ∈ s'.connectqueue ↔ n' ∈ s.connectqueue))
    (hlive : ∀ n', n' ≠ n → (n' ∈ s'.net.live ↔ n' ∈ s.net.live))
    (hconnected : n ∈ s'.connectqueue ↔ n ∈ s'.net.live ∧ node.connected = true)
    (hipn : n ∈ s'.connectqueue → node.ipn = true) (hdead : n ∉ s'.net.live → node.msgqueue = [])
    (hnetdev : node.netdev = true → node.msgqueue = []) : Listed s' := by
  have hself : s'.net.node n = node := by rw [hnode, update_self]
  have hother : ∀ n', n' ≠ n → s'.net.node n' = s.net.node n' := by
    intro n' hne
    rw [hnode, update_of_ne hne]
  refine ⟨hnodup, fun n' => ?_, fun n' hn' => ?_, fun n' hn' => ?_, fun n' hn' => ?_⟩
  all_goals by_cases heq : n' = n
  · rw [heq, hself, hconnected]
  · rw [hother n' heq, hqueue n' heq, hlive n' heq, h.connected n']
  · rw [heq, hself, hipn (heq ▸ hn')]
  · rw [hother n' heq, h.ipn n' ((hqueue n' heq).1 hn')]
  · rw [heq, hself, hdead (heq ▸ hn')]
  · rw [hother n' heq, h.dead n' fun hn => hn' ((hlive n' heq).2 hn)]
  · rw [heq, hself] at hn' ⊢
    exact hnetdev hn'
  · rw [hother n' heq] at hn' ⊢
    exact h.netdev n' hn'

lemma Listed.setNode (h : Listed s) (hn : n ∈ s.net.live) (hqueue : s'.connectqueue = s.connectqueue)
    (hlive : s'.net.live = s.net.live) (hnode : s'.net.node = update s.net.node n node)
    (hconnected : node.connected = (s.net.node n).connected) (hipn : n ∈ s.connectqueue → node.ipn = true)
    (hnetdev : node.netdev = true → node.msgqueue = []) : Listed s' := by
  rw [← hqueue] at hipn
  refine h.change (hqueue ▸ h.nodup) hnode (fun _ _ => by rw [hqueue]) (fun _ _ => by rw [hlive]) ?_ hipn ?_ hnetdev
  · rw [hqueue, hlive, hconnected, h.connected n]
  · exact fun hdead => absurd (hlive ▸ hn) hdead

lemma Listed.connect (h : Listed s) (hn : n ∉ s.net.live) (hqueue : s'.connectqueue = s.connectqueue ++ [n])
    (hlive : s'.net.live = insert n s.net.live) (hnode : s'.net.node = update s.net.node n node)
    (hconnected : node.connected = true) (hipn : node.ipn = true) (hempty : node.msgqueue = []) : Listed s' := by
  have hnew : n ∉ s.connectqueue := fun hmem => hn ((h.connected n).1 hmem).1
  refine h.change ?_ hnode (fun n' hne => by simp [hqueue, hne]) (fun n' hne => by simp [hlive, hne]) ?_
    (fun _ => hipn) (fun _ => hempty) (fun _ => hempty)
  · rw [hqueue, ← concat_eq_append]
    exact (nodup_concat _ n).2 ⟨hnew, h.nodup⟩
  · simp [hqueue, hlive, hconnected]

lemma Listed.erase (h : Listed s) (hqueue : s'.connectqueue = s.connectqueue.erase n)
    (hlive : s'.net.live = s.net.live) (hnode : s'.net.node = update s.net.node n node)
    (hconnected : node.connected = false) (hempty : node.msgqueue = []) : Listed s' := by
  refine h.change (hqueue ▸ h.nodup.erase n) hnode (fun n' hne => ?_) (fun _ _ => by rw [hlive]) ?_ (fun hmem => ?_)
    (fun _ => hempty) (fun _ => hempty)
  · rw [hqueue, mem_erase_of_ne hne]
  · simp [hqueue, h.nodup.mem_erase_iff, hconnected]
  rw [hqueue] at hmem
  exact absurd hmem h.nodup.not_mem_erase

lemma Listed.free (h : Listed s) (hqueue : s'.connectqueue = s.connectqueue) (hlive : s'.net.live = s.net.live.erase n)
    (hnode : s'.net.node = s.net.node) (hconnected : (s.net.node n).connected = false)
    (hempty : (s.net.node n).msgqueue = []) : Listed s' := by
  have hoff : n ∉ s'.connectqueue := by
    rw [hqueue, h.connected n, hconnected]
    simp
  refine h.change (hqueue ▸ h.nodup) (by rw [hnode, update_eq_self]) (fun _ _ => by rw [hqueue])
    (fun n' hne => by simp [hlive, hne]) ?_ (fun hmem => absurd hmem hoff) (fun _ => hempty) (fun _ => hempty)
  rw [hconnected]
  exact iff_of_false hoff (by simp)

lemma history_net (s : BcastState) (e : MsgEvent) : (s.history e).net = msgStep s.net e := by
  cases e with
  | test c | set c | send c | put c | read c | flush c =>
    simp only [BcastState.history]
    repeat' split
    all_goals rfl
  | _ => rfl

lemma history_connectqueue (s : BcastState) {e : MsgEvent} (hconnect : ∀ c n d o b, e ≠ .lockConnect c n d o b)
    (hflush : ∀ c, e ≠ .flush c) : (s.history e).connectqueue = s.connectqueue := by
  cases e with
  | lockConnect c n d o b => exact absurd rfl (hconnect c n d o b)
  | flush c => exact absurd rfl (hflush c)
  | test c | set c | send c | put c | read c =>
    simp only [BcastState.history]
    repeat' split
    all_goals rfl
  | _ => rfl

lemma netdev_of_takes {s : MsgState} (h : s.takes n false alloc = true) : (s.node n).netdev = false := by
  simp [MsgState.takes] at h
  exact h.1.1.1

lemma send_listed (h : Listed s) {oob : Bool} (he : (MsgEvent.send c oob alloc).Legal s.net)
    (hqueue : s'.connectqueue = s.connectqueue) (hnet : s'.net = msgStep s.net (.send c oob alloc)) : Listed s' := by
  obtain ⟨m, n, nested, hc⟩ := he
  simp only [msgStep, hc.2] at hnet
  cases oob with
  | true =>
    have hnodes := ipnProtoOobsendmsg_nodes s.net n m alloc
    rw [if_pos rfl] at hnet
    apply h.same hqueue
    rw [hnet]
    exact ⟨hnodes.live, hnodes.connected, hnodes.ipn, hnodes.netdev, hnodes.msgqueue⟩
  | false =>
    rw [if_neg Bool.false_ne_true] at hnet
    have hcases := ipnProtoSendmsg_cases s.net n m alloc
    rcases hcases with hsame | hwild | ⟨hn, htakes, htaken⟩
    · rw [hsame] at hnet
      apply h.same hqueue
      rw [hnet]
      exact .of_eq rfl rfl
    · rw [hwild] at hnet
      apply h.same hqueue
      rw [hnet]
      exact .of_eq rfl rfl
    rw [htaken] at hnet
    have hnode : s'.net.node = update s.net.node n { s.net.node n with
        totmsgcount := inc16 (s.net.node n).totmsgcount
        msgqueue := (s.net.node n).msgqueue ++ [m] } := by rw [hnet]; rfl
    apply h.setNode hn hqueue (by rw [hnet]; rfl) hnode rfl (h.ipn n)
    intro hnetdev
    exact absurd (netdev_of_takes htakes) (by simpa using hnetdev)

lemma ipnNodeRead_fields {node' : MsgNode} (h : ipnNodeRead node = some (m, node')) : node'.connected =
    node.connected ∧ node'.ipn = node.ipn ∧ node'.netdev = node.netdev ∧
    (node.oobmsgqueue = [] → node.msgqueue = m :: node'.msgqueue) ∧
    (node.oobmsgqueue ≠ [] → node'.msgqueue = node.msgqueue) := by
  unfold ipnNodeRead at h
  split_ifs at h
  cases hoob : node.oobmsgqueue with
  | cons a rest =>
    simp only [hoob, some.injEq, Prod.mk.injEq] at h
    rw [← h.2]
    exact ⟨rfl, rfl, rfl, fun hnil => absurd hnil (cons_ne_nil a rest), fun _ => rfl⟩
  | nil =>
    cases hmsg : node.msgqueue with
    | nil => simp [hoob, hmsg] at h
    | cons a rest =>
      simp only [hoob, hmsg, some.injEq, Prod.mk.injEq] at h
      rw [← h.2, ← h.1]
      exact ⟨rfl, rfl, rfl, fun _ => rfl, fun hne => absurd rfl hne⟩

lemma read_listed (h : Listed s) (he : (MsgEvent.read c n).Legal s.net) (hqueue : s'.connectqueue = s.connectqueue)
    (hnet : s'.net = msgStep s.net (.read c n)) : Listed s' := by
  obtain ⟨_, hn, hsome⟩ := he
  obtain ⟨⟨m, node⟩, hread⟩ := isSome_iff_exists.1 hsome
  obtain ⟨hconnected, hipn, hnetdev, hfirst, hrest⟩ := ipnNodeRead_fields hread
  simp only [msgStep, hread] at hnet
  apply h.setNode hn hqueue (by rw [hnet]; rfl) (by rw [hnet]; rfl) hconnected
  · intro hmem
    rw [hipn]
    exact h.ipn n hmem
  intro hdev
  rw [hnetdev] at hdev
  have hempty := h.netdev n hdev
  by_cases hoob : (s.net.node n).oobmsgqueue = []
  · rw [hfirst hoob] at hempty
    exact absurd hempty (cons_ne_nil m node.msgqueue)
  · rw [hrest hoob, hempty]

/-- What a flush does to the list and the nodes: nothing, but for the out-of-band queue; or a queue is emptied; or the
node is taken off the list as well; or it has no network any more, when it is off the list. -/
lemma changeStep_nodes {s : MsgState} (h : MsgInv s) (hc : s.In c (.change ch none)) :
    (SameNodes s (changeStep s c ch) ∧ (∀ n, ch = .shutdown n → (s.node n).shutdown &&& RCV_SHUTDOWN = 0 ∨ n ∉ s.live) ∧
        ∀ n, ch ≠ .release n .begin) ∨
      (∃ n node, ch = .shutdown n ∧ n ∈ s.live ∧ (s.node n).shutdown &&& RCV_SHUTDOWN ≠ 0 ∧
        (changeStep s c ch).live = s.live ∧ (changeStep s c ch).node = update s.node n node ∧
        node.connected = (s.node n).connected ∧ node.ipn = (s.node n).ipn ∧ node.msgqueue = []) ∨
      (∃ n node, ch = .release n .begin ∧ (changeStep s c ch).live = s.live ∧
        (changeStep s c ch).node = update s.node n node ∧ node.connected = false ∧ node.msgqueue = []) ∨
      (∃ n node, ch = .release n .flushedOob ∧ n ∈ s.live ∧ (s.node n).connected = false ∧
        (changeStep s c ch).live = s.live ∧ (changeStep s c ch).node = update s.node n node ∧
        node.connected = (s.node n).connected ∧ node.netdev = (s.node n).netdev ∧
        node.msgqueue = (s.node n).msgqueue) := by
  cases ch with
  | connect => exact .inl ⟨.of_eq rfl rfl, fun _ hne => Change.noConfusion hne, fun _ hne => Change.noConfusion hne⟩
  | shutdown n =>
    rw [changeStep]
    by_cases hshut : (s.node n).shutdown &&& RCV_SHUTDOWN = 0
    · rw [if_neg (not_not.2 hshut)]
      exact .inl ⟨.of_eq rfl rfl, fun n' heq => .inl (by cases heq; exact hshut), fun _ hne => Change.noConfusion hne⟩
    rw [if_pos hshut]
    by_cases hn : n ∈ s.live
    · rw [ipnFlushRecvqueue_eq hn]
      exact .inr (.inl ⟨n, _, rfl, hn, hshut, rfl, rfl, rfl, rfl, rfl⟩)
    rw [ipnFlushRecvqueue, if_pos hn]
    exact .inl ⟨.of_eq rfl rfl, fun n' heq => .inr (by cases heq; exact hn), fun _ hne => Change.noConfusion hne⟩
  | release n stage =>
    have hn : n ∈ s.live := by
      apply h.shape.releases c hc.1
      rw [hc.2]
      exact decide_eq_true rfl
    cases stage with
    | begin =>
      have heq := @ipnFlushRecvqueue_eq (s.setNode n { s.node n with connected := false }) n hn
      rw [changeStep, heq]
      refine .inr (.inr (.inl ⟨n, _, rfl, rfl, update_idem _ _ _, ?_, rfl⟩))
      simp
    | flushed =>
      rw [changeStep, ipnFlushOobrecvqueue_eq hn]
      exact .inl ⟨.setNode rfl rfl rfl rfl rfl rfl, fun _ hne => Change.noConfusion hne, fun _ hne => by cases hne⟩
    | flushedOob =>
      have hoff : (s.phase c).flushed false n = true := by
        rw [hc.2]
        simp [MsgPhase.flushed]
      exact .inr (.inr (.inr ⟨n, _, rfl, hn, (h.shape.flushed c hc.1 n hoff).1, rfl, rfl, rfl, rfl, rfl⟩))
    | detached => exact .inl ⟨.of_eq rfl rfl, fun _ hne => Change.noConfusion hne, fun _ hne => by cases hne⟩

lemma history_flush (hc : s.net.In c (.change ch none)) :
    s.history (.flush c) = match ch with
      | .shutdown n =>
        if (s.net.node n).shutdown &&& RCV_SHUTDOWN ≠ 0 then
          { s with net := changeStep s.net c ch }.flush n (s.net.node n).msgqueue
        else { s with net := changeStep s.net c ch }
      | .release n .begin =>
        { s with net := changeStep s.net c ch, connectqueue := s.connectqueue.erase n }.flush n (s.net.node n).msgqueue
      | _ => { s with net := changeStep s.net c ch } := by
  simp only [BcastState.history, msgStep, hc.2]
  cases ch with
  | release n stage => cases stage <;> rfl
  | _ => rfl

lemma flush_listed (h : Listed s) (hmsg : MsgInv s.net) (he : (MsgEvent.flush c).Legal s.net) :
    Listed (s.history (.flush c)) := by
  obtain ⟨ch, hc⟩ := he
  have hnet : (s.history (.flush c)).net = changeStep s.net c ch := by
    rw [history_net]
    simp only [msgStep, hc.2]
  have hqueue : (∀ n, ch ≠ .release n .begin) → (s.history (.flush c)).connectqueue = s.connectqueue := by
    intro hne
    rw [history_flush hc]
    cases ch with
    | connect => rfl
    | shutdown n =>
      dsimp only
      split_ifs
      · rfl
      · rfl
    | release n stage =>
      cases stage with
      | begin => exact absurd rfl (hne n)
      | _ => rfl
  rcases changeStep_nodes hmsg hc with ⟨hsame, _, hne⟩ | ⟨n, node, hch, hn, _, hlive, hnode, hconnected, hipn, hempty⟩ |
    ⟨n, node, hch, hlive, hnode, hconnected, hempty⟩ | ⟨n, node, hch, hn, hoff, hlive, hnode, hconnected, hdev, hmsgs⟩
  · apply h.same (hqueue hne)
    rw [hnet]
    exact hsame
  · have hne : ∀ n', ch ≠ .release n' .begin := by
      intro n' heq
      rw [hch] at heq
      exact Change.noConfusion heq
    rw [← hnet] at hlive hnode
    apply h.setNode hn (hqueue hne) hlive hnode hconnected
    · intro hmem
      rw [hipn]
      exact h.ipn n hmem
    · exact fun _ => hempty
  · subst hch
    rw [← hnet] at hlive hnode
    exact h.erase (by rw [history_flush hc]; rfl) hlive hnode hconnected hempty
  · have hne : ∀ n', ch ≠ .release n' .begin := by
      intro n' heq
      rw [hch] at heq
      cases heq
    rw [← hnet] at hlive hnode
    apply h.setNode hn (hqueue hne) hlive hnode hconnected
    · intro hmem
      have hon := ((h.connected n).1 hmem).2
      rw [hoff] at hon
      cases hon
    intro hnetdev
    rw [hmsgs]
    rw [hdev] at hnetdev
    exact h.netdev n hnetdev

lemma history_listed (h : Listed s) (hmsg : MsgInv s.net) (he : e.Legal s.net) : Listed (s.history e) := by
  cases e with
  | send c oob alloc => exact send_listed h he (history_connectqueue s (by simp) (by simp)) (history_net s _)
  | read c n => exact read_listed h he (history_connectqueue s (by simp) (by simp)) (history_net s _)
  | flush c => exact flush_listed h hmsg he
  | lockConnect c n netdev oobNumnodes shutdown => exact h.connect he.2 rfl rfl rfl rfl rfl rfl
  | freeNode c =>
    obtain ⟨n, hc⟩ := he
    have hflushed : (s.net.phase c).flushed false n = true := by
      rw [hc.2]
      exact decide_eq_true rfl
    obtain ⟨hoff, hempty⟩ := hmsg.shape.flushed c hc.1 n hflushed
    have hnet := history_net s (.freeNode c)
    simp only [msgStep, hc.2] at hnet
    exact h.free rfl (by rw [hnet]) (by rw [hnet]; rfl) hoff hempty
  | _ =>
    apply h.same (history_connectqueue s (by simp) (by simp))
    rw [history_net]
    exact msgStep_nodes he id

end

/-! ## The history -/

def BcastState.got (s : BcastState) (n : Nat) : List Nat := s.reads n ++ (s.net.node n).msgqueue

/-- A dispatch: its message is the last that was handed over, and the nodes that the loop has passed have it, if they
are to have it, and nobody else. -/
structure Dispatch (s : BcastState) (c m : Nat) (next : Option Nat) : Prop where
  last : ∃ l, s.handed = l ++ [m]
  place : ∃ pre, LoopAt s.connectqueue (s.cursor c) pre next ∧ (∀ n, n ∉ pre → s.copies n m = 0) ∧
    ∀ n ∈ pre, n ∈ s.audience m → s.copies n m = 1
  sender : ∀ w, s.writes c = some w → w.node ∉ s.audience m

/-- The history is right: a message is handed over once, by the call that has it; a node gets messages in the order in
which they were handed over; and a message that is dispatched by nobody has got to its audience. -/
structure History (s : BcastState) : Prop where
  used : ∀ m ∈ s.handed, m ∈ s.used
  nodup : s.handed.Nodup
  early : ∀ c m, s.net.role c = .early m → m ∉ s.handed ∧ m ∈ s.used
  late : ∀ c m, s.net.role c = .late m → m ∈ s.handed
  got : ∀ n, (s.got n).Sublist s.handed
  known : ∀ n m, 0 < s.copies n m → m ∈ s.handed
  done : ∀ m ∈ s.handed, (∀ c next, s.net.role c ≠ .handle m next) → ∀ n ∈ s.audience m, s.copies n m = 1
  dispatch : ∀ c m next, s.net.role c = .handle m next → Dispatch s c m next

section

variable {s s' : BcastState} {c n m : Nat} {next : Option Nat} {r : Role}

lemma Dispatch.same (h : Dispatch s c m next) (hcopies : ∀ n m, s'.copies n m = s.copies n m)
    (hhanded : s'.handed = s.handed) (haudience : ∀ m n, n ∈ s'.audience m → n ∈ s.audience m)
    (hqueue : s'.connectqueue = s.connectqueue) (hcursor : s'.cursor c = s.cursor c)
    (hwrites : s'.writes c = s.writes c) : Dispatch s' c m next where
  last := by
    rw [hhanded]
    exact h.last
  place := by
    obtain ⟨pre, hplace, hnone, hone⟩ := h.place
    refine ⟨pre, ?_, ?_, ?_⟩
    · rw [hqueue, hcursor]
      exact hplace
    · intro n hn
      rw [hcopies]
      exact hnone n hn
    intro n hn hmem
    rw [hcopies]
    exact hone n hn (haudience m n hmem)
  sender w hw hmem := by
    rw [hwrites] at hw
    exact h.sender w hw (haudience m w.node hmem)

lemma History.step (h : History s) (hrole : s'.net.role = update s.net.role c r)
    (hcopies : ∀ n m, s'.copies n m = s.copies n m) (hgot : ∀ n, (s'.got n).Sublist (s.got n))
    (hused : s.used ⊆ s'.used) (hhanded : s'.handed = s.handed)
    (haudience : ∀ m n, n ∈ s'.audience m → n ∈ s.audience m)
    (hothers : ∀ c' m next, c' ≠ c → s.net.role c' = .handle m next → s'.connectqueue = s.connectqueue ∧
      s'.cursor c' = s.cursor c' ∧ s'.writes c' = s.writes c')
    (hearly : ∀ m, r = .early m → m ∉ s.handed ∧ m ∈ s'.used) (hlate : ∀ m, r = .late m → m ∈ s.handed)
    (hhandle : ∀ m next, r = .handle m next → Dispatch s' c m next)
    (hdone : ∀ m next, s.net.role c = .handle m next → (∀ next', r ≠ .handle m next') →
      ∀ n ∈ s.audience m, s.copies n m = 1) : History s' := by
  have hself : s'.net.role c = r := by rw [hrole, update_self]
  have hother : ∀ {c'}, c' ≠ c → s'.net.role c' = s.net.role c' := by
    intro c' hne
    rw [hrole, update_of_ne hne]
  constructor
  · rw [hhanded]
    exact fun m hm => hused (h.used m hm)
  · rw [hhanded]
    exact h.nodup
  · intro c' m hm
    rw [hhanded]
    by_cases heq : c' = c
    · rw [heq, hself] at hm
      exact hearly m hm
    rw [hother heq] at hm
    exact ⟨(h.early c' m hm).1, hused (h.early c' m hm).2⟩
  · intro c' m hm
    rw [hhanded]
    by_cases heq : c' = c
    · rw [heq, hself] at hm
      exact hlate m hm
    rw [hother heq] at hm
    exact h.late c' m hm
  · intro n
    rw [hhanded]
    exact (hgot n).trans (h.got n)
  · intro n m hm
    rw [hcopies] at hm
    rw [hhanded]
    exact h.known n m hm
  · intro m hm hnone n hn
    rw [hhanded] at hm
    rw [hcopies]
    by_cases hwas : ∃ next, s.net.role c = .handle m next
    · obtain ⟨next, hwas⟩ := hwas
      apply hdone m next hwas _ n (haudience m n hn)
      intro next' heq
      exact hnone c next' (hself.trans heq)
    apply h.done m hm _ n (haudience m n hn)
    intro c' next' hrole'
    by_cases heq : c' = c
    · rw [heq] at hrole'
      exact hwas ⟨next', hrole'⟩
    rw [← hother heq] at hrole'
    exact hnone c' next' hrole'
  · intro c' m next hm
    by_cases heq : c' = c
    · rw [heq, hself] at hm
      rw [heq]
      exact hhandle m next hm
    rw [hother heq] at hm
    obtain ⟨hqueue, hcursor, hwrites⟩ := hothers c' m next heq hm
    exact (h.dispatch c' m next hm).same hcopies hhanded haudience hqueue hcursor hwrites

lemma History.frame (h : History s) (hrole : s'.net.role = s.net.role)
    (hcopies : ∀ n m, s'.copies n m = s.copies n m) (hgot : ∀ n, (s'.got n).Sublist (s.got n))
    (hused : s.used ⊆ s'.used) (hhanded : s'.handed = s.handed)
    (haudience : ∀ m n, n ∈ s'.audience m → n ∈ s.audience m)
    (hdispatch : ∀ c m next, s.net.role c = .handle m next → s'.connectqueue = s.connectqueue ∧
      s'.cursor c = s.cursor c ∧ s'.writes c = s.writes c) : History s' := by
  apply @History.step s s' 0 (s.net.role 0) h _ hcopies hgot hused hhanded haudience
  · exact fun c m next _ => hdispatch c m next
  · intro m hm
    exact ⟨(h.early 0 m hm).1, hused (h.early 0 m hm).2⟩
  · exact h.late 0
  · intro m next hm
    obtain ⟨hqueue, hcursor, hwrites⟩ := hdispatch 0 m next hm
    exact (h.dispatch 0 m next hm).same hcopies hhanded haudience hqueue hcursor hwrites
  · intro m next hm hnot
    exact absurd hm (hnot next)
  · rw [hrole, update_eq_self]

lemma History.hand (h : History s) (hearly : s.net.role c = .early m)
    (hunique : ∀ c', c' ≠ c → s.net.role c' ≠ .early m) (hserial : ∀ c m next, s.net.role c ≠ .handle m next)
    {net : MsgState} (hrole : net.role = update s.net.role c (.handle m none))
    (hqueue : ∀ n, (net.node n).msgqueue = (s.net.node n).msgqueue) : History ({ s with net := net }.hand c m) := by
  obtain ⟨hnew, hused⟩ := h.early c m hearly
  have hcopies : ∀ n m', ({ s with net := net }.hand c m).copies n m' = s.copies n m' := by
    intro n m'
    simp [BcastState.copies, BcastState.hand, hqueue]
  have hself : net.role c = .handle m none := by rw [hrole, update_self]
  have hother : ∀ {c'}, c' ≠ c → net.role c' = s.net.role c' := by
    intro c' hne
    rw [hrole, update_of_ne hne]
  constructor
  · intro m' hm'
    cases mem_append.1 hm' with
    | inl hold => exact h.used m' hold
    | inr hlast =>
      rw [List.mem_singleton.1 hlast]
      exact hused
  · apply nodup_append.2
    refine ⟨h.nodup, nodup_singleton m, ?_⟩
    intro a ha b hb heq
    rw [heq, List.mem_singleton.1 hb] at ha
    exact hnew ha
  · intro c' m' hm'
    by_cases heq : c' = c
    · rw [heq] at hm'
      exact Role.noConfusion (hself.symm.trans hm')
    have hm' := (hother heq).symm.trans hm'
    obtain ⟨hfresh, hused'⟩ := h.early c' m' hm'
    refine ⟨fun hmem => ?_, hused'⟩
    cases mem_append.1 hmem with
    | inl hold => exact hfresh hold
    | inr hlast =>
      rw [List.mem_singleton.1 hlast] at hm'
      exact hunique c' heq hm'
  · intro c' m' hm'
    by_cases heq : c' = c
    · rw [heq] at hm'
      exact Role.noConfusion (hself.symm.trans hm')
    · exact mem_append_left [m] (h.late c' m' ((hother heq).symm.trans hm'))
  · intro n
    have hgot : ({ s with net := net }.hand c m).got n = s.got n := by
      simp [BcastState.got, BcastState.hand, hqueue]
    rw [hgot]
    exact (h.got n).trans (sublist_append_left s.handed [m])
  · intro n m' hm'
    rw [hcopies] at hm'
    exact mem_append_left [m] (h.known n m' hm')
  · intro m' hm' hnone n hn
    rw [hcopies]
    have hne : m' ≠ m := by
      intro heq
      rw [heq] at hnone
      exact hnone c none hself
    cases mem_append.1 hm' with
    | inl hold =>
      apply h.done m' hold (fun c' next => hserial c' m' next) n
      dsimp only [BcastState.hand] at hn
      rwa [update_of_ne hne] at hn
    | inr hlast => exact absurd (List.mem_singleton.1 hlast) hne
  · intro c' m' next hm'
    by_cases heq : c' = c
    · rw [heq] at hm' ⊢
      have hsame := hself.symm.trans hm'
      cases hsame
      constructor
      · exact ⟨s.handed, rfl⟩
      · refine ⟨[], ⟨s.connectqueue, rfl, ?_⟩, ?_, fun _ hn => absurd hn not_mem_nil⟩
        · simp [BcastState.hand, listAfter]
        intro n _
        rw [hcopies]
        exact Nat.eq_zero_of_not_pos fun hpos => hnew (h.known n m hpos)
      intro w hw hmem
      have hw' : s.writes c = some w := hw
      simp [BcastState.hand, hw'] at hmem
    · exact absurd ((hother heq).symm.trans hm') (hserial c' m' next)

lemma History.deliver (h : History s) (hl : s.connectqueue.Nodup) (hhandle : s.net.role c = .handle m (some n))
    (hserial : ∀ c' m' next, c' ≠ c → s.net.role c' ≠ .handle m' next) {net : MsgState} {reads : Nat → List Nat}
    (hs' : s' = { s with net := net, reads := reads })
    (hrole : net.role = update s.net.role c (.handle m none))
    (hcopies : ∀ n' m', n' ≠ n ∨ m' ≠ m → s'.copies n' m' = s.copies n' m') (hgot : ∀ n', n' ≠ n → s'.got n' = s.got n')
    (htaken : s'.copies n m = s.copies n m + 1 ∧ s'.got n = s.got n ++ [m] ∨
      s'.copies n m = s.copies n m ∧ s'.got n = s.got n ∧ n ∉ s.audience m) : History s' := by
  obtain ⟨⟨l, hlast⟩, ⟨pre, hplace, hnone, hone⟩, hsender⟩ := h.dispatch c m (some n) hhandle
  have hpass := hplace.pass hl
  have hn : n ∉ pre := by
    obtain ⟨suf, heq, _⟩ := hplace
    rw [heq] at hl
    exact fun hmem => (nodup_append.1 hl).2.2 n hmem n mem_cons_self rfl
  have hzero := hnone n hn
  have hhanded : s'.handed = s.handed := by rw [hs']
  have hself : s'.net.role c = .handle m none := by
    rw [hs']
    exact (congrFun hrole c).trans (update_self ..)
  have hother : ∀ {c'}, c' ≠ c → s'.net.role c' = s.net.role c' := by
    intro c' hne
    rw [hs']
    exact (congrFun hrole c').trans (update_of_ne hne ..)
  constructor
  · rw [hs']
    exact h.used
  · rw [hhanded]
    exact h.nodup
  · intro c' m' hm'
    by_cases heq : c' = c
    · rw [heq, hself] at hm'
      exact Role.noConfusion hm'
    rw [hother heq] at hm'
    rw [hs']
    exact h.early c' m' hm'
  · intro c' m' hm'
    rw [hhanded]
    by_cases heq : c' = c
    · rw [heq, hself] at hm'
      exact Role.noConfusion hm'
    rw [hother heq] at hm'
    exact h.late c' m' hm'
  · intro n'
    rw [hhanded]
    by_cases heq : n' = n
    · rw [heq]
      cases htaken with
      | inl hyes =>
        have hfresh : m ∉ s.got n := by
          rw [BcastState.got, mem_append, not_or, ← count_eq_zero, ← count_eq_zero]
          unfold BcastState.copies at hzero
          omega
        have hsub := h.got n
        rw [hlast] at hsub ⊢
        rw [hyes.2]
        exact (sublist_of_append_singleton hsub hfresh).append (List.Sublist.refl [m])
      | inr hno =>
        rw [hno.2.1]
        exact h.got n
    rw [hgot n' heq]
    exact h.got n'
  · intro n' m' hm'
    rw [hhanded]
    by_cases heq : n' = n ∧ m' = m
    · rw [heq.2, hlast]
      simp
    rw [hcopies n' m' (not_and_or.1 heq)] at hm'
    exact h.known n' m' hm'
  · intro m' hm' hdone n' hn'
    have hne : m' ≠ m := by
      intro heq
      rw [heq] at hdone
      exact hdone c none hself
    rw [hhanded] at hm'
    rw [hs'] at hn'
    rw [hcopies n' m' (.inr hne)]
    apply h.done m' hm' _ n' hn'
    intro c' next' hrole'
    by_cases heq : c' = c
    · rw [heq, hhandle] at hrole'
      exact hne (Role.handle.inj hrole').1.symm
    · exact hserial c' m' next' heq hrole'
  · intro c' m' next' hrole'
    by_cases heq : c' = c
    · rw [heq, hself] at hrole'
      cases hrole'
      rw [heq]
      constructor
      · rw [hhanded]
        exact ⟨l, hlast⟩
      · refine ⟨pre ++ [n], by rw [hs']; exact hpass, ?_, ?_⟩
        · intro n' hn'
          rw [List.mem_append, List.mem_singleton, not_or] at hn'
          rw [hcopies n' m (.inl hn'.2)]
          exact hnone n' hn'.1
        intro n' hn' hmem
        have hmem' : n' ∈ s.audience m := by rwa [hs'] at hmem
        by_cases heq' : n' = n
        · rw [heq'] at hmem' ⊢
          cases htaken with
          | inl hyes => rw [hyes.1, hzero]
          | inr hno => exact absurd hmem' hno.2.2
        rw [hcopies n' m (.inl heq')]
        exact hone n' ((List.mem_append.1 hn').resolve_right fun hlast => heq' (List.mem_singleton.1 hlast)) hmem'
      rw [hs']
      exact hsender
    · rw [hother heq] at hrole'
      exact absurd hrole' (hserial c' m' next' heq)

end

/-! ## The invariant -/

structure BcastInv (s : BcastState) : Prop where
  lossless : s.net.lossless = true
  msg : MsgInv s.net
  serial : Serial s.net
  listed : Listed s
  history : History s
  results : ∀ r ∈ s.results, (∀ m, r.msg = some m → m ∈ s.handed ∧ ∀ c next, s.net.role c ≠ .handle m next) ∧
    (r.msg = none → r.ret < 0)
  heard : ∀ c m next, s.net.role c = .handle m next → ∀ n ∈ s.audience m, s.Hears n

variable {nested : Bool}

section

variable {s s' : BcastState} {c n m : Nat} {e : MsgEvent}

lemma BcastInv.right (h : BcastInv s) : BroadcastRight s where
  error r hr hnot := by
    obtain ⟨hsome, hnone⟩ := h.results r hr
    cases hm : r.msg with
    | none => exact hnone hm
    | some m => exact absurd (hsome m hm).1 (hnot m hm)
  once r hr _ m hm n hn := by
    obtain ⟨hmem, hdone⟩ := (h.results r hr).1 m hm
    exact h.history.done m hmem hdone n hn
  order n n' a b hab hba := by
    have hreads : ∀ n, (s.reads n).Sublist s.handed := by
      intro n
      exact (sublist_append_left (s.reads n) (s.net.node n).msgqueue).trans (h.history.got n)
    exact not_sublist_swap h.history.nodup (hab.trans (hreads n)) (hba.trans (hreads n'))

lemma BcastInv.only (h : BcastInv s) {next : Option Nat} (hrole : s.net.role c = .handle m next) (c' m' : Nat)
    (next' : Option Nat) (hne : c' ≠ c) : s.net.role c' ≠ .handle m' next' := by
  intro hrole'
  obtain ⟨hc, hlock⟩ := h.serial.locked_of_handle hrole
  obtain ⟨hc', hlock'⟩ := h.serial.locked_of_handle hrole'
  exact hne (h.serial.unique hc' hc hlock' hlock)

lemma history_quiet (h : History s) (he : e.Legal s.net) (hrole : e.KeepsRoles s.net) (hnodes : ¬e.ChangesNodes)
    {used : Finset Nat} (hs' : s' = { s with net := msgStep s.net e, used := used }) (hused : s.used ⊆ used) :
    History s' := by
  have hsame := msgStep_nodes he hnodes
  subst hs'
  apply h.frame (msgStep_role he hrole)
  · intro n m
    simp [BcastState.copies, hsame.msgqueue]
  · intro n
    simp [BcastState.got, hsame.msgqueue]
  · exact hused
  · rfl
  · exact fun _ _ hn => hn
  · exact fun _ _ _ _ => ⟨rfl, rfl, rfl⟩

lemma ipnProtoSendmsg_lossless {s : MsgState} (hlossless : s.lossless = true) (hn : n ∈ s.live)
    (hipn : (s.node n).ipn = true) (m : Nat) : ipnProtoSendmsg s n m true =
      if (s.node n).netdev = true ∨ (s.node n).shutdown &&& RCV_SHUTDOWN ≠ 0 then s
      else { s.setNode n { s.node n with
          totmsgcount := inc16 (s.node n).totmsgcount
          msgqueue := (s.node n).msgqueue ++ [m] } with
        pool := s.pool.hold m } := by
  unfold ipnProtoSendmsg
  rw [if_neg (not_not.2 hn)]
  by_cases hnetdev : (s.node n).netdev = true
  · rw [if_pos hnetdev, if_pos (.inl hnetdev)]
  rw [if_neg hnetdev]
  by_cases hshut : (s.node n).shutdown &&& RCV_SHUTDOWN = 0
  · have htakes : ¬((s.node n).netdev = true ∨ (s.node n).shutdown &&& RCV_SHUTDOWN ≠ 0) := by
      rw [not_or]
      exact ⟨hnetdev, not_not.2 hshut⟩
    have hnull : ¬(!(s.node n).ipn) = true := by simp [hipn]
    rw [if_neg (not_not.2 hshut), if_neg htakes, if_neg hnull, if_pos ⟨.inl hlossless, rfl⟩]
  · rw [if_pos hshut, if_pos (.inr hshut)]

lemma send_history (h : BcastInv s) (he : (MsgEvent.send c false true).Legal s.net) :
    History (s.history (.send c false true)) := by
  obtain ⟨m, n, nested, hc⟩ := he
  have hhandle : s.net.role c = .handle m (some n) := role_of_in hc
  have hmem : n ∈ s.connectqueue := by
    obtain ⟨pre, ⟨suf, heq, _⟩, _⟩ := (h.history.dispatch c m (some n) hhandle).place
    rw [heq]
    simp
  have hn := ((h.listed.connected n).1 hmem).1
  have hsend := ipnProtoSendmsg_lossless h.lossless hn (h.listed.ipn n hmem) m
  have hrole : (msgStep s.net (.send c false true)).role = update s.net.role c (.handle m none) := by
    have hsame := ipnProtoSendmsg_calls s.net n m true
    simp only [msgStep, hc.2]
    rw [if_neg Bool.false_ne_true, role_goto (hc.same hsame).1, role_of_same hsame]
    rfl
  have hnet : (msgStep s.net (.send c false true)).node = (ipnProtoSendmsg s.net n m true).node := by
    simp only [msgStep, hc.2]
    rfl
  by_cases hdev : (s.net.node n).netdev = true
  · have hs' : s.history (.send c false true) = { s with
        net := msgStep s.net (.send c false true)
        reads := update s.reads n (s.reads n ++ [m]) } := by
      simp only [BcastState.history, hc.2]
      rw [if_pos hdev]
      rfl
    rw [if_pos (.inl hdev)] at hsend
    have hempty := h.listed.netdev n hdev
    apply h.history.deliver h.listed.nodup hhandle (fun c' m' next' => h.only hhandle c' m' next') hs' hrole
    · intro n' m' hne
      rw [hs']
      simp only [BcastState.copies, hnet, hsend]
      by_cases heq : n' = n
      · rw [heq, update_self, count_append_other _ (hne.resolve_left (not_not.2 heq))]
      · rw [update_of_ne heq]
    · intro n' hne
      rw [hs']
      simp only [BcastState.got, hnet, hsend]
      rw [update_of_ne hne]
    left
    rw [hs']
    simp only [BcastState.copies, BcastState.got, hnet, hsend, hempty, update_self]
    rw [count_append, count_singleton_self, append_nil, append_nil]
    exact ⟨by omega, rfl⟩
  have hs' : s.history (.send c false true) = { s with
      net := msgStep s.net (.send c false true)
      reads := s.reads } := by
    simp only [BcastState.history, hc.2]
    rw [if_neg hdev]
  by_cases hshut : (s.net.node n).shutdown &&& RCV_SHUTDOWN = 0
  · rw [if_neg (not_or.2 ⟨hdev, not_not.2 hshut⟩)] at hsend
    have hself : ((msgStep s.net (.send c false true)).node n).msgqueue = (s.net.node n).msgqueue ++ [m] := by
      rw [hnet, hsend]
      simp
    have hother : ∀ n', n' ≠ n →
        ((msgStep s.net (.send c false true)).node n').msgqueue = (s.net.node n').msgqueue := by
      intro n' hne
      rw [hnet, hsend]
      simp [hne]
    apply h.history.deliver h.listed.nodup hhandle (fun c' m' next' => h.only hhandle c' m' next') hs' hrole
    · intro n' m' hne
      rw [hs']
      simp only [BcastState.copies]
      by_cases heq : n' = n
      · rw [heq, hself, count_append_other _ (hne.resolve_left (not_not.2 heq))]
      · rw [hother n' heq]
    · intro n' hne
      rw [hs']
      simp only [BcastState.got]
      rw [hother n' hne]
    left
    rw [hs']
    simp only [BcastState.copies, BcastState.got]
    rw [hself, count_append, count_singleton_self, append_assoc]
    exact ⟨by omega, rfl⟩
  rw [if_pos (.inr hshut)] at hsend
  apply h.history.deliver h.listed.nodup hhandle (fun c' m' next' => h.only hhandle c' m' next') hs' hrole
  · intro n' m' _
    rw [hs']
    simp only [BcastState.copies, hnet, hsend]
  · intro n' _
    rw [hs']
    simp only [BcastState.got, hnet, hsend]
  right
  rw [hs']
  simp only [BcastState.copies, BcastState.got, hnet, hsend, true_and]
  intro hmem'
  exact hshut (h.heard c m (some n) hhandle n hmem').2

lemma put_history (h : History s) (he : (MsgEvent.put c).Legal s.net) : History (s.history (.put c)) := by
  obtain ⟨m, hc⟩ := he
  have hrole : (s.history (.put c)).net.role = update s.net.role c .idle := by
    rw [history_net]
    simp only [msgStep, hc.2]
    exact role_leave s.net c
  have hnode : (s.history (.put c)).net.node = s.net.node := by
    rw [history_net]
    simp only [msgStep, hc.2]
    rfl
  have hsame : (s.history (.put c)).reads = s.reads ∧ (s.history (.put c)).flushed = s.flushed ∧
      (s.history (.put c)).handed = s.handed ∧ (s.history (.put c)).used = s.used ∧
      (s.history (.put c)).audience = s.audience ∧ (s.history (.put c)).cursor = s.cursor ∧
      ∀ c', c' ≠ c → (s.history (.put c)).writes c' = s.writes c' := by
    simp only [BcastState.history, hc.2]
    split
    · refine ⟨rfl, rfl, rfl, rfl, rfl, rfl, ?_⟩
      intro c' hne
      exact update_of_ne hne ..
    · exact ⟨rfl, rfl, rfl, rfl, rfl, rfl, fun _ _ => rfl⟩
  obtain ⟨hreads, hflushed, hhanded, hused, haudience, hcursor, hwrites⟩ := hsame
  apply h.step hrole
  · intro n m
    simp only [BcastState.copies, hreads, hflushed, hnode]
  · intro n
    simp only [BcastState.got, hreads, hnode]
    exact List.Sublist.refl _
  · rw [hused]
  · exact hhanded
  · rw [haudience]
    exact fun _ _ hn => hn
  · intro c' m' next hne _
    exact ⟨history_connectqueue s (by simp) (by simp), by rw [hcursor], hwrites c' hne⟩
  · exact fun _ hidle => Role.noConfusion hidle
  · exact fun _ hidle => Role.noConfusion hidle
  · exact fun _ _ hidle => Role.noConfusion hidle
  · intro m' next hhandle
    exact Role.noConfusion ((role_of_in hc).symm.trans hhandle)

lemma write_history (h : History s) (hc : c ∉ s.net.calls) (hm : m ∉ s.used) : History (s.history (.write c m)) := by
  apply @History.step s _ c (.early m) h
  · exact role_enter s.net c (.write m)
  · exact fun _ _ => rfl
  · exact fun _ => List.Sublist.refl _
  · exact subset_insert m s.used
  · rfl
  · exact fun _ _ hn => hn
  · exact fun _ _ _ _ _ => ⟨rfl, rfl, rfl⟩
  · intro m' heq
    have hmm := Role.early.inj heq
    rw [← hmm]
    exact ⟨fun hmem => hm (h.used m hmem), mem_insert_self m s.used⟩
  · exact fun _ hearly => Role.noConfusion hearly
  · exact fun _ _ hearly => Role.noConfusion hearly
  · intro m' next hhandle
    exact Role.noConfusion ((role_of_notMem hc).symm.trans hhandle)

lemma set_history (h : BcastInv s) (he : (MsgEvent.set c).Legal s.net) : History (s.history (.set c)) := by
  obtain ⟨m, hc⟩ := he
  have hearly : s.net.role c = .early m := role_of_in hc
  have hhas := h.serial.mutex c hc.1 (by rw [hc.2]; rfl)
  have hs' : s.history (.set c) = { s with net := msgStep s.net (.set c) }.hand c m := by
    simp only [BcastState.history, hc.2]
  have hnet : msgStep s.net (.set c) = { s.net.goto c (.handle m none false) with recinject := true } := by
    simp only [msgStep, hc.2]
  rw [hs', hnet]
  apply h.history.hand hearly
  · intro c' hne hrole
    obtain ⟨hcalls, hinj⟩ := injects_of_role (.inl hrole)
    obtain ⟨_, hinjc⟩ := injects_of_role (.inl hearly)
    exact hne (h.msg.shape.injects c' hcalls c hc.1 m hinj hinjc)
  · apply h.serial.not_handle (.inr hhas)
    intro m' next hhandle
    exact Role.noConfusion (hearly.symm.trans hhandle)
  · exact role_goto hc.1 (.handle m none false)
  · exact fun _ => rfl

lemma read_history (h : History s) (he : (MsgEvent.read c n).Legal s.net) : History (s.history (.read c n)) := by
  have hturn := he
  obtain ⟨_, _, hsome⟩ := hturn
  obtain ⟨⟨m, node⟩, hread⟩ := isSome_iff_exists.1 hsome
  obtain ⟨_, _, _, hfirst, hrest⟩ := ipnNodeRead_fields hread
  have hnet : (msgStep s.net (.read c n)).node = update s.net.node n node := by
    simp only [msgStep, hread]
    rfl
  have hrole : (s.history (.read c n)).net.role = s.net.role := by
    rw [history_net]
    exact msgStep_role he trivial
  by_cases hoob : (s.net.node n).oobmsgqueue = []
  · have hqueue := hfirst hoob
    have hs' : s.history (.read c n) = { s with net := msgStep s.net (.read c n) }.setRead n m := by
      simp only [BcastState.history, hoob, hqueue]
    rw [hs'] at hrole ⊢
    apply h.frame hrole
    · intro n' m'
      simp only [BcastState.copies, BcastState.setRead, hnet]
      by_cases heq : n' = n
      · rw [heq, update_self, update_self, hqueue]
        simp only [count_append, count_cons, count_nil]
        omega
      · rw [update_of_ne heq, update_of_ne heq]
    · intro n'
      simp only [BcastState.got, BcastState.setRead, hnet]
      by_cases heq : n' = n
      · rw [heq, update_self, update_self, hqueue, append_assoc, singleton_append]
      · rw [update_of_ne heq, update_of_ne heq]
    · exact Subset.refl _
    · rfl
    · exact fun _ _ hn => hn
    · exact fun _ _ _ _ => ⟨rfl, rfl, rfl⟩
  have hqueue := hrest hoob
  have hs' : s.history (.read c n) = { s with net := msgStep s.net (.read c n) } := by
    simp only [BcastState.history]
    cases hlist : (s.net.node n).oobmsgqueue with
    | nil => exact absurd hlist hoob
    | cons a rest => rfl
  have hsame : ∀ n', ((msgStep s.net (.read c n)).node n').msgqueue = (s.net.node n').msgqueue := by
    intro n'
    rw [hnet]
    by_cases heq : n' = n
    · rw [heq, update_self, hqueue]
    · rw [update_of_ne heq]
  rw [hs'] at hrole ⊢
  apply h.frame hrole
  · intro n' m'
    simp only [BcastState.copies, hsame]
  · intro n'
    simp only [BcastState.got, hsame]
    exact List.Sublist.refl _
  · exact Subset.refl _
  · rfl
  · exact fun _ _ hn => hn
  · exact fun _ _ _ _ => ⟨rfl, rfl, rfl⟩

lemma lockConnect_history (h : BcastInv s) {netdev oobNumnodes : Bool} {shutdown : BitVec 8}
    (he : (MsgEvent.lockConnect c n netdev oobNumnodes shutdown).Legal s.net) :
    History (s.history (.lockConnect c n netdev oobNumnodes shutdown)) := by
  have hturn := he
  obtain ⟨hfree, hn⟩ := hturn
  have hempty := h.listed.dead n hn
  have hqueue : ∀ n', ((s.history (.lockConnect c n netdev oobNumnodes shutdown)).net.node n').msgqueue =
      (s.net.node n').msgqueue := by
    intro n'
    rw [history_net]
    by_cases heq : n' = n
    · rw [heq, hempty]
      simp [msgStep]
    · simp [msgStep, heq]
  apply h.history.frame
  · rw [history_net]
    exact msgStep_role he trivial
  · intro n' m'
    rw [BcastState.copies, hqueue]
    rfl
  · intro n'
    rw [BcastState.got, hqueue]
    exact List.Sublist.refl _
  · exact Subset.refl _
  · rfl
  · exact fun _ _ hn => hn
  · intro c' m' next hhandle
    exact absurd hhandle (h.serial.not_handle (.inl hfree.2) (fun m next hrole =>
      Role.noConfusion ((role_of_notMem hfree.1).symm.trans hrole)) c' m' next)

lemma history_flush_kept (hc : s.net.In c (.change ch none)) : (s.history (.flush c)).used =
    s.used ∧ (s.history (.flush c)).handed = s.handed ∧ (s.history (.flush c)).audience = s.audience ∧
    (s.history (.flush c)).reads = s.reads := by
  rw [history_flush hc]
  split
  · split_ifs
    · exact ⟨rfl, rfl, rfl, rfl⟩
    · exact ⟨rfl, rfl, rfl, rfl⟩
  · exact ⟨rfl, rfl, rfl, rfl⟩
  · exact ⟨rfl, rfl, rfl, rfl⟩

section

variable (h : BcastInv s) (he : (MsgEvent.flush c).Legal s.net)

include h he

lemma flush_frame (hcopies : ∀ n m, (s.history (.flush c)).copies n m = s.copies n m)
    (hqueue : ∀ n, ((s.history (.flush c)).net.node n).msgqueue.Sublist (s.net.node n).msgqueue) :
    History (s.history (.flush c)) := by
  obtain ⟨ch, hc⟩ := he
  have hhas := h.serial.mutex c hc.1 (by rw [hc.2]; rfl)
  have hidle : s.net.role c = .idle := role_of_in hc
  have hserial := h.serial.not_handle (.inr hhas) (fun m next hrole => Role.noConfusion (hidle.symm.trans hrole))
  obtain ⟨hused, hhanded, haudience, hreads⟩ := history_flush_kept hc
  have hrole : (s.history (.flush c)).net.role = s.net.role := by
    rw [history_net]
    exact msgStep_role ⟨ch, hc⟩ trivial
  apply h.history.frame hrole hcopies
  · intro n
    rw [BcastState.got, BcastState.got, hreads]
    exact (List.Sublist.refl _).append (hqueue n)
  · rw [hused]
  · exact hhanded
  · rw [haudience]
    exact fun _ _ hn => hn
  · intro c' m' next hhandle
    exact absurd hhandle (hserial c' m' next)

lemma flush_emptied {node : MsgNode}
    (hnode : (s.history (.flush c)).net.node = update s.net.node n node) (hempty : node.msgqueue = [])
    (hflushed : (s.history (.flush c)).flushed = update s.flushed n (s.flushed n ++ (s.net.node n).msgqueue)) :
    History (s.history (.flush c)) := by
  have hreads : (s.history (.flush c)).reads = s.reads := by
    obtain ⟨ch, hc⟩ := he
    exact (history_flush_kept hc).2.2.2
  apply flush_frame h he
  · intro n' m'
    simp only [BcastState.copies, hreads, hflushed, hnode]
    by_cases heq : n' = n
    · rw [heq, update_self, update_self, hempty, count_append, count_nil]
      omega
    · rw [update_of_ne heq, update_of_ne heq]
  intro n'
  rw [hnode]
  by_cases heq : n' = n
  · rw [heq, update_self, hempty]
    exact nil_sublist _
  · rw [update_of_ne heq]

lemma flush_queues (hqueue : ∀ n, ((s.history (.flush c)).net.node n).msgqueue = (s.net.node n).msgqueue)
    (hflushed : (s.history (.flush c)).flushed = s.flushed) : History (s.history (.flush c)) := by
  have hreads : (s.history (.flush c)).reads = s.reads := by
    obtain ⟨ch, hc⟩ := he
    exact (history_flush_kept hc).2.2.2
  apply flush_frame h he
  · intro n m
    rw [BcastState.copies, BcastState.copies, hqueue, hreads, hflushed]
  intro n
  rw [hqueue]

lemma flush_history : History (s.history (.flush c)) := by
  have hturn := he
  obtain ⟨ch, hc⟩ := hturn
  have hhistory := history_flush hc
  have hnet : (s.history (.flush c)).net = changeStep s.net c ch := by
    rw [history_net]
    simp only [msgStep, hc.2]
  rcases changeStep_nodes h.msg hc with ⟨hsame, hshut, hne⟩ | ⟨n, node, hch, _, hshut, _, hnode, _, _, hempty⟩ |
    ⟨n, node, hch, _, hnode, _, hempty⟩ | ⟨n, node, hch, _, _, _, hnode, _, _, hmsgs⟩
  · have hqueue : ∀ n, ((s.history (.flush c)).net.node n).msgqueue = (s.net.node n).msgqueue := by
      rw [hnet]
      exact hsame.msgqueue
    have hflushed : (s.history (.flush c)).flushed = s.flushed := by
      rw [hhistory]
      cases ch with
      | connect => rfl
      | shutdown n =>
        dsimp only
        by_cases hflag : (s.net.node n).shutdown &&& RCV_SHUTDOWN = 0
        · rw [if_neg (not_not.2 hflag)]
        have hdead := h.listed.dead n ((hshut n rfl).resolve_left hflag)
        rw [if_pos hflag, BcastState.flush, hdead, append_nil]
        exact update_eq_self n s.flushed
      | release n stage =>
        cases stage with
        | begin => exact absurd rfl (hne n)
        | _ => rfl
    exact flush_queues h he hqueue hflushed
  · subst hch
    apply flush_emptied h he (by rw [hnet, hnode]) hempty
    rw [hhistory]
    dsimp only
    rw [if_pos hshut]
    rfl
  · subst hch
    apply flush_emptied h he (by rw [hnet, hnode]) hempty
    rw [hhistory]
    rfl
  · subst hch
    have hqueue : ∀ n', ((s.history (.flush c)).net.node n').msgqueue = (s.net.node n').msgqueue := by
      intro n'
      rw [hnet, hnode]
      by_cases heq : n' = n
      · rw [heq, update_self, hmsgs]
      · rw [update_of_ne heq]
    have hflushed : (s.history (.flush c)).flushed = s.flushed := by
      rw [hhistory]
    exact flush_queues h he hqueue hflushed

end

lemma history_history (h : BcastInv s) (he : (BcastEvent.net e).Legal s) (hok : BroadcastOk s (.net e)) :
    History (s.history e) := by
  obtain ⟨hlegal, hrest⟩ := he
  cases e with
  | write c m => exact write_history h.history hlegal.1 hrest.2
  | copy c ok => exact history_quiet h.history hlegal hok id rfl (Subset.refl _)
  | test c =>
    have hflag : s.net.recinject = false := hok
    have hturn := hlegal
    obtain ⟨m, hc⟩ := hturn
    have hs' : s.history (.test c) = { s with net := msgStep s.net (.test c), used := s.used } := by
      simp only [BcastState.history, hc.2, hflag]
      rfl
    exact history_quiet h.history hlegal hflag id hs' (Subset.refl _)
  | down c got => exact history_quiet h.history hlegal hok id rfl (Subset.refl _)
  | set c => exact set_history h hlegal
  | pick | clear | handled => exact hrest.elim
  | send c oob alloc =>
    obtain ⟨hoob, halloc⟩ : oob = false ∧ alloc = true := hrest
    subst hoob halloc
    exact send_history h hlegal
  | put c => exact put_history h.history hlegal
  | read c n => exact read_history h.history hlegal
  | lockConnect c n netdev oobNumnodes shutdown => exact lockConnect_history h hlegal
  | countAlloc c m => exact history_quiet h.history hlegal trivial id rfl (subset_insert m s.used)
  | flush c => exact flush_history h hlegal
  | freeNode c =>
    have hturn := hlegal
    obtain ⟨n, hc⟩ := hturn
    have hnode : (s.history (.freeNode c)).net.node = s.net.node := by
      rw [history_net]
      simp only [msgStep, hc.2]
      rfl
    apply h.history.frame
    · rw [history_net]
      exact msgStep_role hlegal trivial
    · intro n' m'
      rw [BcastState.copies, hnode]
      rfl
    · intro n'
      rw [BcastState.got, hnode]
      exact List.Sublist.refl _
    · exact Subset.refl _
    · rfl
    · exact fun _ _ hn => hn
    · exact fun _ _ _ _ => ⟨rfl, rfl, rfl⟩
  | up | consume | setShutdown | lockShutdown | lockRelease | countSend | countPut | upChange | other =>
    exact history_quiet h.history hlegal trivial id rfl (Subset.refl _)

/-! ## The loop of a dispatch -/

lemma ipnBcastHandlemsg_cases (h : BcastInv s) (hc : s.net.In c (.handle m none nested)) :
    ipnBcastHandlemsg s c = s ∨
      (listAfter s.connectqueue (s.cursor c) = some [] ∧
        ipnBcastHandlemsg s c = { s with net := msgStep s.net (.clear c) }) ∨
      ∃ n rest w, listAfter s.connectqueue (s.cursor c) = some (n :: rest) ∧ s.writes c = some w ∧
        (n = w.node ∧ ipnBcastHandlemsg s c = { s with cursor := update s.cursor c (some n) } ∨
          ipnBcastHandlemsg s c = { s with
            cursor := update s.cursor c (some n), net := msgStep s.net (.pick c n) }) := by
  obtain ⟨hplain, _⟩ := h.serial.of_handle hc
  subst hplain
  obtain ⟨pre, ⟨suf, _, hafter⟩, _⟩ := (h.history.dispatch c m none (role_of_in hc)).place
  simp only [ipnBcastHandlemsg, hc.2]
  cases hw : s.writes c with
  | none => exact .inl rfl
  | some w =>
    cases suf with
    | nil =>
      simp only [hafter]
      exact .inr (.inl ⟨trivial, rfl⟩)
    | cons n rest =>
      simp only [hafter]
      refine .inr (.inr ⟨n, rest, w, rfl, rfl, ?_⟩)
      by_cases hn : n = w.node
      · rw [if_neg (not_not.2 hn)]
        exact .inl ⟨hn, rfl⟩
      rw [if_pos hn]
      exact .inr rfl

lemma mem_of_listAfter {l rest : List Nat} {cursor : Option Nat} (h : listAfter l cursor = some (n :: rest)) :
    n ∈ l := by
  cases cursor with
  | none =>
    rw [some.inj h]
    exact mem_cons_self
  | some a =>
    rw [listAfter] at h
    split_ifs at h
    have hmem : n ∈ (l.dropWhile (· != a)).tail := by
      rw [some.inj h]
      exact mem_cons_self
    exact (dropWhile_sublist _).subset (mem_of_mem_tail hmem)

lemma History.loop {next next' : Option Nat} (h : History s) (hhandle : s.net.role c = .handle m next)
    (hrole : s'.net.role = update s.net.role c (.handle m next')) (hcopies : ∀ n m, s'.copies n m = s.copies n m)
    (hgot : ∀ n, s'.got n = s.got n) (hused : s'.used = s.used) (hhanded : s'.handed = s.handed)
    (haudience : s'.audience = s.audience) (hqueue : s'.connectqueue = s.connectqueue)
    (hcursor : ∀ c', c' ≠ c → s'.cursor c' = s.cursor c') (hwrites : s'.writes = s.writes)
    (hdispatch : Dispatch s' c m next') : History s' := by
  apply h.step hrole hcopies
  · intro n
    rw [hgot]
  · rw [hused]
  · exact hhanded
  · rw [haudience]
    exact fun _ _ hn => hn
  · intro c' _ _ hne _
    exact ⟨hqueue, hcursor c' hne, by rw [hwrites]⟩
  · exact fun _ hearly => Role.noConfusion hearly
  · exact fun _ hlate => Role.noConfusion hlate
  · intro m' next'' hsame
    cases hsame
    exact hdispatch
  · intro m' next'' hbefore hnot
    rw [hhandle] at hbefore
    cases hbefore
    exact absurd rfl (hnot next')

lemma end_history (h : BcastInv s) (hc : s.net.In c (.handle m none false))
    (hend : listAfter s.connectqueue (s.cursor c) = some []) : History { s with net := msgStep s.net (.clear c) } := by
  have hhandle : s.net.role c = .handle m none := role_of_in hc
  obtain ⟨⟨l, hlast⟩, ⟨pre, ⟨suf, hlist, hafter⟩, -, hone⟩, -⟩ := h.history.dispatch c m none hhandle
  have hnet : msgStep s.net (.clear c) = { s.net.goto c (.cleared m) with recinject := false } := by
    simp only [msgStep, hc.2]
  apply @History.step s _ c (.late m) h.history
  · rw [hnet]
    exact role_goto hc.1 (.cleared m)
  · intro n m'
    rw [hnet]
    rfl
  · intro n
    rw [hnet]
    exact List.Sublist.refl _
  · exact Subset.refl _
  · rfl
  · exact fun _ _ hn => hn
  · exact fun _ _ _ _ _ => ⟨rfl, rfl, rfl⟩
  · exact fun _ hlate => Role.noConfusion hlate
  · intro m' hlate
    rw [← Role.late.inj hlate, hlast]
    exact mem_append_right l mem_cons_self
  · exact fun _ _ hlate => Role.noConfusion hlate
  · intro m' next hrole _ n hn
    rw [hhandle] at hrole
    cases hrole
    rw [hend] at hafter
    rw [← some.inj hafter, append_nil] at hlist
    apply hone n _ hn
    rw [← hlist]
    exact (h.heard c m none hhandle n hn).1

lemma next_history (h : BcastInv s) (hc : s.net.In c (.handle m none nested)) :
    History (ipnBcastHandlemsg s c) := by
  have hhandle : s.net.role c = .handle m none := role_of_in hc
  obtain ⟨hlast, ⟨pre, ⟨suf, hlist, hafter⟩, hnone, hone⟩, hsender⟩ := h.history.dispatch c m none hhandle
  obtain ⟨hplain, _⟩ := h.serial.of_handle hc
  subst hplain
  rcases ipnBcastHandlemsg_cases h hc with hsame | ⟨hend, hs'⟩ | ⟨n, rest, w, hnext, hw, hs'⟩
  · rw [hsame]
    exact h.history
  · rw [hs']
    exact end_history h hc hend
  rw [hnext] at hafter
  rw [← some.inj hafter] at hlist
  have hplace : LoopAt s.connectqueue (some n) pre (some n) := ⟨rest, hlist, rfl⟩
  rcases hs' with ⟨hfrom, hs'⟩ | hs'
  · -- the node that has sent the message is passed
    rw [hs']
    refine @History.loop s _ c m none none h.history hhandle ?_ (fun _ _ => rfl) (fun _ => rfl) rfl rfl rfl rfl
      (fun c' hne => update_of_ne hne ..) rfl ⟨hlast, ⟨pre ++ [n], ?_, ?_, ?_⟩, hsender⟩
    · rw [← hhandle, update_eq_self]
    · dsimp only
      rw [update_self]
      exact hplace.pass h.listed.nodup
    · intro n' hn'
      exact hnone n' fun hpre => hn' (mem_append_left [n] hpre)
    · intro n' hn' haud
      cases mem_append.1 hn' with
      | inl hpre => exact hone n' hpre haud
      | inr hself =>
        rw [List.mem_singleton.1 hself, hfrom] at haud
        exact absurd haud (hsender w hw)
  rw [hs']
  have hnet : msgStep s.net (.pick c n) = s.net.goto c (.handle m (some n) false) := by
    simp only [msgStep, hc.2]
  refine @History.loop s _ c m none (some n) h.history hhandle ?_ ?_ ?_ rfl rfl rfl rfl
    (fun c' hne => update_of_ne hne ..) rfl ⟨hlast, ⟨pre, ?_, ?_, ?_⟩, hsender⟩
  · rw [hnet]
    exact role_goto hc.1 (.handle m (some n) false)
  · intro n m'
    rw [hnet]
    rfl
  · intro n
    rw [hnet]
    rfl
  · dsimp only
    rw [update_self]
    exact hplace
  · intro n' hn'
    rw [hnet]
    exact hnone n' hn'
  · intro n' hn' haud
    rw [hnet]
    exact hone n' hn' haud

/-! ## Steps -/

def ResultsRight (s : BcastState) : Prop :=
  ∀ r ∈ s.results, (∀ m, r.msg = some m → m ∈ s.handed ∧ ∀ c next, s.net.role c ≠ .handle m next) ∧
    (r.msg = none → r.ret < 0)

lemma ResultsRight.same (h : ResultsRight s) (hresults : s'.results = s.results) (hhanded : s.handed ⊆ s'.handed)
    (hrole : ∀ c m next, s'.net.role c = .handle m next → (∃ next', s.net.role c = .handle m next') ∨ m ∉ s.handed) :
    ResultsRight s' := by
  intro r hr
  rw [hresults] at hr
  obtain ⟨hsome, hnone⟩ := h r hr
  refine ⟨fun m hm => ?_, hnone⟩
  obtain ⟨hmem, hdone⟩ := hsome m hm
  refine ⟨hhanded hmem, fun c next hhandle => ?_⟩
  cases hrole c m next hhandle with
  | inl hold =>
    obtain ⟨next', hold⟩ := hold
    exact hdone c next' hold
  | inr hnew => exact hnew hmem

lemma put_results (h : ResultsRight s) (hhistory : History s) (hmsg : MsgInv s.net) (he : (MsgEvent.put c).Legal s.net) :
    ResultsRight (s.history (.put c)) := by
  obtain ⟨m, hc⟩ := he
  have hlate : s.net.role c = .late m := role_of_in hc
  have hrole : (s.history (.put c)).net.role = update s.net.role c .idle := by
    rw [history_net]
    simp only [msgStep, hc.2]
    exact role_leave s.net c
  have hold : ∀ c' m' next, (s.history (.put c)).net.role c' = .handle m' next → s.net.role c' = .handle m' next := by
    intro c' m' next hhandle
    rw [hrole] at hhandle
    by_cases heq : c' = c
    · rw [heq, update_self] at hhandle
      exact Role.noConfusion hhandle
    · rwa [update_of_ne heq] at hhandle
  have hnone : ∀ c' next, s.net.role c' ≠ .handle m next := by
    intro c' next hhandle
    obtain ⟨hcalls, hinj⟩ := injects_of_role (.inr (.inl ⟨next, hhandle⟩))
    obtain ⟨_, hinjc⟩ := injects_of_role (.inr (.inr hlate))
    have heq := hmsg.shape.injects c' hcalls c hc.1 m hinj hinjc
    rw [heq] at hhandle
    exact Role.noConfusion (hlate.symm.trans hhandle)
  have hhanded : (s.history (.put c)).handed = s.handed := by
    simp only [BcastState.history, hc.2]
    split <;> rfl
  intro r hr
  have hcases : r ∈ s.results ∨ r.msg = some m := by
    cases hw : s.writes c with
    | none =>
      simp only [BcastState.history, hc.2, hw] at hr
      exact .inl hr
    | some w =>
      simp only [BcastState.history, hc.2, hw] at hr
      cases mem_append.1 hr with
      | inl hmem => exact .inl hmem
      | inr hlast =>
        rw [List.mem_singleton.1 hlast]
        exact .inr rfl
  cases hcases with
  | inl hmem =>
    obtain ⟨hsome, herr⟩ := h r hmem
    refine ⟨fun m' hm' => ?_, herr⟩
    obtain ⟨hin, hdone⟩ := hsome m' hm'
    rw [hhanded]
    exact ⟨hin, fun c' next hhandle => hdone c' next (hold c' m' next hhandle)⟩
  | inr hself =>
    refine ⟨fun m' hm' => ?_, fun herr => ?_⟩
    · rw [hself] at hm'
      rw [hhanded, ← some.inj hm']
      exact ⟨hhistory.late c m hlate, fun c' next hhandle => hnone c' next (hold c' m next hhandle)⟩
    rw [hself] at herr
    exact absurd herr (some_ne_none m)

lemma BcastInv.msgOk (h : BcastInv s) {oob : Bool} (he : (MsgEvent.send c oob alloc).Legal s.net) :
    MsgOk s.net (.send c oob alloc) := by
  intro m n nested hphase
  obtain ⟨_, _, _, hc⟩ := he
  have hhandle : s.net.role c = .handle m (some n) := role_of_in ⟨hc.1, hphase⟩
  obtain ⟨pre, ⟨suf, hlist, _⟩, _⟩ := (h.history.dispatch c m (some n) hhandle).place
  have hmem : n ∈ s.connectqueue := by
    rw [hlist]
    simp
  obtain ⟨hn, hon⟩ := (h.listed.connected n).1 hmem
  refine ⟨hn, fun _ c' hc' => ?_⟩
  cases hflushed : (s.net.phase c').flushed oob n with
  | false => rfl
  | true =>
    have hfirst : (s.net.phase c').flushed false n = true := by
      cases oob with
      | true => exact MsgPhase.flushed_of_flushed_oob hflushed
      | false => exact hflushed
    rw [(h.msg.shape.flushed c' hc' n hfirst).1] at hon
    cases hon

lemma observe_inv (hlossless : s.net.lossless = true) (hmsg : MsgInv s.net) (hserial : Serial s.net) (hlisted : Listed s)
    (hhistory : History s) (hresults : ResultsRight s) : BcastInv s.observe where
  lossless := hlossless
  msg := hmsg
  serial := hserial
  listed := hlisted.same rfl (.of_eq rfl rfl)
  history := by
    apply @History.frame s s.observe hhistory rfl (fun _ _ => rfl) (fun _ => List.Sublist.refl _) (Subset.refl _) rfl
    · intro m n hn
      dsimp only [BcastState.observe] at hn
      split_ifs at hn
      · exact (mem_filter.1 hn).1
      · exact hn
    · exact fun _ _ _ _ => ⟨rfl, rfl, rfl⟩
  results := hresults
  heard c m next hhandle n hn := by
    have hdispatched : s.net.Dispatched m := dispatched_iff.2 ⟨c, next, hhandle⟩
    dsimp only [BcastState.observe] at hn
    rw [if_pos hdispatched] at hn
    exact (mem_filter.1 hn).2

lemma handle_of_update {role role' : Nat → Role} {r : Role} {c' : Nat} {next : Option Nat}
    (hrole : role' = update role c r) (h : role' c' = .handle m next) :
    r = .handle m next ∨ role c' = .handle m next := by
  rw [hrole] at h
  by_cases heq : c' = c
  · rw [heq, update_self] at h
    exact .inl h
  rw [update_of_ne heq] at h
  exact .inr h

lemma next_inv (h : BcastInv s) (hc : s.net.In c (.handle m none nested)) :
    BcastInv (ipnBcastHandlemsg s c).observe := by
  obtain ⟨hplain, _⟩ := h.serial.of_handle hc
  subst hplain
  have hhandle : s.net.role c = .handle m none := role_of_in hc
  have hhistory := next_history h hc
  have hmsg : ∀ {e : MsgEvent}, e.Legal s.net → (∀ c', e ≠ .test c') → ¬e.ChangesNodes → MsgOk s.net e →
      (ipnBcastHandlemsg s c).net = msgStep s.net e → (ipnBcastHandlemsg s c).connectqueue = s.connectqueue →
      ResultsRight (ipnBcastHandlemsg s c) → BcastInv (ipnBcastHandlemsg s c).observe := by
    intro e he htest hnodes hok hnet hqueue hresults
    apply observe_inv _ _ _ _ hhistory hresults
    · rw [hnet, msgStep_lossless he]
      exact h.lossless
    · rw [hnet]
      exact msgStep_inv h.msg he hok
    · rw [hnet]
      exact msgStep_serial h.serial he fun c' heq => absurd heq (htest c')
    · apply h.listed.same hqueue
      rw [hnet]
      exact msgStep_nodes he hnodes
  rcases ipnBcastHandlemsg_cases h hc with hsame | ⟨_, hs'⟩ | ⟨n, rest, w, hnext, _, ⟨_, hs'⟩ | hs'⟩
  · rw [hsame]
    exact observe_inv h.lossless h.msg h.serial h.listed h.history h.results
  · have hresults : ResultsRight (ipnBcastHandlemsg s c) := by
      rw [hs']
      apply @ResultsRight.same s { s with net := msgStep s.net (.clear c) } h.results rfl (List.Subset.refl _)
      intro c' m' next hhandle'
      simp only [msgStep, hc.2] at hhandle'
      cases handle_of_update (role_goto hc.1 (.cleared m)) hhandle' with
      | inl hnew => exact Role.noConfusion hnew
      | inr hold => exact .inl ⟨next, hold⟩
    exact @hmsg (.clear c) ⟨m, hc⟩ (by simp) id trivial (by rw [hs']) (by rw [hs']) hresults
  · rw [hs'] at hhistory ⊢
    exact observe_inv h.lossless h.msg h.serial (h.listed.same rfl (.of_eq rfl rfl)) hhistory h.results
  · have hmem := (h.listed.connected n).1 (mem_of_listAfter hnext)
    have hresults : ResultsRight (ipnBcastHandlemsg s c) := by
      rw [hs']
      apply @ResultsRight.same s { s with
        cursor := update s.cursor c (some n), net := msgStep s.net (.pick c n) } h.results rfl (List.Subset.refl _)
      intro c' m' next hhandle'
      simp only [msgStep, hc.2] at hhandle'
      have hgoto := role_goto hc.1 (.handle m (some n) false)
      by_cases heq : c' = c
      · rw [hgoto, heq, update_self] at hhandle'
        rw [heq, ← (Role.handle.inj hhandle').1]
        exact .inl ⟨none, hhandle⟩
      rw [hgoto, update_of_ne heq] at hhandle'
      exact .inl ⟨next, hhandle'⟩
    exact @hmsg (.pick c n) ⟨⟨m, false, hc⟩, hmem⟩ (by simp) id trivial (by rw [hs']) (by rw [hs']) hresults

lemma writes_inv (h : BcastInv s) (hc : c ∉ s.net.calls) (hnet : s'.net = s.net) (hqueue : s'.connectqueue = s.connectqueue)
    (hcursor : s'.cursor = s.cursor) (hused : s'.used = s.used) (hhanded : s'.handed = s.handed)
    (haudience : s'.audience = s.audience) (hreads : s'.reads = s.reads) (hflushed : s'.flushed = s.flushed)
    (hwrites : ∀ c', c' ≠ c → s'.writes c' = s.writes c')
    (hresults : ∀ r ∈ s'.results, r ∈ s.results ∨ r.msg = none ∧ r.ret < 0) : BcastInv s'.observe := by
  apply observe_inv
  · rw [hnet]
    exact h.lossless
  · rw [hnet]
    exact h.msg
  · rw [hnet]
    exact h.serial
  · apply h.listed.same hqueue
    rw [hnet]
    exact .of_eq rfl rfl
  · apply h.history.frame
    · rw [hnet]
    · intro n m
      rw [BcastState.copies, BcastState.copies, hreads, hflushed, hnet]
    · intro n
      rw [BcastState.got, BcastState.got, hreads, hnet]
    · rw [hused]
    · exact hhanded
    · rw [haudience]
      exact fun _ _ hn => hn
    · intro c' m' next hhandle
      have hne : c' ≠ c := by
        intro heq
        rw [heq, role_of_notMem hc] at hhandle
        exact Role.noConfusion hhandle
      exact ⟨hqueue, by rw [hcursor], hwrites c' hne⟩
  · intro r hr
    rw [hhanded, hnet]
    cases hresults r hr with
    | inl hold => exact h.results r hold
    | inr hnew => exact ⟨fun m hm => absurd (hnew.1.symm.trans hm) (some_ne_none m).symm, fun _ => hnew.2⟩

lemma ipnNodeWriteCheck_neg {shutdown : BitVec 8} {mtu len : Nat} {err : Int}
    (h : ipnNodeWriteCheck shutdown mtu len = some err) : err < 0 := by
  unfold ipnNodeWriteCheck at h
  split_ifs at h
  · rw [← some.inj h]
    decide
  · rw [← some.inj h]
    decide
  rw [← some.inj h]
  decide

lemma finish_inv (h : BcastInv s) (hc : c ∉ s.net.calls) {result : WriteResult} (hmsg : result.msg = none)
    (hret : result.ret < 0) : BcastInv (s.finish c result).observe := by
  apply @writes_inv s (s.finish c result) c h hc rfl rfl rfl rfl rfl rfl rfl rfl
  · exact fun c' hne => update_of_ne hne ..
  intro r hr
  cases mem_append.1 hr with
  | inl hold => exact .inl hold
  | inr hlast =>
    rw [List.mem_singleton.1 hlast]
    exact .inr ⟨hmsg, hret⟩

lemma admit_inv (h : BcastInv s) (hc : c ∉ s.net.calls) (w : WriteCall) :
    BcastInv { s with writes := update s.writes c (some w) }.observe := by
  apply @writes_inv s { s with writes := update s.writes c (some w) } c h hc rfl rfl rfl rfl rfl rfl rfl rfl
  · exact fun c' hne => update_of_ne hne ..
  · exact fun _ hr => .inl hr

lemma history_handles (he : (BcastEvent.net e).Legal s) (hok : BroadcastOk s (.net e)) (hhistory : History s)
    {c' m : Nat} {next : Option Nat} (hhandle : (s.history e).net.role c' = .handle m next) :
    (∃ next', s.net.role c' = .handle m next') ∨ m ∉ s.handed := by
  obtain ⟨hlegal, hrest⟩ := he
  rw [history_net] at hhandle
  cases e with
  | write c m' =>
    cases handle_of_update (role_enter s.net c (.write m')) hhandle with
    | inl hnew => exact Role.noConfusion hnew
    | inr hold => exact .inl ⟨next, hold⟩
  | set c =>
    obtain ⟨m', hc⟩ := hlegal
    simp only [msgStep, hc.2] at hhandle
    cases handle_of_update (role_goto hc.1 (.handle m' none false)) hhandle with
    | inl hnew =>
      have hearly : s.net.role c = .early m' := role_of_in hc
      rw [(Role.handle.inj hnew).1] at hearly
      exact .inr (hhistory.early c m hearly).1
    | inr hold => exact .inl ⟨next, hold⟩
  | send c oob alloc =>
    obtain ⟨hoob, _⟩ : oob = false ∧ alloc = true := hrest
    subst hoob
    obtain ⟨m', n, nested, hc⟩ := hlegal
    have hsame := ipnProtoSendmsg_calls s.net n m' alloc
    simp only [msgStep, hc.2] at hhandle
    rw [if_neg Bool.false_ne_true] at hhandle
    have hgoto := role_goto (hc.same hsame).1 (.handle m' none nested)
    rw [role_of_same hsame] at hgoto
    by_cases heq : c' = c
    · rw [hgoto, heq, update_self] at hhandle
      have hmm := (Role.handle.inj hhandle).1
      rw [heq, ← hmm]
      exact .inl ⟨some n, role_of_in hc⟩
    rw [hgoto, update_of_ne heq] at hhandle
    exact .inl ⟨next, hhandle⟩
  | put c =>
    obtain ⟨m', hc⟩ := hlegal
    simp only [msgStep, hc.2] at hhandle
    cases handle_of_update (role_leave s.net c) hhandle with
    | inl hnew => exact Role.noConfusion hnew
    | inr hold => exact .inl ⟨next, hold⟩
  | pick | clear | handled => exact hrest.elim
  | copy c ok =>
    rw [msgStep_role hlegal hok] at hhandle
    exact .inl ⟨next, hhandle⟩
  | test c =>
    rw [msgStep_role hlegal hok] at hhandle
    exact .inl ⟨next, hhandle⟩
  | down c got =>
    rw [msgStep_role hlegal hok] at hhandle
    exact .inl ⟨next, hhandle⟩
  | _ =>
    rw [msgStep_role hlegal trivial] at hhandle
    exact .inl ⟨next, hhandle⟩

lemma history_results (s : BcastState) (e : MsgEvent) :
    s.handed ⊆ (s.history e).handed ∧ ((∀ c, e ≠ .put c) → (s.history e).results = s.results) := by
  cases e with
  | test c =>
    simp only [BcastState.history]
    repeat' split
    all_goals exact ⟨by simp [BcastState.hand], fun _ => rfl⟩
  | set c =>
    simp only [BcastState.history]
    repeat' split
    all_goals exact ⟨by simp [BcastState.hand], fun _ => rfl⟩
  | send c | read c | flush c =>
    simp only [BcastState.history]
    repeat' split
    all_goals exact ⟨List.Subset.refl _, fun _ => rfl⟩
  | put c =>
    simp only [BcastState.history]
    repeat' split
    all_goals exact ⟨List.Subset.refl _, fun hne => absurd rfl (hne c)⟩
  | _ => exact ⟨List.Subset.refl _, fun _ => rfl⟩

lemma bcastStep_inv {e : BcastEvent} (h : BcastInv s) (he : e.Legal s) (hok : BroadcastOk s e) :
    BcastInv (bcastStep s e) := by
  cases e with
  | call c n len =>
    obtain ⟨hc, _, _⟩ := he
    rw [bcastStep]
    cases hcheck : ipnNodeWriteCheck (s.net.node n).shutdown s.mtu len with
    | some err => exact finish_inv h hc rfl (ipnNodeWriteCheck_neg hcheck)
    | none => exact admit_inv h hc { node := n, len := len, admitted := false }
  | wait c signal =>
    obtain ⟨hc, ⟨w, hw, _⟩, _⟩ := he
    rw [bcastStep, hw]
    cases signal with
    | true =>
      have hret : -ENOMEM < 0 := by decide
      exact finish_inv h hc rfl hret
    | false => exact admit_inv h hc { w with admitted := true }
  | next c =>
    obtain ⟨m, nested, hc⟩ := he
    exact next_inv h hc
  | net e =>
    have hstep := he
    obtain ⟨hlegal, hrest⟩ := hstep
    rw [bcastStep]
    apply observe_inv
    · rw [history_net, msgStep_lossless hlegal]
      exact h.lossless
    · rw [history_net]
      apply msgStep_inv h.msg hlegal
      cases e with
      | send c oob alloc => exact h.msgOk hlegal
      | _ => trivial
    · rw [history_net]
      apply msgStep_serial h.serial hlegal
      intro c heq
      subst heq
      exact hok
    · exact history_listed h.listed h.msg hlegal
    · exact history_history h he hok
    · obtain ⟨hhanded, hresults⟩ := history_results s e
      by_cases hput : ∃ c, e = .put c
      · obtain ⟨c, hput⟩ := hput
        subst hput
        exact put_results h.results h.history h.msg hlegal
      apply ResultsRight.same h.results (hresults fun c heq => hput ⟨c, heq⟩) hhanded
      intro c m next hhandle
      exact history_handles he hok h.history hhandle

end

lemma bcastInv_init (msgpoolSize mtu : Nat) : BcastInv (bcastInit msgpoolSize mtu) where
  lossless := rfl
  msg := msgInv_init true msgpoolSize
  serial := {
    plain := fun _ hc => absurd hc (notMem_empty _)
    mutex := fun _ hc => absurd hc (notMem_empty _) }
  listed := {
    nodup := nodup_nil
    connected := fun n => iff_of_false not_mem_nil fun hn => notMem_empty n hn.1
    ipn := fun _ hn => absurd hn not_mem_nil
    dead := fun _ _ => rfl
    netdev := fun _ _ => rfl }
  history := {
    used := fun _ hm => absurd hm not_mem_nil
    nodup := nodup_nil
    early := fun _ _ hearly => Role.noConfusion hearly
    late := fun _ _ hlate => Role.noConfusion hlate
    got := fun _ => List.Sublist.refl _
    known := fun _ _ hm => absurd hm (Nat.lt_irrefl 0)
    done := fun _ hm => absurd hm not_mem_nil
    dispatch := fun _ _ _ hhandle => Role.noConfusion hhandle }
  results := fun _ hr => absurd hr not_mem_nil
  heard := fun _ _ _ hhandle => Role.noConfusion hhandle

/-- For every size of the pool and every interleaving of calls, changes of the nodes and reads whose steps are all right. -/
theorem broadcast_right (msgpoolSize mtu : Nat) (es : List BcastEvent)
    (hes : bcastMachine.Along bcastMachine.enabled (bcastInit msgpoolSize mtu) es)
    (hok : bcastMachine.Along BroadcastOk (bcastInit msgpoolSize mtu) es) :
    bcastMachine.Always BroadcastRight (bcastInit msgpoolSize mtu) es := by
  apply Machine.Along.always BcastInv _ _ (bcastInv_init msgpoolSize mtu) (hes.and hok)
  · exact fun s hs => hs.right
  intro s e hs he
  exact bcastStep_inv hs he.1.2 he.2

def broadcastRun : List BcastEvent :=
  [.net (.lockConnect 0 1 false false 0), .net (.upChange 0), .net (.lockConnect 0 2 false false 0), .net (.upChange 0),
   .call 3 1 60, .wait 3 false, .net (.write 3 7), .net (.copy 3 true), .net (.test 3), .net (.down 3 true),
   .net (.set 3), .next 3, .next 3, .net (.send 3 false true), .next 3, .net (.up 3), .net (.put 3), .net (.read 4 2),
   .net (.consume 4)]

theorem broadcast_right_read : bcastMachine.Always BroadcastRight (bcastInit 8 1514) broadcastRun := by
  apply broadcast_right
  · exact ⟨⟨rfl, ⟨⟨by decide, rfl⟩, by decide⟩, rfl⟩,
      ⟨rfl, ⟨.connect, ⟨by decide, rfl⟩, fun _ _ h => Change.noConfusion h⟩, trivial⟩,
      ⟨rfl, ⟨⟨by decide, rfl⟩, by decide⟩, rfl⟩,
      ⟨rfl, ⟨.connect, ⟨by decide, rfl⟩, fun _ _ h => Change.noConfusion h⟩, trivial⟩,
      ⟨rfl, by decide, rfl, by decide⟩, ⟨rfl, by decide, ⟨_, rfl, rfl⟩, fun _ => by decide⟩,
      ⟨rfl, ⟨by decide, by decide⟩, ⟨_, rfl, rfl⟩, by decide⟩, ⟨rfl, ⟨7, by decide, rfl⟩, trivial⟩,
      ⟨rfl, ⟨7, by decide, rfl⟩, trivial⟩, ⟨rfl, ⟨⟨7, by decide, rfl⟩, fun _ => rfl⟩, trivial⟩,
      ⟨rfl, ⟨7, by decide, rfl⟩, trivial⟩, ⟨rfl, 7, false, by decide, rfl⟩, ⟨rfl, 7, false, by decide, rfl⟩,
      ⟨rfl, ⟨7, 2, false, by decide, rfl⟩, rfl, rfl⟩, ⟨rfl, 7, false, by decide, rfl⟩,
      ⟨rfl, ⟨7, by decide, rfl⟩, trivial⟩, ⟨rfl, ⟨7, by decide, rfl⟩, trivial⟩,
      ⟨rfl, ⟨by decide, by decide, by decide⟩, rfl⟩, ⟨rfl, ⟨7, by decide, rfl⟩, trivial⟩, trivial⟩
  exact ⟨trivial, trivial, trivial, trivial, trivial, trivial, trivial, rfl, rfl, rfl, trivial, trivial, trivial,
    trivial, trivial, trivial, trivial, trivial, trivial, trivial⟩

def interruptedRun : List BcastEvent :=
  [.net (.lockConnect 0 1 false false 0), .net (.upChange 0), .call 3 1 60, .wait 3 false, .net (.write 3 7),
   .net (.copy 3 true), .net (.test 3), .net (.down 3 false), .net (.put 3)]

/-- The message is lost, and the call has returned its length. -/
theorem interrupted_write_lost : ¬∀ msgpoolSize mtu es,
    bcastMachine.Along bcastMachine.enabled (bcastInit msgpoolSize mtu) es →
    bcastMachine.Always BroadcastRight (bcastInit msgpoolSize mtu) es := by
  intro h
  have hes : bcastMachine.Along bcastMachine.enabled (bcastInit 8 1514) interruptedRun :=
    ⟨⟨rfl, ⟨⟨by decide, rfl⟩, by decide⟩, rfl⟩,
      ⟨rfl, ⟨.connect, ⟨by decide, rfl⟩, fun _ _ h => Change.noConfusion h⟩, trivial⟩,
      ⟨rfl, by decide, rfl, by decide⟩, ⟨rfl, by decide, ⟨_, rfl, rfl⟩, fun _ => by decide⟩,
      ⟨rfl, ⟨by decide, by decide⟩, ⟨_, rfl, rfl⟩, by decide⟩, ⟨rfl, ⟨7, by decide, rfl⟩, trivial⟩,
      ⟨rfl, ⟨7, by decide, rfl⟩, trivial⟩, ⟨rfl, ⟨⟨7, by decide, rfl⟩, fun hgot => Bool.noConfusion hgot⟩, trivial⟩,
      ⟨rfl, ⟨7, by decide, rfl⟩, trivial⟩, trivial⟩
  have hlast : BroadcastRight (bcastMachine.run (bcastInit 8 1514) interruptedRun) :=
    (h 8 1514 interruptedRun hes).last
  have herror := hlast.error { msg := some 7, len := 60, ret := 60 } (List.mem_singleton.2 rfl)
    (fun _ _ => not_mem_nil)
  exact absurd herror (by decide)

end Vde.Ipn
