import Vde.RouterQueue
import Mathlib.Data.Fintype.BigOperators

/-!
# Packets behind a semaphore

The counters of a queue, the order of its packets and the choice of `prio_dequeue` are right as long
as the counters do not wrap and no packet is empty. A queue that leaves the token policy is the weak
point: the packets accepted under that policy never posted the semaphore, and with the last timer
gone nothing posts it for them.
-/

namespace Vde

open List Finset

def totalLen (packets : List VdeBuff) : Nat := (packets.map VdeBuff.len).sum

def RouterQueue.Counts (q : RouterQueue) : Prop :=
  q.n.toNat = q.packets.length ∧ q.size.toNat = totalLen q.packets

def framesWaiting (s : IfaceQueues) : Semaphore → Nat
  | .out => (s.queue .out).packets.length
  | .prio => ∑ i, (s.queue (.prio i)).packets.length

def TimedActive (s : IfaceQueues) (c : Semaphore) : Prop := ∃ cur ∈ s.timedDequeue, cur.q.semaphore = c

/-- Without a timer, the semaphore counts at least the packets behind it. -/
def NotStranded (s : IfaceQueues) : Prop := ∀ c, ¬TimedActive s c → framesWaiting s c ≤ s.sem c

structure QueueRun where
  state : IfaceQueues
  accepted : QueueId → List VdeBuff
  taken : QueueId → List VdeBuff

def QueueRun.record (r : QueueRun) : IfaceQueues × QueueOutcome → QueueRun
  | (s, .nothing) => { r with state := s }
  | (s, .accepted id b) =>
    { r with state := s, accepted := fun id' => if id' = id then r.accepted id ++ [b] else r.accepted id' }
  | (s, .taken id b) =>
    { r with state := s, taken := fun id' => if id' = id then r.taken id ++ [b] else r.taken id' }

def queueMachine : Machine QueueRun QueueEvent :=
  { enabled := fun r e => QueueEnabled r.state e
    step := fun r e => r.record (queueCall r.state e) }

def queueRunStart : QueueRun :=
  { state := ifaceQueuesStart, accepted := fun _ => [], taken := fun _ => [] }

structure QueuesRight (r : QueueRun) : Prop where
  counts : ∀ id, (r.state.queue id).Counts
  order : ∀ id, r.accepted id = r.taken id ++ (r.state.queue id).packets
  notStranded : NotStranded r.state

def lowestNonEmpty (s : IfaceQueues) : Option (Fin 32) :=
  (finRange 32).find? (fun i => !(s.queue (.prio i)).packets.isEmpty)

def QueueOutcome.takenFrom : QueueOutcome → Option QueueId
  | taken id _ => some id
  | _ => none

def ServesLowest (r : QueueRun) : QueueEvent → Prop
  | .prioDequeue => (prioDequeue r.state).2.takenFrom = (lowestNonEmpty r.state).map QueueId.prio
  | _ => True

def LeavesCovered (s : IfaceQueues) (id : QueueId) : Prop :=
  ¬TimedActive (leaveToken id s) id.semaphore → framesWaiting s id.semaphore ≤ s.sem id.semaphore

def EnqueueFits (s : IfaceQueues) (id : QueueId) (b : VdeBuff) : Prop :=
  (s.queue id).packets.length + 1 < 2 ^ 32 ∧ totalLen (s.queue id).packets + b.len < 2 ^ 32 ∧
    (¬TimedActive s id.semaphore →
      framesWaiting s id.semaphore < s.sem id.semaphore ∨
        (s.queue id).policy.isToken = false ∧ s.sem id.semaphore < SEM_VALUE_MAX)

def QueueOk (r : QueueRun) : QueueEvent → Prop
  | .enqueue draw id b => (mayEnqueue draw (r.state.queue id)).1 = true → EnqueueFits r.state id b
  | .dequeue _ => True
  | .prioDequeue => ∀ i, lowestNonEmpty r.state = some i → totalLen (r.state.queue (.prio i)).packets ≠ 0
  | .tick _ _ => True
  | .unlimited id => LeavesCovered r.state id
  | .fifo id _ => LeavesCovered r.state id
  | .red id _ _ _ _ => LeavesCovered r.state id
  | .token alloc _ id _ _ => alloc = false → LeavesCovered r.state id

section Accessors

variable (s : IfaceQueues) (id id' : QueueId) (c c' : Semaphore) (q : RouterQueue) (p : QueuePolicy)

@[simp] lemma setQueue_sem : (s.setQueue id q).sem = s.sem := rfl

lemma setQueue_same : (s.setQueue id q).queue id = q := by
  simp [IfaceQueues.setQueue]

lemma setQueue_other {id id' : QueueId} (h : id' ≠ id) : (s.setQueue id q).queue id' = s.queue id' := by
  simp [IfaceQueues.setQueue, h]

lemma semPost_same : (s.semPost c).sem c = if s.sem c < SEM_VALUE_MAX then s.sem c + 1 else s.sem c := by
  simp [IfaceQueues.semPost]

lemma semPost_other {c c' : Semaphore} (h : c' ≠ c) : (s.semPost c).sem c' = s.sem c' := by
  simp [IfaceQueues.semPost, h]

lemma semPost_le : s.sem c' ≤ (s.semPost c).sem c' := by
  by_cases h : c' = c
  · subst h
    rw [semPost_same]
    split
    · exact Nat.le_succ _
    · exact le_rfl
  · rw [semPost_other s h]

@[simp] lemma semWait_queue : (s.semWait c).queue = s.queue := rfl

lemma semWait_same : (s.semWait c).sem c = s.sem c - 1 := by
  simp [IfaceQueues.semWait]

lemma semWait_other {c c' : Semaphore} (h : c' ≠ c) : (s.semWait c).sem c' = s.sem c' := by
  simp [IfaceQueues.semWait, h]

@[simp] lemma leaveToken_queue : (leaveToken id s).queue = s.queue := by
  rw [leaveToken]
  split <;> rfl

@[simp] lemma leaveToken_sem : (leaveToken id s).sem = s.sem := by
  rw [leaveToken]
  split <;> rfl

@[simp] lemma setPolicy_sem : (setPolicy id p s).sem = s.sem := rfl

end Accessors

section Waiting

variable {s s' : IfaceQueues} {id : QueueId} {c : Semaphore}

lemma framesWaiting_of_packets (h : ∀ id, (s'.queue id).packets = (s.queue id).packets) :
    framesWaiting s' c = framesWaiting s c := by
  cases c with
  | out => rw [framesWaiting, framesWaiting, h]
  | prio => simp only [framesWaiting, h]

section

variable (hother : ∀ id', id' ≠ id → (s'.queue id').packets = (s.queue id').packets)

include hother

lemma framesWaiting_change : framesWaiting s' id.semaphore + (s.queue id).packets.length =
    framesWaiting s id.semaphore + (s'.queue id).packets.length := by
  cases id with
  | out => exact Nat.add_comm _ _
  | prio i =>
    have hrest : ∑ j ∈ univ.erase i, (s'.queue (.prio j)).packets.length =
        ∑ j ∈ univ.erase i, (s.queue (.prio j)).packets.length := by
      apply sum_congr rfl
      intro j hj
      rw [hother (.prio j) (fun h => (mem_erase.mp hj).1 (by injection h))]
    have hs := add_sum_erase univ (fun j => (s.queue (.prio j)).packets.length) (mem_univ i)
    have hs' := add_sum_erase univ (fun j => (s'.queue (.prio j)).packets.length) (mem_univ i)
    simp only [QueueId.semaphore, framesWaiting]
    omega

lemma framesWaiting_other (hc : c ≠ id.semaphore) : framesWaiting s' c = framesWaiting s c := by
  cases c with
  | out =>
    have hid : QueueId.out ≠ id := by
      rintro rfl
      exact hc rfl
    rw [framesWaiting, framesWaiting, hother _ hid]
  | prio =>
    have hid (i : Fin 32) : QueueId.prio i ≠ id := by
      rintro rfl
      exact hc rfl
    simp only [framesWaiting, hother _ (hid _)]

end

lemma framesWaiting_eq_zero (h : ∀ i, (s.queue (.prio i)).packets = []) : framesWaiting s .prio = 0 := by
  simp [framesWaiting, h]

end Waiting

section Counters

variable {s s' : IfaceQueues} {q : RouterQueue}

lemma totalLen_append (packets : List VdeBuff) (b : VdeBuff) :
    totalLen (packets ++ [b]) = totalLen packets + b.len := by
  simp [totalLen]

lemma totalLen_cons (b : VdeBuff) (packets : List VdeBuff) :
    totalLen (b :: packets) = b.len + totalLen packets := by
  simp [totalLen]

lemma counts_append (h : q.Counts) (b : VdeBuff) (policy : QueuePolicy) :
    RouterQueue.Counts
      { n := q.n + 1, size := q.size + BitVec.ofNat 32 b.len, packets := q.packets ++ [b], policy := policy } ↔
      q.packets.length + 1 < 2 ^ 32 ∧ totalLen q.packets + b.len < 2 ^ 32 := by
  obtain ⟨hn, hsize⟩ := h
  have hlen : (q.packets ++ [b]).length = q.packets.length + 1 := by simp
  have hone : (1 : BitVec 32).toNat = 1 := rfl
  simp only [RouterQueue.Counts, BitVec.toNat_add, BitVec.toNat_ofNat, hlen, totalLen_append, hn, hsize, hone]
  constructor
  · rintro ⟨h₁, h₂⟩
    omega
  rintro ⟨h₁, h₂⟩
  omega

lemma RouterQueue.Counts.empty (h : q.Counts) : q.n = 0 ↔ q.packets = [] := by
  rw [← length_eq_zero_iff, ← h.1]
  constructor
  · intro hn
    rw [hn]
    rfl
  intro hn
  exact BitVec.eq_of_toNat_eq hn

lemma RouterQueue.Counts.sizeZero (h : q.Counts) : q.size = 0 ↔ totalLen q.packets = 0 := by
  rw [← h.2]
  constructor
  · intro hn
    rw [hn]
    rfl
  intro hn
  exact BitVec.eq_of_toNat_eq hn

lemma RouterQueue.Counts.takeHead (h : q.Counts) {b : VdeBuff} {next : List VdeBuff} (hq : q.packets = b :: next) :
    q.takeHead.1 = some b ∧ q.takeHead.2.packets = next ∧ q.takeHead.2.Counts := by
  obtain ⟨hn, hsize⟩ := h
  rw [hq, length_cons] at hn
  rw [hq, totalLen_cons] at hsize
  have hpred : (q.n - 1).toNat = next.length := by
    rw [BitVec.toNat_sub_of_le (by rw [BitVec.le_def, hn]; simp), hn]
    simp
  have hrest : (if q.n - 1 = 0 then [] else next) = next := by
    split
    · rename_i hzero
      rw [hzero] at hpred
      exact (length_eq_zero_iff.mp hpred.symm).symm
    · rfl
  have hlen : b.len < 2 ^ 32 := by
    have := q.size.isLt
    omega
  have hb : (BitVec.ofNat 32 b.len).toNat = b.len := by
    rw [BitVec.toNat_ofNat, Nat.mod_eq_of_lt hlen]
  have hless : (q.size - BitVec.ofNat 32 b.len).toNat = totalLen next := by
    rw [BitVec.toNat_sub_of_le (by rw [BitVec.le_def, hb]; omega), hb]
    omega
  simp only [RouterQueue.takeHead, hq, hrest]
  exact ⟨trivial, trivial, hpred, hless⟩

end Counters

def SameContent (s s' : IfaceQueues) : Prop :=
  ∀ id, (s'.queue id).n = (s.queue id).n ∧ (s'.queue id).size = (s.queue id).size ∧
    (s'.queue id).packets = (s.queue id).packets

section Keeping

variable {r : QueueRun} {s s' : IfaceQueues} {id : QueueId} {c : Semaphore}

lemma sameContent_setPolicy (p : QueuePolicy) : SameContent s (setPolicy id p s) := by
  intro id'
  by_cases h : id' = id
  · subst h
    rw [setPolicy, setQueue_same]
    exact ⟨rfl, rfl, rfl⟩
  rw [setPolicy, setQueue_other _ _ h]
  exact ⟨rfl, rfl, rfl⟩

lemma SameContent.of_queue_eq (h : s'.queue = s.queue) : SameContent s s' := by
  intro id
  rw [h]
  exact ⟨rfl, rfl, rfl⟩

lemma SameContent.trans {s'' : IfaceQueues} (h : SameContent s s') (h' : SameContent s' s'') :
    SameContent s s'' := by
  intro id
  obtain ⟨hn, hsize, hpackets⟩ := h id
  obtain ⟨hn', hsize', hpackets'⟩ := h' id
  exact ⟨hn'.trans hn, hsize'.trans hsize, hpackets'.trans hpackets⟩

lemma SameContent.framesWaiting (h : SameContent s s') (c : Semaphore) : framesWaiting s' c = framesWaiting s c :=
  framesWaiting_of_packets (fun id => (h id).2.2)

lemma QueuesRight.keep (h : QueuesRight r) (hsame : SameContent r.state s') (hns : NotStranded s') :
    QueuesRight { r with state := s' } := by
  refine ⟨?_, ?_, hns⟩
  · intro id
    obtain ⟨hn, hsize, hpackets⟩ := hsame id
    rw [RouterQueue.Counts, hn, hsize, hpackets]
    exact h.counts id
  intro id
  rw [(hsame id).2.2]
  exact h.order id

lemma NotStranded.mono (h : NotStranded s) (hsame : SameContent s s') (hsem : ∀ c, s.sem c ≤ s'.sem c)
    (hactive : ∀ c, TimedActive s c → TimedActive s' c) : NotStranded s' := by
  intro c hc
  rw [hsame.framesWaiting]
  exact (h c (fun hs => hc (hactive c hs))).trans (hsem c)

lemma QueuesRight.wait (h : QueuesRight r) (hempty : framesWaiting r.state c = 0) :
    QueuesRight { r with state := r.state.semWait c } := by
  have hsame : SameContent r.state (r.state.semWait c) := .of_queue_eq rfl
  apply h.keep hsame
  intro c' hc'
  by_cases hcc : c' = c
  · subst hcc
    rw [show framesWaiting (r.state.semWait c') c' = 0 from hempty]
    exact Nat.zero_le _
  rw [semWait_other _ hcc]
  exact h.notStranded c' hc'

lemma QueuesRight.take (h : QueuesRight r) (id : QueueId) {b : VdeBuff} {next : List VdeBuff}
    (hq : (r.state.queue id).packets = b :: next) :
    QueuesRight (r.record (takeFrom id (r.state.semWait id.semaphore))) ∧
    (takeFrom id (r.state.semWait id.semaphore)).2.takenFrom = some id := by
  obtain ⟨hsome, hnext, hcounts⟩ := (h.counts id).takeHead hq
  have htake : takeFrom id (r.state.semWait id.semaphore) =
      ((r.state.semWait id.semaphore).setQueue id (r.state.queue id).takeHead.2, .taken id b) := by
    rw [takeFrom, semWait_queue]
    generalize (r.state.queue id).takeHead = pair at hsome
    obtain ⟨ret, q⟩ := pair
    obtain rfl : ret = some b := hsome
    rfl
  rw [htake]
  refine ⟨⟨?_, ?_, ?_⟩, rfl⟩
  · intro id'
    by_cases hid : id' = id
    · subst hid
      simpa only [QueueRun.record, setQueue_same] using hcounts
    · simpa only [QueueRun.record, setQueue_other _ _ hid, semWait_queue] using h.counts id'
  · intro id'
    by_cases hid : id' = id
    · subst hid
      simp only [QueueRun.record, setQueue_same, if_true, hnext]
      rw [h.order id', hq, append_assoc, singleton_append]
    · simpa only [QueueRun.record, setQueue_other _ _ hid, semWait_queue, if_neg hid] using h.order id'
  intro c hc
  have hother : ∀ id', id' ≠ id →
      (((r.state.semWait id.semaphore).setQueue id (r.state.queue id).takeHead.2).queue id').packets =
        (r.state.queue id').packets := by
    intro id' hid
    rw [setQueue_other _ _ hid, semWait_queue]
  simp only [QueueRun.record, setQueue_sem]
  by_cases hcc : c = id.semaphore
  · subst hcc
    have hchange := framesWaiting_change hother
    rw [setQueue_same, hnext, hq, length_cons] at hchange
    have hle := h.notStranded _ hc
    rw [semWait_same]
    omega
  rw [framesWaiting_other hother hcc, semWait_other _ hcc]
  exact h.notStranded c hc

end Keeping

section Choice

variable {s : IfaceQueues}

lemma find?_eq_of_imp {α : Type} {p q : α → Bool} {xs : List α} (himp : ∀ x, p x = true → q x = true)
    (hfirst : ∀ x, xs.find? q = some x → p x = true) : xs.find? p = xs.find? q := by
  induction xs with
  | nil => rfl
  | cons x xs ih =>
    by_cases hq : q x = true
    · rw [find?_cons_of_pos hq] at hfirst ⊢
      rw [find?_cons_of_pos (hfirst x rfl)]
    have hp : ¬p x = true := fun hp => hq (himp x hp)
    rw [find?_cons_of_neg hq] at hfirst ⊢
    rw [find?_cons_of_neg hp]
    exact ih hfirst

lemma servedQueue_eq (h : ∀ id, (s.queue id).Counts) :
    servedQueue s = (finRange 32).find? (fun i => totalLen (s.queue (.prio i)).packets != 0) := by
  rw [servedQueue]
  congr 1
  funext i
  have hc := h (.prio i)
  rw [Bool.eq_iff_iff]
  simp only [Bool.and_eq_true, bne_iff_ne, ne_eq, hc.sizeZero, hc.empty]
  constructor
  · rintro ⟨hlen, -⟩
    exact hlen
  intro hlen
  refine ⟨hlen, ?_⟩
  intro hnil
  rw [hnil] at hlen
  exact hlen rfl

lemma lowestNonEmpty_some {i : Fin 32} (h : lowestNonEmpty s = some i) :
    ∃ b next, (s.queue (.prio i)).packets = b :: next := by
  have hi := find?_some h
  cases hp : (s.queue (.prio i)).packets with
  | nil => simp [hp] at hi
  | cons b next => exact ⟨b, next, rfl⟩

lemma lowestNonEmpty_none (h : lowestNonEmpty s = none) (i : Fin 32) : (s.queue (.prio i)).packets = [] := by
  have hi := find?_eq_none.mp h i (mem_finRange i)
  simpa using hi

lemma servedQueue_lowest (h : ∀ id, (s.queue id).Counts) : servedQueue s = lowestNonEmpty s ↔ ∀ i,
    lowestNonEmpty s = some i → totalLen (s.queue (.prio i)).packets ≠ 0 := by
  rw [servedQueue_eq h]
  constructor
  · intro heq i hi
    rw [← heq] at hi
    simpa using find?_some hi
  intro hfirst
  apply find?_eq_of_imp
  · intro i hi
    cases hp : (s.queue (.prio i)).packets with
    | nil => simp [hp, totalLen] at hi
    | cons b next => simp
  intro i hi
  simpa using hfirst i hi

end Choice

section Calls

variable {r : QueueRun} {s : IfaceQueues} {id : QueueId}

lemma mayEnqueue_isToken (draw : Rat → Bool) (q : RouterQueue) :
    (mayEnqueue draw q).2.isToken = q.policy.isToken := by
  obtain ⟨n, size, packets, policy⟩ := q
  cases policy with
  | unlimited => rfl
  | fifo limit statsDrop =>
    simp only [mayEnqueue]
    split <;> rfl
  | red min max P limit statsDrop statsProbabilityDrop =>
    simp only [mayEnqueue]
    split
    · rfl
    · split <;> rfl
    · rfl
  | token limit statsDrop interval =>
    simp only [mayEnqueue]
    split <;> rfl

def withPacket (s : IfaceQueues) (id : QueueId) (b : VdeBuff) (policy : QueuePolicy) : IfaceQueues :=
  s.setQueue id
    { n := (s.queue id).n + 1, size := (s.queue id).size + BitVec.ofNat 32 b.len
      packets := (s.queue id).packets ++ [b], policy := policy }

lemma enqueue_eq (draw : Rat → Bool) (b : VdeBuff) :
    enqueue draw id b s =
      if (mayEnqueue draw (s.queue id)).1 = false then
        (setPolicy id (mayEnqueue draw (s.queue id)).2 s, .nothing)
      else
        (if (s.queue id).policy.isToken then withPacket s id b (mayEnqueue draw (s.queue id)).2
          else (withPacket s id b (mayEnqueue draw (s.queue id)).2).semPost id.semaphore, .accepted id b) := by
  rw [← mayEnqueue_isToken draw]
  rfl

lemma enqueue_notStranded (h : NotStranded s) (b : VdeBuff) (policy : QueuePolicy) {s' : IfaceQueues}
    (hs' : s' = if (s.queue id).policy.isToken then withPacket s id b policy
      else (withPacket s id b policy).semPost id.semaphore) :
    NotStranded s' ↔
      (¬TimedActive s id.semaphore →
        framesWaiting s id.semaphore < s.sem id.semaphore ∨
          (s.queue id).policy.isToken = false ∧ s.sem id.semaphore < SEM_VALUE_MAX) := by
  have hqueue : s'.queue = (withPacket s id b policy).queue := by
    rw [hs']
    split <;> rfl
  have hother : ∀ id', id' ≠ id → (s'.queue id').packets = (s.queue id').packets := by
    intro id' hid
    rw [hqueue, withPacket, setQueue_other _ _ hid]
  have hactive (c : Semaphore) : TimedActive s' c ↔ TimedActive s c := by
    rw [hs']
    split <;> rfl
  have hwaiting : framesWaiting s' id.semaphore = framesWaiting s id.semaphore + 1 := by
    have hchange := framesWaiting_change hother
    rw [hqueue, withPacket, setQueue_same, length_append, length_singleton] at hchange
    omega
  -- what the semaphore of the queue must allow
  have hown (hold : framesWaiting s id.semaphore ≤ s.sem id.semaphore) :
      framesWaiting s' id.semaphore ≤ s'.sem id.semaphore ↔
        framesWaiting s id.semaphore < s.sem id.semaphore ∨
          (s.queue id).policy.isToken = false ∧ s.sem id.semaphore < SEM_VALUE_MAX := by
    rw [hwaiting, hs']
    by_cases htoken : (s.queue id).policy.isToken = true
    · rw [if_pos htoken]
      simp only [withPacket, setQueue_sem, htoken, Bool.true_eq_false, false_and, or_false]
      exact Nat.succ_le_iff
    rw [if_neg htoken, semPost_same, withPacket, setQueue_sem]
    rw [Bool.not_eq_true] at htoken
    simp only [htoken, true_and]
    by_cases hmax : s.sem id.semaphore < SEM_VALUE_MAX
    · rw [if_pos hmax]
      omega
    rw [if_neg hmax]
    omega
  constructor
  · intro hns hc
    exact (hown (h _ hc)).mp (hns _ (fun hact => hc ((hactive _).mp hact)))
  intro hfits c hc
  rw [hactive] at hc
  by_cases hcc : c = id.semaphore
  · subst hcc
    exact (hown (h _ hc)).mpr (hfits hc)
  have hsame : s'.sem c = s.sem c := by
    rw [hs']
    split
    · rfl
    · exact semPost_other _ hcc
  rw [framesWaiting_other hother hcc, hsame]
  exact h c hc

lemma enqueue_right (h : QueuesRight r) (draw : Rat → Bool) (b : VdeBuff) :
    QueuesRight (r.record (enqueue draw id b r.state)) ↔
    ((mayEnqueue draw (r.state.queue id)).1 = true → EnqueueFits r.state id b) := by
  rw [enqueue_eq]
  by_cases hmay : (mayEnqueue draw (r.state.queue id)).1 = false
  · rw [if_pos hmay]
    constructor
    · intro _ htrue
      exact absurd (hmay.symm.trans htrue) (by decide)
    intro _
    exact h.keep (sameContent_setPolicy _) (h.notStranded.mono (sameContent_setPolicy _) (fun _ => le_rfl)
      (fun _ hact => hact))
  rw [if_neg hmay]
  generalize hs' : (if (r.state.queue id).policy.isToken = true
    then withPacket r.state id b (mayEnqueue draw (r.state.queue id)).2
    else (withPacket r.state id b (mayEnqueue draw (r.state.queue id)).2).semPost id.semaphore) = s'
  have hstranded := enqueue_notStranded h.notStranded b _ hs'.symm
  have hcount := counts_append (h.counts id) b (mayEnqueue draw (r.state.queue id)).2
  have hqueue : s'.queue = (withPacket r.state id b (mayEnqueue draw (r.state.queue id)).2).queue := by
    rw [← hs']
    split <;> rfl
  have hsame : s'.queue id =
      { n := (r.state.queue id).n + 1, size := (r.state.queue id).size + BitVec.ofNat 32 b.len
        packets := (r.state.queue id).packets ++ [b], policy := (mayEnqueue draw (r.state.queue id)).2 } := by
    rw [hqueue, withPacket, setQueue_same]
  constructor
  · intro hright _
    have hid := hright.counts id
    simp only [QueueRun.record, hsame] at hid
    obtain ⟨hn, hsize⟩ := hcount.mp hid
    exact ⟨hn, hsize, hstranded.mp hright.notStranded⟩
  intro hfits
  obtain ⟨hn, hsize, hpost⟩ := hfits (by simpa using hmay)
  refine ⟨?_, ?_, hstranded.mpr hpost⟩
  · intro id'
    by_cases hid : id' = id
    · subst hid
      simpa only [QueueRun.record, hsame] using hcount.mpr ⟨hn, hsize⟩
    · simpa only [QueueRun.record, hqueue, withPacket, setQueue_other _ _ hid] using h.counts id'
  intro id'
  by_cases hid : id' = id
  · subst hid
    simp only [QueueRun.record, hsame, if_true]
    rw [h.order id', append_assoc]
  · simpa only [QueueRun.record, hqueue, withPacket, setQueue_other _ _ hid, if_neg hid] using h.order id'

lemma dequeue_right (h : QueuesRight r) : QueuesRight (r.record (dequeue id r.state)) := by
  cases id with
  | prio i => exact h
  | out =>
    simp only [dequeue]
    by_cases hn : ((r.state.semWait .out).queue .out).n = 0
    · rw [if_pos hn]
      have hempty := (h.counts .out).empty.mp hn
      apply h.wait
      rw [framesWaiting, hempty]
      rfl
    rw [if_neg hn]
    rw [semWait_queue, (h.counts .out).empty] at hn
    obtain ⟨b, next, hq⟩ := exists_cons_of_ne_nil hn
    exact (h.take .out hq).1

lemma prioDequeue_right (h : QueuesRight r) :
    QueuesRight (r.record (prioDequeue r.state)) ∧ ServesLowest r .prioDequeue ↔ QueueOk r .prioDequeue := by
  have hserved : servedQueue (r.state.semWait .prio) = servedQueue r.state := rfl
  have hiff := servedQueue_lowest h.counts
  simp only [QueueOk, ServesLowest]
  rw [← hiff]
  simp only [prioDequeue, hserved]
  constructor
  · rintro ⟨-, hlowest⟩
    cases hs : servedQueue r.state with
    | none =>
      rw [hs] at hlowest
      cases hl : lowestNonEmpty r.state with
      | none => rfl
      | some i =>
        rw [hl] at hlowest
        simp [QueueOutcome.takenFrom] at hlowest
    | some i =>
      -- the queue served has a packet
      rw [servedQueue_eq h.counts] at hs
      have hlen : totalLen (r.state.queue (.prio i)).packets ≠ 0 := by
        simpa using find?_some hs
      cases hp : (r.state.queue (.prio i)).packets with
      | nil => exact absurd (by rw [hp]; rfl) hlen
      | cons b next =>
        rw [← servedQueue_eq h.counts] at hs
        have htaken : (takeFrom (.prio i) (r.state.semWait .prio)).2.takenFrom = some (.prio i) :=
          (h.take (.prio i) hp).2
        simp only [hs, htaken] at hlowest
        cases hl : lowestNonEmpty r.state with
        | none => simp [hl] at hlowest
        | some j =>
          rw [hl] at hlowest
          simpa using hlowest
  intro heq
  rw [heq]
  cases hl : lowestNonEmpty r.state with
  | none => exact ⟨h.wait (framesWaiting_eq_zero (lowestNonEmpty_none hl)), rfl⟩
  | some i =>
    obtain ⟨b, next, hp⟩ := lowestNonEmpty_some hl
    exact h.take (.prio i) hp

lemma tick_right (h : QueuesRight r) (k now : Nat) :
    QueuesRight { r with state := timerTick k now r.state } := by
  rw [timerTick]
  cases hk : r.state.timedDequeue[k]? with
  | none => exact h
  | some cur =>
    refine h.keep (.of_queue_eq rfl) (h.notStranded.mono (.of_queue_eq rfl) (fun c => semPost_le _ _ _) ?_)
    rintro c ⟨e, he, hec⟩
    -- the entry that posted is still there, with another time
    obtain ⟨i, hi, rfl⟩ := getElem_of_mem he
    obtain ⟨hlt, hcur⟩ := List.getElem?_eq_some_iff.mp hk
    by_cases hik : i = k
    · subst hik
      rw [hcur] at hec
      exact ⟨_, mem_set hlt _, hec⟩
    have hkept := getElem_set_ne (Ne.symm hik) (l := r.state.timedDequeue)
      (a := { cur with lastOut := min (cur.lastOut + cur.interval.toNat) now }) (by simpa using hi)
    exact ⟨_, hkept ▸ getElem_mem _, hec⟩

lemma timedActive_leaveToken {c : Semaphore} (hc : c ≠ id.semaphore) :
    TimedActive (leaveToken id s) c ↔ TimedActive s c := by
  rw [leaveToken]
  split
  · constructor
    · rintro ⟨cur, hcur, hsem⟩
      exact ⟨cur, mem_of_mem_eraseP hcur, hsem⟩
    rintro ⟨cur, hcur, hsem⟩
    refine ⟨cur, (mem_eraseP_of_neg ?_).mpr hcur, hsem⟩
    rw [beq_iff_eq]
    rintro rfl
    exact hc hsem.symm
  · rfl

lemma policy_right (h : QueuesRight r) (id : QueueId) (p : QueuePolicy) (s' : IfaceQueues)
    (hqueue : s'.queue = r.state.queue) (hsem : s'.sem = r.state.sem)
    (hactive : ∀ c, c ≠ id.semaphore → TimedActive r.state c → TimedActive s' c) :
    QueuesRight { r with state := setPolicy id p s' } ↔
      (¬TimedActive s' id.semaphore → framesWaiting r.state id.semaphore ≤ r.state.sem id.semaphore) := by
  have hsame : SameContent r.state (setPolicy id p s') :=
    (SameContent.of_queue_eq hqueue).trans (sameContent_setPolicy p)
  constructor
  · intro hright hc
    have hle := hright.notStranded id.semaphore hc
    rwa [hsame.framesWaiting, setPolicy_sem, hsem] at hle
  intro hcovered
  apply h.keep hsame
  intro c hc
  rw [hsame.framesWaiting, setPolicy_sem, hsem]
  by_cases hcc : c = id.semaphore
  · subst hcc
    exact hcovered hc
  · exact h.notStranded c (fun hact => hc (hactive c hcc hact))

lemma setup_right (h : QueuesRight r) (p : QueuePolicy) :
    QueuesRight { r with state := setPolicy id p (leaveToken id r.state) } ↔ LeavesCovered r.state id :=
  policy_right h id p _ (leaveToken_queue _ _) (leaveToken_sem _ _)
    (fun _ hc hact => (timedActive_leaveToken hc).mpr hact)

lemma token_right (h : QueuesRight r) (alloc : Bool) (clock : Nat) (bitrate limit : BitVec 32) :
    QueuesRight { r with state := qtokenSetup alloc clock id bitrate limit r.state } ↔
      (alloc = false → LeavesCovered r.state id) := by
  rw [qtokenSetup]
  cases alloc with
  | false =>
    have hiff := policy_right h id (.token limit 0 (tokenInterval bitrate))
      (vderTimedDequeueAdd false clock id (BitVec.ofNat 32 (tokenInterval bitrate)) (leaveToken id r.state))
      (leaveToken_queue _ _) (leaveToken_sem _ _) (fun _ hc hact => (timedActive_leaveToken hc).mpr hact)
    rw [hiff]
    exact ⟨fun hcovered _ => hcovered, fun hcovered => hcovered rfl⟩
  | true =>
    have hiff := policy_right h id (.token limit 0 (tokenInterval bitrate))
      (vderTimedDequeueAdd true clock id (BitVec.ofNat 32 (tokenInterval bitrate)) (leaveToken id r.state))
      (leaveToken_queue _ _) (leaveToken_sem _ _) ?_
    · rw [hiff]
      constructor
      · intro _ hfalse
        exact absurd hfalse (by decide)
      intro _ hc
      exact absurd ⟨_, mem_cons_self, rfl⟩ hc
    intro c hc hact
    obtain ⟨cur, hcur, hsem⟩ := (timedActive_leaveToken hc).mpr hact
    exact ⟨cur, mem_cons_of_mem _ hcur, hsem⟩

end Calls

lemma queueStep_right {r : QueueRun} (h : QueuesRight r) (e : QueueEvent) :
    QueuesRight (queueMachine.step r e) ∧ ServesLowest r e ↔ QueueOk r e := by
  cases e with
  | enqueue draw id b => exact (and_iff_left trivial).trans (enqueue_right h draw b)
  | dequeue id => exact ⟨fun _ => trivial, fun _ => ⟨dequeue_right h, trivial⟩⟩
  | prioDequeue => exact prioDequeue_right h
  | tick k now => exact ⟨fun _ => trivial, fun _ => ⟨tick_right h k now, trivial⟩⟩
  | unlimited id => exact (and_iff_left trivial).trans (setup_right h _)
  | fifo id limit => exact (and_iff_left trivial).trans (setup_right h _)
  | red id min max P limit => exact (and_iff_left trivial).trans (setup_right h _)
  | token alloc clock id bitrate limit =>
    exact (and_iff_left trivial).trans (token_right h alloc clock bitrate limit)

lemma queueRunStart_right : QueuesRight queueRunStart := by
  refine ⟨fun _ => ⟨rfl, rfl⟩, fun _ => rfl, ?_⟩
  intro c _
  cases c with
  | out => exact le_rfl
  | prio => exact (framesWaiting_eq_zero (fun _ => rfl)).le

/-- In a run on the queues of a new interface the counters, the order, the choice of `prio_dequeue`
and the semaphores are right all along if and only if no accepted packet overflows a counter or a
semaphore, `prio_dequeue` finds bytes in the first queue that has a packet, and no queue leaves the
token policy as the last one with a timer while packets wait that the semaphore does not count. -/
theorem queues_right_iff (es : List QueueEvent) (hes : queueMachine.Along queueMachine.enabled queueRunStart es) :
    queueMachine.Always QueuesRight queueRunStart es ∧ queueMachine.Along ServesLowest queueRunStart es ↔
    queueMachine.Along QueueOk queueRunStart es :=
  Machine.always_and_along_iff QueuesRight (fun _ h => h)
    (fun _ e h _ hok => (queueStep_right h e).mpr hok)
    (fun _ e h _ hbad hboth => hbad ((queueStep_right h e).mp hboth)) queueRunStart_right es hes

def shortFrame : VdeBuff := { len := 60, src := 0, priority := 15, data := fun _ => 0 }

theorem queues_right_iff_frame :
    queueMachine.Always QueuesRight queueRunStart
        [.enqueue (fun _ => false) (.prio 15) shortFrame, .prioDequeue] ∧
      queueMachine.Along ServesLowest queueRunStart
        [.enqueue (fun _ => false) (.prio 15) shortFrame, .prioDequeue] := by
  have henabled : queueMachine.Along queueMachine.enabled queueRunStart
      [.enqueue (fun _ => false) (.prio 15) shortFrame, .prioDequeue] :=
    ⟨trivial, (by decide : 0 < 1), trivial⟩
  have hfits : EnqueueFits ifaceQueuesStart (.prio 15) shortFrame :=
    ⟨by decide, by decide, fun _ => .inr ⟨rfl, by decide⟩⟩
  have hbytes : QueueOk (queueMachine.step queueRunStart (.enqueue (fun _ => false) (.prio 15) shortFrame))
      .prioDequeue := by
    simp only [QueueOk]
    decide
  exact (queues_right_iff _ henabled).mpr ⟨fun _ => hfits, hbytes, trivial⟩

/-- A frame waits under the token policy; with the change to a fifo its timer goes, and the
semaphore is zero. -/
theorem token_frame_stranded :
    queueMachine.Along queueMachine.enabled queueRunStart
        [.token true 0 (.prio 3) 80000 3000, .enqueue (fun _ => false) (.prio 3) shortFrame,
          .fifo (.prio 3) 3000] ∧
      ¬NotStranded (queueMachine.run queueRunStart
        [.token true 0 (.prio 3) 80000 3000, .enqueue (fun _ => false) (.prio 3) shortFrame,
          .fifo (.prio 3) 3000]).state := by
  refine ⟨⟨⟨rfl, by decide⟩, trivial, fun _ => rfl, trivial⟩, ?_⟩
  intro h
  have hle := h .prio (by
    rintro ⟨cur, hcur, -⟩
    exact absurd hcur not_mem_nil)
  exact absurd hle (by decide)

end Vde
