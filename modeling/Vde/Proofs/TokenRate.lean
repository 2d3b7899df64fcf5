import Vde.Proofs.RouterQueues

/-!
# The rate of a queue under the token policy

The timer of a queue posts the semaphore that all priority queues share, and `prio_dequeue` does not
know for which queue it was posted. The queue keeps to its rate as long as it is served only when the
semaphore counts more than the packets that wait in the other queues.
-/

namespace Vde

open Finset

def tickFor (s : IfaceQueues) : QueueEvent → Option QueueId
  | .tick k _ => (s.timedDequeue[k]?).map TimedDequeue.q
  | _ => none

/-- The queues since the token policy was set for one of them: the ticks of its timer, and the packets taken out of
it. -/
structure TokenRun where
  state : IfaceQueues
  ticks : Nat
  taken : Nat

def tokenStep (i : Fin 32) (t : TokenRun) (e : QueueEvent) : TokenRun :=
  let call := queueCall t.state e
  if tickFor t.state e = some (.prio i) then { t with state := call.1, ticks := t.ticks + 1 }
  else if call.2.takenFrom = some (.prio i) then { t with state := call.1, taken := t.taken + 1 }
  else { t with state := call.1 }

def tokenMachine (i : Fin 32) : Machine TokenRun QueueEvent :=
  { enabled := fun t e => QueueEnabled t.state e
    step := tokenStep i }

def tokenRunStart (alloc : Bool) (clock : Nat) (i : Fin 32) (bitrate limit : BitVec 32) (s : IfaceQueues) : TokenRun :=
  { state := qtokenSetup alloc clock (.prio i) bitrate limit s, ticks := 0, taken := 0 }

/-- The packets that wait in the other priority queues, as their counters have them. -/
def waitingElsewhere (i : Fin 32) (s : IfaceQueues) : Nat := ∑ j ∈ univ.erase i, (s.queue (.prio j)).n.toNat

/-- What the semaphore counts beyond the packets of the other queues when the policy is set. -/
def surplus (i : Fin 32) (s : IfaceQueues) : Nat := s.sem .prio - waitingElsewhere i s

/-- The queue is served only while the semaphore counts more than the packets of the others account for, and the timer
of another queue posts only for a packet that waits; the policy of the queue is left alone, and no counter wraps. -/
def PostsAccounted (i : Fin 32) (extra : Nat) (t : TokenRun) : QueueEvent → Prop
  | .enqueue _ id _ => (t.state.queue id).n + 1 ≠ 0
  | .dequeue _ => True
  | .prioDequeue => servedQueue t.state = some i → waitingElsewhere i t.state + extra < t.state.sem .prio
  | .tick k _ => ∀ cur, t.state.timedDequeue[k]? = some cur → cur.q.semaphore = .prio → cur.q ≠ .prio i →
      t.state.sem .prio < waitingElsewhere i t.state + extra
  | .unlimited id => id ≠ .prio i
  | .fifo id _ => id ≠ .prio i
  | .red id _ _ _ _ => id ≠ .prio i
  | .token _ _ id _ _ => id ≠ .prio i

structure TokensCovered (i : Fin 32) (extra : Nat) (t : TokenRun) : Prop where
  policy : (t.state.queue (.prio i)).policy.isToken = true
  posts : t.state.sem .prio + t.taken ≤ t.ticks + waitingElsewhere i t.state + extra
  rate : t.taken ≤ t.ticks

/-- A call that is no tick and takes nothing from the queue: a post is made for a packet that waits elsewhere. -/
structure KeepsPosts (i : Fin 32) (s s' : IfaceQueues) : Prop where
  policy : (s'.queue (.prio i)).policy.isToken = (s.queue (.prio i)).policy.isToken
  posts : s'.sem .prio + waitingElsewhere i s ≤ s.sem .prio + waitingElsewhere i s'

section Calls

variable {s s' : IfaceQueues} {e : QueueEvent} {i j : Fin 32} {id : QueueId} {extra : Nat} {t : TokenRun}

lemma waitingElsewhere_congr (h : ∀ j, j ≠ i → (s'.queue (.prio j)).n = (s.queue (.prio j)).n) :
    waitingElsewhere i s' = waitingElsewhere i s := by
  apply sum_congr rfl
  intro j hj
  rw [h j (ne_of_mem_erase hj)]

lemma waitingElsewhere_setQueue (hj : j ≠ i) (q : RouterQueue) :
    waitingElsewhere i (s.setQueue (.prio j) q) + (s.queue (.prio j)).n.toNat = waitingElsewhere i s + q.n.toNat := by
  have hmem : j ∈ univ.erase i := mem_erase.mpr ⟨hj, mem_univ j⟩
  have hrest : ∑ k ∈ (univ.erase i).erase j, ((s.setQueue (.prio j) q).queue (.prio k)).n.toNat =
      ∑ k ∈ (univ.erase i).erase j, (s.queue (.prio k)).n.toNat := by
    apply sum_congr rfl
    intro k hk
    have hkj : QueueId.prio k ≠ .prio j := fun h => ne_of_mem_erase hk (by injection h)
    rw [setQueue_other _ _ hkj]
  have hold := add_sum_erase (univ.erase i) (fun k => (s.queue (.prio k)).n.toNat) hmem
  have hnew := add_sum_erase (univ.erase i)
    (fun k => ((s.setQueue (.prio j) q).queue (.prio k)).n.toNat) hmem
  simp only [hrest, setQueue_same] at hnew
  unfold waitingElsewhere
  omega

lemma waitingElsewhere_setQueue_other (h : ∀ j, j ≠ i → id ≠ .prio j) (q : RouterQueue) :
    waitingElsewhere i (s.setQueue id q) = waitingElsewhere i s :=
  waitingElsewhere_congr fun j hj => by rw [setQueue_other _ _ (h j hj).symm]

lemma KeepsPosts.of_same (hqueue : ∀ i, (s'.queue (.prio i)).n = (s.queue (.prio i)).n)
    (hpolicy : (s'.queue (.prio i)).policy = (s.queue (.prio i)).policy) (hsem : s'.sem .prio ≤ s.sem .prio) :
    KeepsPosts i s s' := by
  refine ⟨by rw [hpolicy], ?_⟩
  rw [waitingElsewhere_congr (i := i) fun j _ => hqueue j]
  exact Nat.add_le_add_right hsem _

lemma setPolicy_keeps (hid : id ≠ .prio i) (policy : QueuePolicy) : KeepsPosts i s (setPolicy id policy s) := by
  refine .of_same (fun j => (sameContent_setPolicy policy (.prio j)).1) ?_ le_rfl
  rw [setPolicy, setQueue_other _ _ hid.symm]

lemma takeFrom_takenFrom {id' : QueueId} (h : (takeFrom id s).2.takenFrom = some id') : id = id' := by
  rw [takeFrom] at h
  split at h
  · exact Option.some.inj h
  · cases h

lemma takeHead_policy (q : RouterQueue) : q.takeHead.2.policy = q.policy := by
  rw [RouterQueue.takeHead]
  split <;> rfl

lemma setQueue_policy {q : RouterQueue} (hq : q.policy.isToken = (s.queue id).policy.isToken) (id' : QueueId) :
    ((s.setQueue id q).queue id').policy.isToken = (s.queue id').policy.isToken := by
  by_cases hid : id' = id
  · subst hid
    rw [setQueue_same, hq]
  · rw [setQueue_other _ _ hid]

lemma waitingElsewhere_withPacket (hroom : (s.queue id).n + 1 ≠ 0) (b : VdeBuff) (policy : QueuePolicy) :
    waitingElsewhere i (withPacket s id b policy) = waitingElsewhere i s + if id.semaphore = .prio ∧
    id ≠ .prio i then 1 else 0 := by
  have hn : ((s.queue id).n + 1).toNat = (s.queue id).n.toNat + 1 := by bv_omega
  cases id with
  | out =>
    rw [withPacket, waitingElsewhere_setQueue_other fun _ _ => by simp, if_neg (by simp [QueueId.semaphore])]
    rfl
  | prio j =>
    by_cases hj : j = i
    · subst hj
      have hother : ∀ k, k ≠ j → QueueId.prio j ≠ .prio k := fun k hk h => hk (by injection h with h; exact h.symm)
      rw [withPacket, waitingElsewhere_setQueue_other hother, if_neg (by simp)]
      rfl
    have hset := waitingElsewhere_setQueue (s := s) hj
      { n := (s.queue (.prio j)).n + 1, size := (s.queue (.prio j)).size + BitVec.ofNat 32 b.len
        packets := (s.queue (.prio j)).packets ++ [b], policy := policy }
    rw [if_pos ⟨rfl, fun h => hj (by injection h)⟩]
    rw [hn] at hset
    exact Nat.add_right_cancel (by rw [withPacket, hset]; omega)

lemma enqueue_keeps (hpolicy : (s.queue (.prio i)).policy.isToken = true) (hroom : (s.queue id).n + 1 ≠ 0)
    (draw : Rat → Bool) (b : VdeBuff) : KeepsPosts i s (enqueue draw id b s).1 := by
  have htoken := mayEnqueue_isToken draw (s.queue id)
  rw [enqueue_eq]
  generalize (mayEnqueue draw (s.queue id)).2 = policy at htoken ⊢
  split_ifs with hmay hown
  · refine ⟨setQueue_policy htoken _, ?_⟩
    rw [waitingElsewhere_congr (i := i) fun j _ => (sameContent_setPolicy policy (.prio j)).1, setPolicy_sem]
  · refine ⟨setQueue_policy htoken _, ?_⟩
    rw [waitingElsewhere_withPacket hroom, withPacket, setQueue_sem]
    omega
  have hid : id ≠ .prio i := by
    rintro rfl
    exact hown hpolicy
  have hwaiting := waitingElsewhere_withPacket (i := i) hroom b policy
  refine ⟨setQueue_policy htoken _, ?_⟩
  have hqueue : waitingElsewhere i ((withPacket s id b policy).semPost id.semaphore) =
      waitingElsewhere i (withPacket s id b policy) := rfl
  rw [hqueue, hwaiting]
  by_cases hprio : id.semaphore = .prio
  · rw [if_pos ⟨hprio, hid⟩, hprio, semPost_same, withPacket, setQueue_sem]
    split_ifs
    · omega
    · omega
  rw [if_neg fun h => hprio h.1, semPost_other _ (Ne.symm hprio)]
  exact le_rfl

lemma servedQueue_n (hj : servedQueue s = some j) : 0 < (s.queue (.prio j)).n.toNat := by
  have hsome := List.find?_some hj
  simp only [Bool.and_eq_true, bne_iff_ne] at hsome
  have hn := hsome.2
  bv_omega

/-- The queue that is served loses a packet, and the semaphore a post. -/
lemma prioDequeue_other (hsem : 0 < s.sem .prio) (hserved : servedQueue s ≠ some i) :
    KeepsPosts i s (prioDequeue s).1 := by
  have hqueue : servedQueue (s.semWait .prio) = servedQueue s := rfl
  have hwait : KeepsPosts i s (s.semWait .prio) := by
    refine .of_same (fun _ => rfl) rfl ?_
    rw [semWait_same]
    exact Nat.sub_le _ _
  rw [prioDequeue, hqueue]
  cases hs : servedQueue s with
  | none => exact hwait
  | some j =>
    have hj : j ≠ i := by
      rintro rfl
      exact hserved hs
    have hn := servedQueue_n hs
    dsimp only
    rw [takeFrom, semWait_queue]
    cases hpackets : (s.queue (.prio j)).packets with
    | nil =>
      rw [RouterQueue.takeHead, hpackets]
      exact hwait
    | cons ret next =>
      rw [RouterQueue.takeHead, hpackets]
      dsimp only
      refine ⟨by rw [setQueue_other _ _ (fun h => hj (by injection h with h; exact h.symm)), semWait_queue], ?_⟩
      have hset := waitingElsewhere_setQueue (s := s.semWait .prio) hj
        { s.queue (.prio j) with
          n := (s.queue (.prio j)).n - 1, size := (s.queue (.prio j)).size - BitVec.ofNat 32 ret.len
          packets := if (s.queue (.prio j)).n - 1 = 0 then [] else next }
      have hsame : waitingElsewhere i (s.semWait .prio) = waitingElsewhere i s := rfl
      have hless : ((s.queue (.prio j)).n - 1).toNat + 1 = (s.queue (.prio j)).n.toNat := by bv_omega
      rw [semWait_queue, hsame] at hset
      rw [setQueue_sem, semWait_same]
      dsimp only at hset ⊢
      omega

lemma prioDequeue_own (hserved : servedQueue s = some i) : ((prioDequeue s).1.queue (.prio i)).policy =
    (s.queue (.prio i)).policy ∧ (prioDequeue s).1.sem .prio = s.sem .prio - 1 ∧
    waitingElsewhere i (prioDequeue s).1 = waitingElsewhere i s := by
  have hqueue : servedQueue (s.semWait .prio) = some i := hserved
  have hother : ∀ j, j ≠ i → QueueId.prio i ≠ .prio j := fun j hj h => hj (by injection h with h; exact h.symm)
  rw [prioDequeue, hqueue]
  dsimp only
  rw [takeFrom, semWait_queue]
  have hpolicy := takeHead_policy (s.queue (.prio i))
  generalize (s.queue (.prio i)).takeHead = head at hpolicy ⊢
  obtain ⟨ret, q⟩ := head
  cases ret with
  | none => exact ⟨rfl, semWait_same s .prio, rfl⟩
  | some ret =>
    refine ⟨?_, semWait_same s .prio, waitingElsewhere_setQueue_other hother q⟩
    rw [setQueue_same]
    exact hpolicy

lemma enqueue_takenFrom (draw : Rat → Bool) (b : VdeBuff) : (enqueue draw id b s).2.takenFrom = none := by
  simp only [enqueue]
  split <;> rfl

lemma dequeue_keeps (i : Fin 32) (id : QueueId) :
    KeepsPosts i s (dequeue id s).1 ∧ (dequeue id s).2.takenFrom ≠ some (.prio i) := by
  have hsame : KeepsPosts i s (s.semWait .out) := .of_same (fun _ => rfl) rfl le_rfl
  cases id with
  | prio _ => exact ⟨.of_same (fun _ => rfl) rfl le_rfl, by simp [dequeue, QueueOutcome.takenFrom]⟩
  | out =>
    rw [dequeue]
    split_ifs
    · exact ⟨hsame, by simp [QueueOutcome.takenFrom]⟩
    refine ⟨?_, fun h => absurd (takeFrom_takenFrom h) (by simp)⟩
    rw [takeFrom]
    split
    · refine .of_same (fun j => ?_) ?_ le_rfl
      · rw [setQueue_other _ _ (by simp), semWait_queue]
      · rw [setQueue_other _ _ (by simp), semWait_queue]
    · exact hsame

/-! ### One step -/

lemma TokensCovered.keep (h : TokensCovered i extra t) (hk : KeepsPosts i t.state s') :
    TokensCovered i extra { t with state := s' } := by
  obtain ⟨hpolicy, hposts, hrate⟩ := h
  refine ⟨hk.policy.trans hpolicy, ?_, hrate⟩
  have hle := hk.posts
  dsimp only
  omega

lemma tokenStep_keep (h : TokensCovered i extra t) (htick : tickFor t.state e ≠ some (.prio i))
    (htaken : (queueCall t.state e).2.takenFrom ≠ some (.prio i)) (hk : KeepsPosts i t.state (queueCall t.state e).1) :
    TokensCovered i extra (tokenStep i t e) := by
  simp only [tokenStep]
  rw [if_neg htick, if_neg htaken]
  exact h.keep hk

lemma tokenStep_policy (h : TokensCovered i extra t) (hid : id ≠ .prio i) {policy : QueuePolicy}
    (hqueue : s.queue = t.state.queue) (hsem : s.sem = t.state.sem) (htick : tickFor t.state e = none)
    (hcall : queueCall t.state e = (setPolicy id policy s, .nothing)) : TokensCovered i extra (tokenStep i t e) := by
  have hkeep := setPolicy_keeps (s := s) hid policy
  have hwaiting : waitingElsewhere i s = waitingElsewhere i t.state :=
    waitingElsewhere_congr fun j _ => by rw [hqueue]
  refine tokenStep_keep h (by rw [htick]; simp) (by rw [hcall]; simp [QueueOutcome.takenFrom]) ?_
  rw [hcall]
  exact ⟨by rw [hkeep.policy, hqueue], by rw [← hwaiting, ← hsem]; exact hkeep.posts⟩

lemma timerTick_eq {k : Nat} {cur : TimedDequeue} (hcur : s.timedDequeue[k]? = some cur) (now : Nat) :
    (timerTick k now s).queue = s.queue ∧ (timerTick k now s).sem = (s.semPost cur.q.semaphore).sem := by
  rw [timerTick, hcur]
  exact ⟨rfl, rfl⟩

lemma tokenStep_tick {k now : Nat} {cur : TimedDequeue} (h : TokensCovered i extra t)
    (hcur : t.state.timedDequeue[k]? = some cur) (hok : PostsAccounted i extra t (.tick k now)) :
    TokensCovered i extra (tokenStep i t (.tick k now)) := by
  obtain ⟨hpolicy, hposts, hrate⟩ := h
  obtain ⟨hqueue, hsem⟩ := timerTick_eq hcur now
  have hwaiting : waitingElsewhere i (timerTick k now t.state) = waitingElsewhere i t.state :=
    waitingElsewhere_congr fun j _ => by rw [hqueue]
  have hfor : tickFor t.state (.tick k now) = some cur.q := by rw [tickFor, hcur, Option.map_some]
  have hcall : queueCall t.state (.tick k now) = (timerTick k now t.state, .nothing) := rfl
  have hkept : ((timerTick k now t.state).queue (.prio i)).policy.isToken = true := by rw [hqueue, hpolicy]
  simp only [tokenStep, hfor, hcall]
  by_cases hprio : cur.q.semaphore = .prio
  · have hpost : (timerTick k now t.state).sem .prio ≤ t.state.sem .prio + 1 := by
      rw [hsem, hprio, semPost_same]
      split_ifs
      · exact le_rfl
      · exact Nat.le_succ _
    by_cases hown : cur.q = .prio i
    · rw [if_pos (congrArg some hown)]
      exact ⟨hkept, by dsimp only; omega, Nat.le_succ_of_le hrate⟩
    have hless := hok cur hcur hprio hown
    rw [if_neg fun heq => hown (Option.some.inj heq), if_neg (by simp [QueueOutcome.takenFrom])]
    exact ⟨hkept, by dsimp only; omega, hrate⟩
  have hown : cur.q ≠ .prio i := by
    intro h
    rw [h] at hprio
    exact hprio rfl
  have hsame : (timerTick k now t.state).sem .prio = t.state.sem .prio := by
    rw [hsem, semPost_other _ (Ne.symm hprio)]
  rw [if_neg fun heq => hown (Option.some.inj heq), if_neg (by simp [QueueOutcome.takenFrom])]
  exact ⟨hkept, by dsimp only; omega, hrate⟩

lemma tokenStep_prioDequeue (h : TokensCovered i extra t) (he : 0 < t.state.sem .prio)
    (hok : PostsAccounted i extra t .prioDequeue) : TokensCovered i extra (tokenStep i t .prioDequeue) := by
  have hnotick : tickFor t.state .prioDequeue ≠ some (.prio i) := by simp [tickFor]
  by_cases hserved : servedQueue t.state = some i
  · obtain ⟨hpolicy, hsem, hwaiting⟩ := prioDequeue_own hserved
    have hmore := hok hserved
    obtain ⟨htoken, hposts, hrate⟩ := h
    rw [← hpolicy] at htoken
    have hcall : queueCall t.state .prioDequeue = prioDequeue t.state := rfl
    simp only [tokenStep]
    rw [if_neg hnotick]
    by_cases htaken : (queueCall t.state .prioDequeue).2.takenFrom = some (.prio i)
    · rw [if_pos htaken, hcall]
      exact ⟨htoken, by dsimp only; omega, by dsimp only; omega⟩
    rw [if_neg htaken, hcall]
    exact ⟨htoken, by dsimp only; omega, hrate⟩
  refine tokenStep_keep h hnotick ?_ (prioDequeue_other he hserved)
  intro htaken
  have hqueue : servedQueue (t.state.semWait .prio) = servedQueue t.state := rfl
  rw [queueCall, prioDequeue, hqueue] at htaken
  cases hs : servedQueue t.state with
  | none =>
    rw [hs] at htaken
    cases htaken
  | some j =>
    rw [hs] at htaken
    have hj := takeFrom_takenFrom htaken
    injection hj with hj
    exact hserved (hj ▸ hs)

lemma vderTimedDequeueAdd_queue (alloc : Bool) (clock : Nat) (interval : BitVec 32) :
    (vderTimedDequeueAdd alloc clock id interval s).queue = s.queue ∧
    (vderTimedDequeueAdd alloc clock id interval s).sem = s.sem := by
  rw [vderTimedDequeueAdd]
  split_ifs
  · exact ⟨rfl, rfl⟩
  · exact ⟨rfl, rfl⟩

lemma TokensCovered.step (h : TokensCovered i extra t) (he : QueueEnabled t.state e)
    (hok : PostsAccounted i extra t e) : TokensCovered i extra (tokenStep i t e) := by
  cases e with
  | enqueue draw id b =>
    refine tokenStep_keep h (by simp [tickFor]) ?_ (enqueue_keeps h.policy hok draw b)
    rw [queueCall, enqueue_takenFrom]
    simp
  | dequeue id =>
    obtain ⟨hkeep, htaken⟩ := dequeue_keeps (s := t.state) i id
    exact tokenStep_keep h (by simp [tickFor]) htaken hkeep
  | prioDequeue => exact tokenStep_prioDequeue h he hok
  | tick k now =>
    obtain ⟨-, cur, hcur, -⟩ := he
    exact tokenStep_tick h hcur hok
  | unlimited id => exact tokenStep_policy h hok (leaveToken_queue _ id) (leaveToken_sem _ id) rfl rfl
  | fifo id limit => exact tokenStep_policy h hok (leaveToken_queue _ id) (leaveToken_sem _ id) rfl rfl
  | red id min max P limit => exact tokenStep_policy h hok (leaveToken_queue _ id) (leaveToken_sem _ id) rfl rfl
  | token alloc clock id bitrate limit =>
    obtain ⟨hqueue, hsem⟩ := @vderTimedDequeueAdd_queue (leaveToken id t.state) id alloc clock
      (BitVec.ofNat 32 (tokenInterval bitrate))
    exact tokenStep_policy h hok (hqueue.trans (leaveToken_queue _ id)) (hsem.trans (leaveToken_sem _ id)) rfl rfl

end Calls

/-- From the moment the token policy is set for a priority queue, whatever the state of the queues then was, no more
packets are taken out of it than its timer has ticked, in every run in which it is served only when the semaphore counts
more than the packets of the other queues and what it counted in excess of them at the start. -/
theorem token_rate_kept (alloc : Bool) (clock : Nat) (i : Fin 32) (bitrate limit : BitVec 32) (s : IfaceQueues)
    (es : List QueueEvent)
    (hes : (tokenMachine i).Along (tokenMachine i).enabled (tokenRunStart alloc clock i bitrate limit s) es)
    (hok : (tokenMachine i).Along (PostsAccounted i (surplus i s)) (tokenRunStart alloc clock i bitrate limit s) es) :
    (tokenMachine i).Always (fun t => t.taken ≤ t.ticks) (tokenRunStart alloc clock i bitrate limit s) es := by
  obtain ⟨hqueue, hsem⟩ := @vderTimedDequeueAdd_queue (leaveToken (.prio i) s) (.prio i) alloc clock
    (BitVec.ofNat 32 (tokenInterval bitrate))
  rw [leaveToken_queue] at hqueue
  rw [leaveToken_sem] at hsem
  have hstart : TokensCovered i (surplus i s) (tokenRunStart alloc clock i bitrate limit s) := by
    refine ⟨?_, ?_, Nat.le_refl _⟩
    · simp only [tokenRunStart, qtokenSetup, setPolicy, setQueue_same, QueuePolicy.isToken]
    have hwaiting : waitingElsewhere i (qtokenSetup alloc clock (.prio i) bitrate limit s) =
        waitingElsewhere i s := by
      refine waitingElsewhere_congr fun j _ => ?_
      rw [qtokenSetup, (sameContent_setPolicy _ (.prio j)).1, hqueue]
    have hcount : (qtokenSetup alloc clock (.prio i) bitrate limit s).sem .prio = s.sem .prio := by
      rw [qtokenSetup, setPolicy_sem, hsem]
    simp only [tokenRunStart, hwaiting, hcount, surplus]
    omega
  exact Machine.Along.always (TokensCovered i (surplus i s)) (fun _ h => h.rate)
    (fun _ _ h hstep => h.step hstep.1 hstep.2) hstart (hes.and hok)

/-- Two queues with a frame each: the one under the token policy is served after its tick. -/
def sharedPosts : List QueueEvent :=
  [.enqueue (fun _ => false) (.prio 3) shortFrame, .enqueue (fun _ => false) (.prio 15) shortFrame, .tick 0 200000,
    .prioDequeue, .prioDequeue]

theorem token_rate_kept_shared :
    (tokenMachine 3).Always (fun t => t.taken ≤ t.ticks) (tokenRunStart true 0 3 80000 3000 ifaceQueuesStart)
      sharedPosts := by
  refine token_rate_kept true 0 3 80000 3000 ifaceQueuesStart sharedPosts ?_ ?_
  · exact ⟨trivial, trivial, ⟨rfl, _, rfl, by decide⟩, (by decide : 0 < 2), (by decide : 0 < 1), trivial⟩
  refine ⟨?_, ?_, fun cur hcur _ hother => ?_, fun _ => (by decide : 1 < 2), fun hserved => ?_, trivial⟩
  · exact (by decide : (0 : BitVec 32) + 1 ≠ 0)
  · exact (by decide : (0 : BitVec 32) + 1 ≠ 0)
  · cases hcur
    exact absurd rfl hother
  · exact absurd hserved (by decide)

def crossTraffic : List QueueEvent :=
  [.enqueue (fun _ => false) (.prio 3) shortFrame, .enqueue (fun _ => false) (.prio 15) shortFrame, .prioDequeue]

/-- A frame in another queue posts the semaphore, and the frame under the token policy leaves on
this post without a tick. -/
theorem token_rate_exceeded :
    (tokenMachine 3).Along (tokenMachine 3).enabled (tokenRunStart true 0 3 80000 3000 ifaceQueuesStart)
        crossTraffic ∧
      ((tokenMachine 3).run (tokenRunStart true 0 3 80000 3000 ifaceQueuesStart) crossTraffic).ticks <
        ((tokenMachine 3).run (tokenRunStart true 0 3 80000 3000 ifaceQueuesStart) crossTraffic).taken := by
  refine ⟨⟨trivial, trivial, (by decide : 0 < 1), trivial⟩, ?_⟩
  decide

end Vde
