import Mathlib.Algebra.BigOperators.Group.List.Basic
import Mathlib.Algebra.Ring.Nat
import Mathlib.Data.Prod.Lex
import Vde.Wirefilter

/-!
# The delay queue

In FIFO mode every packet is scheduled at the running maximum of the times asked for and the
counter tells packets of the same time apart, so the pairs of time and counter grow with every
packet. The root of the heap is then the oldest packet. The array has room for one packet less
than `packet_enqueue` allows before it grows; the results hold as long as that place is not
needed and the counter does not wrap.
-/

namespace Vde

open List Function

def Packpq.key (p : Packpq) : ℕ ×ₗ ℕ := toLex (p.when, p.counter)

lemma Packpq.before_iff (a b : Packpq) : a.before b = true ↔ a.key < b.key := by
  simp only [Packpq.before, Packpq.key, Prod.Lex.toLex_lt_toLex, Bool.or_eq_true,
    decide_eq_true_eq, Bool.and_eq_true, beq_iff_eq]

lemma before_sentinel (p : Packpq) : p.before sentinel = false := by
  simp [Packpq.before, sentinel]

def queuedSize (d : Dir) (ps : List Packpq) : Nat :=
  (ps.map (fun p => if p.dir = d then p.size else 0)).sum

lemma queuedSize_perm {ps qs : List Packpq} (h : ps.Perm qs) (d : Dir) :
    queuedSize d ps = queuedSize d qs := (h.map _).sum_eq

lemma queuedSize_cons (d : Dir) (p : Packpq) (ps : List Packpq) :
    queuedSize d (p :: ps) = (if p.dir = d then p.size else 0) + queuedSize d ps := by
  simp [queuedSize]

lemma queuedSize_append (d : Dir) (ps qs : List Packpq) :
    queuedSize d (ps ++ qs) = queuedSize d ps + queuedSize d qs := by
  simp [queuedSize]

structure QueueInv (q : DelayQueue) (rest : List Packpq) : Prop where
  fifo : q.nofifo = false
  stored : q.fault = false
  room : q.maxpq = 0 ∧ q.npq = 0 ∨ q.maxpq = pqChunk ∧ q.npq < pqChunk ∧ q.pqh 0 = sentinel
  heap : HeapOrdered Packpq.key q.pqh q.npq
  perm : (slots q.pqh q.npq).Perm rest
  sorted : rest.Pairwise (fun a b => a.key < b.key)
  last : ∀ p ∈ rest, p.key ≤ toLex (q.maxwhen, q.counter)
  bufsize : ∀ d, q.delayBufsize d = queuedSize d rest
  bounded : ∀ d, queuedSize d rest < 2147483648

variable {q : DelayQueue}

lemma schedule_fifo {time : Nat} (hfifo : q.nofifo = false)
    (hcounter : q.maxwhen < time ∨ q.counter + 1 < 4294967296) : (schedule q time).2.2 = (schedule q time).1 ∧
    time ≤ (schedule q time).1 ∧
    toLex (q.maxwhen, q.counter) < toLex ((schedule q time).1, (schedule q time).2.1) := by
  rw [schedule]
  by_cases hmax : q.maxwhen < time
  · simp only [if_pos hmax, hfifo, Nat.le_refl, and_self, if_true, true_and]
    rw [Prod.Lex.toLex_lt_toLex]
    exact .inl hmax
  have hle : time ≤ q.maxwhen := by omega
  have hcnt : q.counter + 1 < 4294967296 := by omega
  simp only [if_neg hmax, hfifo, hle, and_self, if_true, true_and]
  rw [Prod.Lex.toLex_lt_toLex, Nat.mod_eq_of_lt hcnt]
  exact .inr ⟨rfl, Nat.lt_succ_self _⟩

def scheduled (q : DelayQueue) (now : Nat) (dir : Dir) (buf : List UInt8) (delms : Nat) : Packpq :=
  { when := (schedule q ((now + delms) % 18446744073709551616)).2.2
    counter := (schedule q ((now + delms) % 18446744073709551616)).2.1
    dir := dir, buf := buf, size := buf.length }

/-- A call of `packet_enqueue` finds a free place in the array, a counter that it can increase, a
time that fits its type and room for the size. -/
structure Enqueues (q : DelayQueue) (now : Nat) (dir : Dir) (buf : List UInt8) (delms : Nat) :
    Prop where
  place : q.npq + 1 < pqChunk
  counter : q.maxwhen < now + delms ∨ q.counter + 1 < 4294967296
  time : now + delms < 18446744073709551616
  size : q.delayBufsize dir + buf.length < 2147483648

variable {rest : List Packpq}

lemma packetEnqueue_inv (hq : QueueInv q rest) {now : Nat} {dir : Dir}
    {buf : List UInt8} {delms : Nat} (hok : Enqueues q now dir buf delms) :
    QueueInv (packetEnqueue q now dir buf delms) (rest ++ [scheduled q now dir buf delms]) ∧
    now + delms ≤ (scheduled q now dir buf delms).when := by
  have htime : (now + delms) % 18446744073709551616 = now + delms := Nat.mod_eq_of_lt hok.time
  obtain ⟨hwhen, hdue, hlast⟩ := schedule_fifo hq.fifo hok.counter
  have hkey : (scheduled q now dir buf delms).key =
      toLex ((schedule q (now + delms)).1, (schedule q (now + delms)).2.1) := by
    rw [scheduled, htime, Packpq.key, hwhen]
  have hplace := hok.place
  -- the array after it was allocated, if this is the first packet
  obtain ⟨h0, hh0, hslots0, hsent0, hheap0⟩ : ∃ h0 : Nat → Packpq,
      (if q.maxpq = 0 then update q.pqh 0 sentinel else q.pqh) = h0 ∧
        slots h0 q.npq = slots q.pqh q.npq ∧ h0 0 = sentinel ∧
        HeapOrdered Packpq.key h0 q.npq := by
    rcases hq.room with ⟨hz, hn⟩ | ⟨hmax, _, hzero⟩
    · refine ⟨update q.pqh 0 sentinel, by rw [if_pos hz], by rw [hn]; rfl, by simp, ?_⟩
      intro i h2 hi
      omega
    · exact ⟨q.pqh, by rw [if_neg (by rw [hmax]; decide)], rfl, hzero, hq.heap⟩
  have halloc : (if q.maxpq = 0 then pqChunk else q.maxpq) = pqChunk := by
    rcases hq.room with ⟨hz, -⟩ | ⟨hmax, -, -⟩
    · rw [if_pos hz]
    rw [hmax]
    rfl
  have hgrow : (if pqChunk ≤ q.npq then pqChunk + pqChunk else pqChunk) = pqChunk :=
    if_neg (by omega)
  obtain ⟨hheap, hperm, hzero⟩ := heap_push Packpq.before_iff hheap0
    (scheduled q now dir buf delms) (by rw [hsent0]; exact before_sentinel _)
  have hq' : packetEnqueue q now dir buf delms =
      { pqh := siftUp Packpq.before h0 (scheduled q now dir buf delms) (q.npq + 1) (q.npq + 1)
        npq := q.npq + 1, maxpq := pqChunk
        maxwhen := (schedule q (now + delms)).1, counter := (schedule q (now + delms)).2.1
        delayBufsize := update q.delayBufsize dir
          (toInt32 (q.delayBufsize dir + buf.length))
        nofifo := q.nofifo, fault := q.fault || decide (pqChunk ≤ q.npq + 1) } := by
    simp only [packetEnqueue, hh0, halloc, hgrow, scheduled, htime]
  have hsize : ∀ d, queuedSize d (rest ++ [scheduled q now dir buf delms]) =
      queuedSize d rest + if dir = d then buf.length else 0 := by
    intro d
    rw [queuedSize_append, queuedSize_cons]
    rfl
  have hnew := hok.size
  rw [hq.bufsize] at hnew
  rw [hq']
  refine ⟨?_, by simp only [scheduled, htime, hwhen]; exact hdue⟩
  constructor
  · exact hq.fifo
  · have hfree : ¬pqChunk ≤ q.npq + 1 := by omega
    simp [hq.stored, hfree]
  · exact .inr ⟨rfl, hok.place, hzero.trans hsent0⟩
  · exact hheap
  · refine hperm.trans ?_
    rw [hslots0]
    exact (hq.perm.cons _).trans (perm_append_singleton _ _).symm
  · rw [pairwise_append]
    refine ⟨hq.sorted, pairwise_singleton _ _, ?_⟩
    intro p hp p' hp'
    rw [mem_singleton] at hp'
    rw [hp', hkey]
    exact lt_of_le_of_lt (hq.last p hp) hlast
  · intro p hp
    rw [mem_append, mem_singleton] at hp
    rcases hp with hp | rfl
    · exact le_of_lt (lt_of_le_of_lt (hq.last p hp) hlast)
    · rw [hkey]
  · intro d
    rw [hsize]
    dsimp only
    by_cases hd : dir = d
    · subst hd
      rw [update_self, hq.bufsize, if_pos rfl, ← Nat.cast_add, toInt32_of_lt (by omega)]
    have hd' : d ≠ dir := fun h => hd h.symm
    simp only [update_of_ne hd', if_neg hd, Nat.add_zero]
    exact hq.bufsize d
  · intro d
    rw [hsize]
    have hbound := hq.bounded d
    by_cases hd : dir = d
    · subst hd
      rw [if_pos rfl]
      omega
    rw [if_neg hd]
    omega

lemma QueueInv.root {p : Packpq} (hq : QueueInv q (p :: rest)) : 0 < q.npq ∧ q.pqh 1 = p := by
  have hn : q.npq = rest.length + 1 := by
    have := hq.perm.length_eq
    simpa using this
  refine ⟨by omega, ?_⟩
  have hroot : q.pqh 1 ∈ p :: rest := hq.perm.subset (mem_slots.mpr ⟨1, by omega, by omega, rfl⟩)
  obtain ⟨i, h1, hi, hpi⟩ := mem_slots.mp (hq.perm.symm.subset (mem_cons_self))
  rw [mem_cons] at hroot
  rcases hroot with hroot | hroot
  · exact hroot
  -- the root would come strictly after the oldest packet
  have hless := rel_of_pairwise_cons hq.sorted hroot
  have hle := hq.heap.root_le i h1 hi
  rw [hpi] at hle
  exact absurd hless (not_lt.mpr hle)

lemma removeRoot_inv {p : Packpq} (hq : QueueInv q (p :: rest)) : QueueInv (removeRoot q) rest := by
  obtain ⟨hpos, hroot⟩ := hq.root
  obtain ⟨n, hn⟩ : ∃ n, q.npq = n + 1 := ⟨q.npq - 1, by omega⟩
  have hord := hq.heap
  rw [hn] at hord
  obtain ⟨hheap, hperm, hzero⟩ := heap_pop Packpq.before_iff hord
  have hq' : removeRoot q =
      { q with
        pqh := siftDown Packpq.before q.pqh (q.pqh (n + 1)) n n 1
        npq := n
        delayBufsize := update q.delayBufsize p.dir
          (toInt32 (q.delayBufsize p.dir - p.size)) } := by
    simp only [removeRoot, hn, Nat.add_sub_cancel, hroot]
  rw [hq']
  constructor
  · exact hq.fifo
  · exact hq.stored
  · rcases hq.room with ⟨-, hz⟩ | ⟨hmax, hlt, hs⟩
    · omega
    · exact .inr ⟨hmax, by dsimp only; omega, hzero.trans hs⟩
  · exact hheap
  · have hall := hperm.trans (hn ▸ hq.perm)
    rw [hroot] at hall
    exact hall.cons_inv
  · exact hq.sorted.tail
  · intro p' hp'
    exact hq.last p' (mem_cons_of_mem _ hp')
  · intro d
    have hbuf := hq.bufsize d
    have hbound := hq.bounded d
    rw [queuedSize_cons] at hbuf hbound
    dsimp only
    by_cases hd : p.dir = d
    · subst hd
      rw [if_pos rfl] at hbuf hbound
      have hsub : q.delayBufsize p.dir - p.size = (queuedSize p.dir rest : Int) := by
        rw [hbuf]
        omega
      rw [update_self, hsub, toInt32_of_lt (by omega)]
    have hd' : d ≠ p.dir := fun h => hd h.symm
    rw [if_neg hd, Nat.zero_add] at hbuf
    rw [update_of_ne hd']
    exact hbuf
  · intro d
    have hbound := hq.bounded d
    rw [queuedSize_cons] at hbound
    omega

lemma dequeueLoop_inv (hq : QueueInv q rest) (now fuel : Nat) (hfuel : rest.length ≤ fuel) : ∃ left, rest =
    (dequeueLoop now fuel q).1 ++ left ∧ QueueInv (dequeueLoop now fuel q).2 left ∧
    (∀ p ∈ (dequeueLoop now fuel q).1, p.when ≤ now) ∧ (∀ p ∈ left, now < p.when) := by
  induction fuel generalizing q rest with
  | zero =>
    have hnil : rest = [] := eq_nil_of_length_eq_zero (by omega)
    subst hnil
    exact ⟨[], rfl, hq, by simp [dequeueLoop], by simp⟩
  | succ fuel ih =>
    rw [dequeueLoop]
    cases rest with
    | nil =>
      have hn : q.npq = 0 := by
        have := hq.perm.length_eq
        simpa using this
      rw [if_neg (by omega)]
      exact ⟨[], rfl, hq, by simp, by simp⟩
    | cons p rest =>
      obtain ⟨hpos, hroot⟩ := hq.root
      by_cases hdue : p.when ≤ now
      · rw [if_pos ⟨hpos, by rw [hroot]; exact hdue⟩]
        obtain ⟨left, hrest, hinv, hwritten, hleft⟩ := ih (removeRoot_inv hq) (by simpa using hfuel)
        refine ⟨left, ?_, hinv, ?_, hleft⟩
        · rw [hroot, cons_append, ← hrest]
        intro p' hp'
        rw [mem_cons, hroot] at hp'
        rcases hp' with rfl | hp'
        · exact hdue
        · exact hwritten p' hp'
      rw [if_neg (by rw [hroot]; exact fun h => hdue h.2)]
      refine ⟨p :: rest, rfl, hq, by simp, ?_⟩
      intro p' hp'
      rw [mem_cons] at hp'
      rcases hp' with rfl | hp'
      · omega
      have hless := rel_of_pairwise_cons hq.sorted hp'
      rw [Packpq.key, Packpq.key, Prod.Lex.toLex_lt_toLex] at hless
      dsimp only at hless
      omega

lemma packetDequeue_inv (hq : QueueInv q rest) (now : Nat) : ∃ left, rest =
    (packetDequeue q now).1 ++ left ∧ QueueInv (packetDequeue q now).2 left ∧
    (∀ p ∈ (packetDequeue q now).1, p.when ≤ now) ∧ (∀ p ∈ left, now < p.when) := by
  apply dequeueLoop_inv hq
  have := hq.perm.length_eq
  rw [slots_length] at this
  omega

structure Answers (w : Written) (o : Offer) : Prop where
  dir : w.packet.dir = o.dir
  buf : w.packet.buf = o.buf
  scheduled : w.packet.when ≤ w.now
  due : o.due ≤ w.now

/-- The promises of the delay queue: packets are written in the order they were offered, each
once and none before its time; the packets not written yet are those in the queue, which is a
heap inside its array; `packet_dequeue` leaves no packet that is due; the sizes add up. -/
structure DelayOk (s : DelayRun) : Prop where
  inOrder : Forall₂ Answers s.written (s.offered.take s.written.length)
  waiting : ∃ rest, (slots s.q.pqh s.q.npq).Perm rest ∧
    Forall₂ (fun p o => p.dir = o.dir ∧ p.buf = o.buf) rest (s.offered.drop s.written.length)
  swept : ∀ now, s.swept = some now → ∀ p ∈ slots s.q.pqh s.q.npq, now < p.when
  heap : HeapOrdered Packpq.key s.q.pqh s.q.npq
  bufsize : ∀ d, s.q.delayBufsize d = queuedSize d (slots s.q.pqh s.q.npq)
  stored : s.q.fault = false

def DelayStepOk (s : DelayRun) : DelayEvent → Prop
  | .enqueue now dir buf delms => Enqueues s.q now dir buf delms
  | .dequeue _ => True

def Holds (p : Packpq) (o : Offer) : Prop := p.dir = o.dir ∧ p.buf = o.buf ∧ o.due ≤ p.when

structure DelayInv (s : DelayRun) (answered awaited : List Offer) (rest : List Packpq) : Prop where
  queue : QueueInv s.q rest
  offered : s.offered = answered ++ awaited
  written : Forall₂ Answers s.written answered
  held : Forall₂ Holds rest awaited
  swept : ∀ now, s.swept = some now → ∀ p ∈ rest, now < p.when

section

variable {s : DelayRun} {answered awaited : List Offer} (h : DelayInv s answered awaited rest)

include h

lemma DelayInv.ok : DelayOk s := by
  have hlen := h.written.length_eq
  constructor
  · rw [h.offered, hlen, take_left']
    · exact h.written
    · rfl
  · refine ⟨rest, h.queue.perm, ?_⟩
    rw [h.offered, hlen, drop_left' rfl]
    exact h.held.imp (fun p o hpo => ⟨hpo.1, hpo.2.1⟩)
  · intro now hnow p hp
    exact h.swept now hnow p (h.queue.perm.subset hp)
  · exact h.queue.heap
  · intro d
    rw [queuedSize_perm h.queue.perm]
    exact h.queue.bufsize d
  · exact h.queue.stored

lemma delayStep_inv (e : DelayEvent) (hok : DelayStepOk s e) : ∃ answered' awaited' rest',
    DelayInv (delayStep s e) answered' awaited' rest' := by
  cases e with
  | enqueue now dir buf delms =>
    obtain ⟨hq, hdue⟩ := packetEnqueue_inv h.queue hok
    refine ⟨answered, awaited ++ [⟨dir, buf, now + delms⟩],
      rest ++ [scheduled s.q now dir buf delms], hq, ?_, h.written, ?_, ?_⟩
    · rw [delayStep, h.offered, append_assoc]
    · exact rel_append h.held (.cons ⟨rfl, rfl, hdue⟩ .nil)
    intro now' hnow
    simp [delayStep] at hnow
  | dequeue now =>
    obtain ⟨left, hrest, hq, hwritten, hleft⟩ := packetDequeue_inv h.queue now
    have hfirst := forall₂_take (packetDequeue s.q now).1.length h.held
    have hlast := forall₂_drop (packetDequeue s.q now).1.length h.held
    nth_rewrite 1 [hrest] at hfirst hlast
    rw [take_left' rfl] at hfirst
    rw [drop_left' rfl] at hlast
    refine ⟨answered ++ awaited.take (packetDequeue s.q now).1.length,
      awaited.drop (packetDequeue s.q now).1.length, left, hq, ?_, ?_, hlast, ?_⟩
    · rw [append_assoc, take_append_drop]
      exact h.offered
    · refine rel_append h.written ?_
      rw [forall₂_map_left_iff]
      have hdue := (forall₂_and_left _ _).mpr ⟨hwritten, hfirst⟩
      exact hdue.imp (fun p o hpo =>
        { dir := hpo.2.1, buf := hpo.2.2.1, scheduled := hpo.1
          due := Nat.le_trans hpo.2.2.2 hpo.1 })
    intro now' hnow p hp
    simp only [delayStep, Option.some.injEq] at hnow
    rw [← hnow]
    exact hleft p hp

end

lemma delayStart_inv : DelayInv delayStart [] [] [] where
  queue :=
    { fifo := rfl
      stored := rfl
      room := .inl ⟨rfl, rfl⟩
      heap := fun i h2 hi => absurd (Nat.le_trans h2 hi) (by decide)
      perm := Perm.refl _
      sorted := Pairwise.nil
      last := by simp
      bufsize := fun _ => rfl
      bounded := fun _ => Nat.zero_lt_succ _ }
  offered := rfl
  written := .nil
  held := .nil
  swept := by simp [delayStart]

/-- Every run of the delay queue in FIFO mode whose calls of `packet_enqueue` find fewer than 99
packets waiting, a counter below its maximum, a time and a total size that fit, keeps its promises
in all its states. -/
theorem delay_queue_fifo (es : List DelayEvent) (hok : delayMachine.Along DelayStepOk delayStart es) :
    delayMachine.Always DelayOk delayStart es := by
  refine hok.always (fun s => ∃ answered awaited rest, DelayInv s answered awaited rest) ?_ ?_
    ⟨[], [], [], delayStart_inv⟩
  · rintro s ⟨answered, awaited, rest, h⟩
    exact h.ok
  rintro s e ⟨answered, awaited, rest, h⟩ he
  exact delayStep_inv h e he

theorem delay_queue_fifo_two_packets :
    delayMachine.Always DelayOk delayStart [.enqueue 5 .LR [0, 1, 7] 10, .enqueue 6 .RL [0, 1, 8] 2, .dequeue 20] :=
  delay_queue_fifo _
    ⟨⟨by decide, by decide, by decide, by decide⟩, ⟨by decide, by decide, by decide, by decide⟩,
      trivial, trivial⟩

def delayBurst (n : Nat) : List DelayEvent := replicate n (.enqueue 1 .LR [0, 0] 10)

lemma delayBurst_enabled (n : Nat) (s : DelayRun) (hs : s.clock ≤ 1) :
    delayMachine.Along delayMachine.enabled s (delayBurst n) := by
  induction n generalizing s with
  | zero => trivial
  | succ n ih => exact ⟨⟨hs, by decide⟩, ih _ (Nat.le_refl 1)⟩

/-- The hundredth packet waiting is stored behind the end of the array. -/
theorem delay_queue_overrun : delayMachine.Along delayMachine.enabled delayStart (delayBurst 100) ∧
    ¬delayMachine.Always DelayOk delayStart (delayBurst 100) := by
  refine ⟨delayBurst_enabled 100 delayStart (by decide), ?_⟩
  intro h
  have hfault : (delayMachine.run delayStart (delayBurst 100)).q.fault = true := by decide +kernel
  have hstored := h.last.stored
  rw [hfault] at hstored
  exact absurd hstored (by decide)

end Vde
