import Vde.Wirefilter

/-!
# The places of the delay queue

The queue has its first packet at place 1, so `npq` packets need `npq + 1` elements. `packet_enqueue`
asks for more memory when there are as many packets as elements, one packet too late.
-/

namespace Vde

open List

def placeStep (q : DelayQueue) : DelayEvent → DelayQueue
  | .enqueue now dir buf delms => packetEnqueue q now dir buf delms
  | .dequeue now => (packetDequeue q now).2

def placeMachine : Machine DelayQueue DelayEvent := ⟨fun _ _ => True, placeStep⟩

def InPlace (q : DelayQueue) : DelayEvent → Prop
  | .enqueue now dir buf delms =>
    ∀ i ∈ enqueuePlaces q now dir buf delms, i < (packetEnqueue q now dir buf delms).maxpq
  | .dequeue now => ∀ i ∈ dequeuePlaces now q.npq q, i < q.maxpq

def RoomLeft (q : DelayQueue) : DelayEvent → Prop
  | .enqueue _ _ _ _ => q.npq + 1 < pqChunk
  | .dequeue _ => True

/-- The first block of memory, or none yet, and fewer packets than elements. -/
def FirstChunk (q : DelayQueue) : Prop := (q.maxpq = 0 ∧ q.npq = 0) ∨ (q.maxpq = pqChunk ∧ q.npq < pqChunk)

section

variable {h : Nat → Packpq} {x : Packpq} {n fuel k now : Nat} {q : DelayQueue}

lemma siftUpPlaces_le : (∀ i ∈ siftUpPlaces h x fuel k, i ≤ k) ∧ k ∈ siftUpPlaces h x fuel k := by
  induction fuel generalizing h k with
  | zero => exact ⟨fun i hi => (mem_singleton.mp hi).le, mem_singleton_self k⟩
  | succ fuel ih =>
    rw [siftUpPlaces]
    split
    · refine ⟨?_, mem_cons_of_mem _ mem_cons_self⟩
      intro i hi
      rcases mem_cons.mp hi with rfl | hi
      · exact Nat.div_le_self k 2
      rcases mem_cons.mp hi with rfl | hi
      · exact le_rfl
      have hle := ih.1 i hi
      omega
    refine ⟨?_, mem_cons_of_mem _ mem_cons_self⟩
    intro i hi
    rcases mem_cons.mp hi with rfl | hi
    · exact Nat.div_le_self k 2
    · exact (mem_singleton.mp hi).le

lemma siftDownPlaces_le (hk : 1 ≤ k) : ∀ i ∈ siftDownPlaces h x n fuel k, i ≤ max n k := by
  induction fuel generalizing h k with
  | zero => exact fun i hi => (mem_singleton.mp hi).le.trans (Nat.le_max_right _ _)
  | succ fuel ih =>
    intro i hi
    rw [siftDownPlaces] at hi
    by_cases hleaf : k ≤ n / 2
    · rw [if_pos hleaf] at hi
      have hchild : k < firstChild Packpq.before h n k ∧ firstChild Packpq.before h n k ≤ n := by
        rw [firstChild]
        split <;> omega
      generalize firstChild Packpq.before h n k = j at hi hchild
      have hread : ∀ i ∈ if 2 * k < n then [2 * k, 2 * k + 1, j] else [j], i ≤ n := by
        intro i hi
        split at hi
        · rcases mem_cons.mp hi with rfl | hi
          · omega
          rcases mem_cons.mp hi with rfl | hi
          · omega
          · exact (mem_singleton.mp hi).le.trans hchild.2
        · exact (mem_singleton.mp hi).le.trans hchild.2
      dsimp only at hi
      split at hi
      · rcases mem_append.mp hi with hi | hi
        · exact (hread i hi).trans (Nat.le_max_left _ _)
        · exact (mem_singleton.mp hi).le.trans (Nat.le_max_right _ _)
      rcases mem_append.mp hi with hi | hi
      · exact (hread i hi).trans (Nat.le_max_left _ _)
      rcases mem_cons.mp hi with rfl | hi
      · exact Nat.le_max_right _ _
      have hle := ih (by omega) i hi
      omega
    · rw [if_neg hleaf] at hi
      exact (mem_singleton.mp hi).le.trans (Nat.le_max_right _ _)

lemma dequeuePlaces_le : ∀ i ∈ dequeuePlaces now fuel q, i ≤ q.npq := by
  induction fuel generalizing q with
  | zero => exact fun i hi => absurd hi not_mem_nil
  | succ fuel ih =>
    intro i hi
    rw [dequeuePlaces] at hi
    by_cases hpos : 0 < q.npq
    · rw [if_pos hpos] at hi
      split at hi
      · rcases mem_append.mp hi with hi | hi
        · rcases mem_cons.mp hi with rfl | hi
          · exact hpos
          rcases mem_cons.mp hi with rfl | hi
          · exact le_rfl
          have hle := siftDownPlaces_le (Nat.le_refl 1) i hi
          omega
        have hle := ih i hi
        have hless : (removeRoot q).npq = q.npq - 1 := rfl
        omega
      rw [mem_singleton.mp hi]
      exact hpos
    rw [if_neg hpos] at hi
    exact absurd hi not_mem_nil

lemma dequeueLoop_memory : (dequeueLoop now fuel q).2.maxpq = q.maxpq ∧ (dequeueLoop now fuel q).2.npq ≤ q.npq := by
  induction fuel generalizing q with
  | zero => exact ⟨rfl, le_rfl⟩
  | succ fuel ih =>
    rw [dequeueLoop]
    split
    · obtain ⟨hmax, hle⟩ := @ih (removeRoot q)
      have hless : (removeRoot q).npq = q.npq - 1 := rfl
      exact ⟨hmax, by dsimp only; omega⟩
    · exact ⟨rfl, le_rfl⟩

lemma packetEnqueue_memory (q : DelayQueue) (now : Nat) (dir : Dir) (buf : List UInt8) (delms : Nat) :
    (packetEnqueue q now dir buf delms).npq = q.npq + 1 ∧
      (packetEnqueue q now dir buf delms).maxpq =
        if (if q.maxpq = 0 then pqChunk else q.maxpq) ≤ q.npq then (if q.maxpq = 0 then pqChunk else q.maxpq) + pqChunk
        else if q.maxpq = 0 then pqChunk else q.maxpq :=
  ⟨rfl, rfl⟩

lemma FirstChunk.enqueue (hq : FirstChunk q) (now : Nat) (dir : Dir) (buf : List UInt8) (delms : Nat) :
    (packetEnqueue q now dir buf delms).maxpq = pqChunk ∧
    (InPlace q (.enqueue now dir buf delms) ↔ q.npq + 1 < pqChunk) := by
  have hmax : (packetEnqueue q now dir buf delms).maxpq = pqChunk := by
    rw [(packetEnqueue_memory q now dir buf delms).2]
    rcases hq with ⟨hnull, hnone⟩ | ⟨hchunk, hfew⟩
    · rw [if_pos hnull, hnone]
      exact if_neg (by decide)
    have hne : q.maxpq ≠ 0 := by
      rw [hchunk]
      decide
    rw [if_neg hne, hchunk, if_neg (Nat.not_le.mpr hfew)]
  refine ⟨hmax, ?_⟩
  rw [InPlace, hmax]
  constructor
  · intro hplaces
    exact hplaces _ (mem_append_right _ siftUpPlaces_le.2)
  intro hroom i hi
  rcases mem_append.mp hi with hi | hi
  · split at hi
    · rw [mem_singleton.mp hi]
      decide
    · exact absurd hi not_mem_nil
  · exact Nat.lt_of_le_of_lt (siftUpPlaces_le.1 i hi) hroom

lemma FirstChunk.step (hq : FirstChunk q) {e : DelayEvent} (hroom : RoomLeft q e) :
    FirstChunk (placeStep q e) ∧ InPlace q e := by
  cases e with
  | enqueue now dir buf delms =>
    obtain ⟨hmax, hplaces⟩ := hq.enqueue now dir buf delms
    exact ⟨.inr ⟨hmax, hroom⟩, hplaces.mpr hroom⟩
  | dequeue now =>
    obtain ⟨hmax, hle⟩ := @dequeueLoop_memory q.npq now q
    refine ⟨?_, ?_⟩
    · rcases hq with ⟨hnull, hnone⟩ | ⟨hchunk, hfew⟩
      · exact .inl ⟨hmax.trans hnull, Nat.le_zero.mp (hle.trans hnone.le)⟩
      · exact .inr ⟨hmax.trans hchunk, Nat.lt_of_le_of_lt hle hfew⟩
    intro i hi
    rcases hq with ⟨-, hnone⟩ | ⟨hchunk, hfew⟩
    · -- an empty queue is not looked at
      rw [hnone] at hi
      exact absurd hi not_mem_nil
    rw [hchunk]
    exact Nat.lt_of_le_of_lt (dequeuePlaces_le i hi) hfew

end

/-- A run stays inside of the memory of the queue exactly if fewer packets than the first block has elements
are ever in the queue at once. -/
theorem queue_places_iff (nofifo : Bool) (es : List DelayEvent) :
    placeMachine.Along InPlace (delayInit nofifo) es ↔ placeMachine.Along RoomLeft (delayInit nofifo) es := by
  have henabled : placeMachine.Along placeMachine.enabled (delayInit nofifo) es :=
    Machine.Along.of_forall (fun _ _ => trivial) _ _
  apply Machine.along_iff FirstChunk _ _ (.inl ⟨rfl, rfl⟩) es henabled
  · intro q e hq _ hroom
    exact hq.step hroom
  intro q e hq _ hroom hplaces
  cases e with
  | enqueue now dir buf delms => exact hroom ((hq.enqueue now dir buf delms).2.mp hplaces)
  | dequeue now => exact hroom trivial

lemma FirstChunk.overrun {q : DelayQueue} (hq : FirstChunk q) {n : Nat} (hn : q.npq + n = 99) :
    ¬placeMachine.Along InPlace q (replicate (n + 1) (.enqueue 0 .LR [] 0)) := by
  induction n generalizing q with
  | zero =>
    intro h
    have hroom := (hq.enqueue 0 .LR [] 0).2.mp h.1
    have hless : q.npq + 1 < 100 := hroom
    omega
  | succ n ih =>
    intro h
    obtain ⟨hmax, hplaces⟩ := hq.enqueue 0 .LR [] 0
    have hnpq : (packetEnqueue q 0 .LR [] 0).npq = q.npq + 1 := rfl
    exact ih (.inr ⟨hmax, hplaces.mp h.1⟩) (by omega) h.2

theorem hundredth_packet_outside :
    ¬placeMachine.Along InPlace (delayInit false) (replicate 100 (.enqueue 0 .LR [] 0)) :=
  FirstChunk.overrun (.inl ⟨rfl, rfl⟩) rfl

end Vde
