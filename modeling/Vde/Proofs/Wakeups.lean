import Vde.WireRates

/-!
# Sleeping until the first deadline

The waits are merged by minima of numbers that are not negative, and the result has to fit into an `int`. A
transition of the Markov chain that is overdue has a negative wait, and is left out.
-/

namespace Vde

/-- `poll` returns in time for every pending deadline: the timeout is not negative, and is no longer than what
the clock has to go until the deadline. -/
structure InTime (now : TimeOfDay) (s : FilterTimers) (p : PollArgs) : Prop where
  queue : 0 < s.queue.npq → 0 ≤ p.timeout ∧ p.timeout ≤ max 0 ((s.queue.pqh 1).when - now.ms : Int)
  markov : 1 < s.markov.numnodes → 0 ≤ p.timeout ∧ p.timeout ≤ max 0 (s.markov.next - now.ms)
  speed : ∀ dir, p.masked dir = true →
    0 ≤ p.timeout ∧ p.timeout * 1000 ≤ max 0 ((s.nextspeed dir).timeval.micros - now.timeval.micros)

def SpeedWaits (stale : Timeval) (now : TimeOfDay) (s : FilterTimers) : Prop :=
  ∃ dir, inputMasked stale now s dir = true

def TransitionWaits (now : TimeOfDay) (s : FilterTimers) : Prop :=
  1 < s.markov.numnodes ∧ 0 ≤ toInt32 (s.markov.next - now.ms)

def queueWait (now : TimeOfDay) (s : FilterTimers) : Nat := (s.queue.pqh 1).when - now.ms

/-- Some wait is zero, as an `int` if it is the transition's. A wait of a multiple of 2^32 for the first packet
is zero if it is the only one. -/
def ZeroWaits (stale : Timeval) (now : TimeOfDay) (s : FilterTimers) : Prop :=
  1 < s.markov.numnodes ∧ toInt32 (s.markov.next - now.ms) = 0 ∨
    0 < s.queue.npq ∧ (queueWait now s = 0 ∨
      ¬TransitionWaits now s ∧ ¬SpeedWaits stale now s ∧ toInt32 (queueWait now s) = 0)

/-- With a pending deadline some wait is not negative as an `int`. If the transition is overdue, or an input
that should be read again, some wait is zero. -/
structure WaitsSeen (stale : Timeval) (now : TimeOfDay) (s : FilterTimers) : Prop where
  some : 0 < s.queue.npq ∨ 1 < s.markov.numnodes →
    TransitionWaits now s ∨ SpeedWaits stale now s ∨ 0 < s.queue.npq ∧ 0 ≤ toInt32 (queueWait now s)
  transition : 1 < s.markov.numnodes → s.markov.next < now.ms → ZeroWaits stale now s
  input : inputMasked stale now s .RL = true →
    (s.nextspeed .RL).timeval.micros < now.timeval.micros → ZeroWaits stale now s

section

variable {s : FilterTimers} {now : TimeOfDay} {stale : Timeval} {x : Int} {delay : Nat}

/-! ### The waits -/

lemma shorten_eq (hx : 0 ≤ x) : shorten x delay = min x.toNat delay := by
  rw [shorten]
  split
  · omega
  · omega

lemma speeddelay_le {a b : Timeval} (ha : a.Normal) (hb : b.Normal) (h : b.micros ≤ a.micros) :
    speeddelay a b * 1000 ≤ a.micros - b.micros := by
  have hmicros := timersub_micros a b
  obtain ⟨hlow, hhigh⟩ := timersub_normal ha hb
  have hstored : speeddelay a b ≤ (timersub a b).sec * 1000 + (timersub a b).usec.tdiv 1000 := by
    apply toInt32_le
    rw [Int.tdiv_eq_ediv_of_nonneg hlow]
    rw [Timeval.micros] at hmicros
    omega
  rw [Int.tdiv_eq_ediv_of_nonneg hlow] at hstored
  rw [Timeval.micros] at hmicros
  omega

lemma timerLt_micros {a b : Timeval} (ha : a.Normal) (hb : b.Normal) (h : timerLt a b = true) :
    a.micros < b.micros := by
  obtain ⟨ha0, ha1⟩ := ha
  obtain ⟨hb0, hb1⟩ := hb
  rw [timerLt] at h
  rw [Timeval.micros, Timeval.micros]
  split at h
  · have hless := of_decide_eq_true h
    omega
  have hless := of_decide_eq_true h
  omega

lemma inputMasked_pos {dir : Dir} (h : inputMasked stale now s dir = true) :
    0 < speeddelay (s.nextspeed dir).timeval now.timeval := by
  cases dir with
  | LR =>
    simp only [inputMasked, speedMasks, Bool.and_eq_true, decide_eq_true_eq] at h
    exact h.2
  | RL =>
    simp only [inputMasked, speedMasks, Bool.and_eq_true, decide_eq_true_eq] at h
    exact h.2.2

lemma inputMasked_left (h : inputMasked stale now s .LR = true) :
    now.timeval.micros < (s.nextspeed .LR).timeval.micros := by
  simp only [inputMasked, speedMasks, Bool.and_eq_true, decide_eq_true_eq] at h
  exact timerLt_micros now.normal (s.nextspeed .LR).normal h.1.2

lemma nextms_of_pos (hpos : 0 < s.queue.npq) : nextms now.ms s.queue = queueWait now s := by
  rw [nextms, if_pos hpos, queueWait]
  split
  · rfl
  · omega

lemma nextms_of_empty (hnone : ¬0 < s.queue.npq) : nextms now.ms s.queue = noDelay := by
  rw [nextms, if_neg hnone]

lemma markovms_nonneg : 0 ≤ markovms now.ms s.markov ↔ TransitionWaits now s := by
  rw [markovms, TransitionWaits]
  by_cases hmany : 1 < s.markov.numnodes
  · rw [if_pos hmany]
    exact ⟨fun hpos => ⟨hmany, hpos⟩, fun hpos => hpos.2⟩
  rw [if_neg hmany]
  exact ⟨fun hpos => absurd hpos (by decide), fun hpos => absurd hpos.1 hmany⟩

/-! ### The timeout -/

structure MergedOne (c : Prop) (x : Int) (delay delay' : Nat) : Prop where
  le : delay' ≤ delay
  wait : c → (delay' : Int) ≤ x
  other : ¬c → delay' = delay
  zero : delay' = 0 → delay = 0 ∨ c ∧ x = 0

lemma mergedOne (c : Prop) [Decidable c] (hx : c → 0 ≤ x) :
    MergedOne c x delay (if c then shorten x delay else delay) := by
  by_cases hc : c
  · rw [if_pos hc, shorten_eq (hx hc)]
    have hnonneg := hx hc
    refine ⟨by omega, fun _ => by omega, fun hnot => absurd hc hnot, fun hzero => ?_⟩
    by_cases hdelay : delay = 0
    · exact .inl hdelay
    · exact .inr ⟨hc, by omega⟩
  rw [if_neg hc]
  exact ⟨Nat.le_refl _, fun h => absurd h hc, fun _ => rfl, .inl⟩

structure Merged (stale : Timeval) (now : TimeOfDay) (s : FilterTimers) (delay : Nat) : Prop where
  queue : delay ≤ nextms now.ms s.queue
  transition : TransitionWaits now s → (delay : Int) ≤ toInt32 (s.markov.next - now.ms)
  input : ∀ dir, inputMasked stale now s dir = true →
    (delay : Int) ≤ speeddelay (s.nextspeed dir).timeval now.timeval
  other : ¬TransitionWaits now s → ¬SpeedWaits stale now s → delay = nextms now.ms s.queue
  zero : delay = 0 → nextms now.ms s.queue = 0 ∨ TransitionWaits now s ∧ toInt32 (s.markov.next - now.ms) = 0

lemma pollDelay_merged (stale : Timeval) (now : TimeOfDay) (s : FilterTimers) :
    Merged stale now s (pollDelay stale now s) := by
  have hvalue : TransitionWaits now s → markovms now.ms s.markov = toInt32 (s.markov.next - now.ms) := by
    intro h
    rw [markovms, if_pos h.1]
  rw [pollDelay]
  have h1 := @mergedOne (markovms now.ms s.markov) (nextms now.ms s.queue) (0 ≤ markovms now.ms s.markov)
    inferInstance (fun h => h)
  generalize (if 0 ≤ markovms now.ms s.markov then shorten (markovms now.ms s.markov) (nextms now.ms s.queue)
    else nextms now.ms s.queue) = delay1 at h1 ⊢
  have h2 := @mergedOne (speeddelay (s.nextspeed .LR).timeval now.timeval) delay1
    (inputMasked stale now s .LR = true) inferInstance (fun h => (inputMasked_pos h).le)
  generalize (if inputMasked stale now s .LR = true then
      shorten (speeddelay (s.nextspeed .LR).timeval now.timeval) delay1 else delay1) = delay2 at h2 ⊢
  have h3 := @mergedOne (speeddelay (s.nextspeed .RL).timeval now.timeval) delay2
    (inputMasked stale now s .RL = true) inferInstance (fun h => (inputMasked_pos h).le)
  refine ⟨h3.le.trans (h2.le.trans h1.le), ?_, ?_, ?_, ?_⟩
  · intro h
    rw [← hvalue h]
    exact le_trans (Int.ofNat_le.mpr (h3.le.trans h2.le)) (h1.wait (markovms_nonneg.mpr h))
  · intro dir h
    cases dir with
    | LR => exact le_trans (Int.ofNat_le.mpr h3.le) (h2.wait h)
    | RL => exact h3.wait h
  · intro htransition hspeed
    exact (h3.other (fun h => hspeed ⟨.RL, h⟩)).trans ((h2.other (fun h => hspeed ⟨.LR, h⟩)).trans
      (h1.other (fun h => htransition (markovms_nonneg.mp h))))
  · intro hzero
    rcases h3.zero hzero with hzero | ⟨h, hnull⟩
    · rcases h2.zero hzero with hzero | ⟨h, hnull⟩
      · rcases h1.zero hzero with hzero | ⟨h, hnull⟩
        · exact .inl hzero
        have htransition := markovms_nonneg.mp h
        exact .inr ⟨htransition, (hvalue htransition) ▸ hnull⟩
      · exact absurd hnull (inputMasked_pos h).ne'
    · exact absurd hnull (inputMasked_pos h).ne'

lemma Merged.counted (h : Merged stale now s delay) (hw : TransitionWaits now s ∨ SpeedWaits stale now s) :
    toInt32 delay = delay := by
  have hfits : (delay : Int) < 2147483648 := by
    rcases hw with hw | ⟨dir, hw⟩
    · have hle := h.transition hw
      have hlt := toInt32_lt (s.markov.next - now.ms)
      omega
    have hle := h.input dir hw
    have hlt : speeddelay (s.nextspeed dir).timeval now.timeval < 2147483648 := toInt32_lt _
    omega
  exact toInt32_eq (by omega) hfits

lemma toInt32_noDelay : toInt32 noDelay = -1 := by decide

section

variable (h : Merged stale now s delay)

include h

lemma Merged.nonneg_iff : 0 ≤ toInt32 delay ↔ TransitionWaits now s ∨
    SpeedWaits stale now s ∨ 0 < s.queue.npq ∧ 0 ≤ toInt32 (queueWait now s) := by
  by_cases hw : TransitionWaits now s ∨ SpeedWaits stale now s
  · rw [h.counted hw]
    refine ⟨fun _ => ?_, fun _ => Int.natCast_nonneg _⟩
    rcases hw with hw | hw
    · exact .inl hw
    · exact .inr (.inl hw)
  rw [not_or] at hw
  rw [h.other hw.1 hw.2, or_iff_right hw.1, or_iff_right hw.2]
  by_cases hpos : 0 < s.queue.npq
  · rw [nextms_of_pos hpos]
    exact ⟨fun hle => ⟨hpos, hle⟩, fun hle => hle.2⟩
  rw [nextms_of_empty hpos, toInt32_noDelay]
  exact ⟨fun hle => absurd hle (by decide), fun hle => absurd hle.1 hpos⟩

lemma Merged.zero_iff : toInt32 delay = 0 ↔ ZeroWaits stale now s := by
  have hqueue : nextms now.ms s.queue = 0 ↔ 0 < s.queue.npq ∧ queueWait now s = 0 := by
    by_cases hpos : 0 < s.queue.npq
    · rw [nextms_of_pos hpos]
      exact ⟨fun hzero => ⟨hpos, hzero⟩, fun hzero => hzero.2⟩
    rw [nextms_of_empty hpos]
    exact ⟨fun hzero => absurd hzero (by decide), fun hzero => absurd hzero.1 hpos⟩
  by_cases hw : TransitionWaits now s ∨ SpeedWaits stale now s
  · rw [h.counted hw]
    constructor
    · intro hzero
      rcases h.zero (Int.natCast_eq_zero.mp hzero) with hzero | ⟨htransition, hzero⟩
      · exact .inr ⟨(hqueue.mp hzero).1, .inl (hqueue.mp hzero).2⟩
      · exact .inl ⟨htransition.1, hzero⟩
    rintro (⟨hmany, hzero⟩ | ⟨hpos, hzero | ⟨hnone, hnone', -⟩⟩)
    · have hle := h.transition ⟨hmany, hzero.ge⟩
      omega
    · have hle := h.queue
      have hnull := hqueue.mpr ⟨hpos, hzero⟩
      omega
    · exact absurd hw (not_or.mpr ⟨hnone, hnone'⟩)
  rw [not_or] at hw
  rw [h.other hw.1 hw.2]
  by_cases hpos : 0 < s.queue.npq
  · rw [nextms_of_pos hpos]
    constructor
    · exact fun hzero => .inr ⟨hpos, .inr ⟨hw.1, hw.2, hzero⟩⟩
    rintro (⟨hmany, hzero⟩ | ⟨-, hzero | ⟨-, -, hzero⟩⟩)
    · exact absurd ⟨hmany, hzero.ge⟩ hw.1
    · rw [hzero]
      rfl
    · exact hzero
  rw [nextms_of_empty hpos, toInt32_noDelay]
  constructor
  · exact fun hzero => absurd hzero (by decide)
  rintro (⟨hmany, hzero⟩ | ⟨hqueued, -⟩)
  · exact absurd ⟨hmany, hzero.ge⟩ hw.1
  · exact absurd hqueued hpos

lemma Merged.markov_le (hmany : 1 < s.markov.numnodes)
    (hahead : now.ms ≤ s.markov.next) : toInt32 delay ≤ s.markov.next - now.ms := by
  have hle : toInt32 delay ≤ delay := toInt32_le (Int.natCast_nonneg _)
  by_cases hseen : TransitionWaits now s
  · have hwait := h.transition hseen
    have hstored := @toInt32_le (s.markov.next - now.ms) (by omega)
    omega
  -- a wait that is negative as an `int` is longer than any timeout
  have hnegative : ¬0 ≤ toInt32 (s.markov.next - now.ms) := fun hpos => hseen ⟨hmany, hpos⟩
  have hlt := toInt32_lt delay
  have hlarge : 2147483648 ≤ s.markov.next - now.ms := by
    by_contra hsmall
    rw [toInt32_eq (by omega) (by omega)] at hnegative
    omega
  omega

lemma Merged.input_le {dir : Dir} (hmask : inputMasked stale now s dir = true)
    (hahead : now.timeval.micros ≤ (s.nextspeed dir).timeval.micros) :
    toInt32 delay * 1000 ≤ (s.nextspeed dir).timeval.micros - now.timeval.micros := by
  have hle : toInt32 delay ≤ delay := toInt32_le (Int.natCast_nonneg _)
  have hwait := h.input dir hmask
  have hms := speeddelay_le (s.nextspeed dir).normal now.normal hahead
  omega

end

lemma inTime_iff (hmerged : Merged stale now s delay) {p : PollArgs} (hp : p.masked = inputMasked stale now s)
    (htimeout : p.timeout = toInt32 delay) : InTime now s p ↔ WaitsSeen stale now s := by
  have hle : toInt32 delay ≤ delay := toInt32_le (Int.natCast_nonneg _)
  have hnonneg := hmerged.nonneg_iff
  have hzero := hmerged.zero_iff
  constructor
  · rintro ⟨hqueue, hmarkov, hspeed⟩
    rw [htimeout] at hqueue hmarkov hspeed
    rw [hp] at hspeed
    refine ⟨?_, ?_, ?_⟩
    · rintro (hpos | hmany)
      · exact hnonneg.mp (hqueue hpos).1
      · exact hnonneg.mp (hmarkov hmany).1
    · intro hmany hpast
      have hbounds := hmarkov hmany
      exact hzero.mp (by omega)
    intro hmask hpast
    have hbounds := hspeed .RL hmask
    exact hzero.mp (by omega)
  rintro ⟨hsome, htransition, hinput⟩
  refine ⟨?_, ?_, ?_⟩
  · intro hpos
    have hqueue := hmerged.queue
    rw [nextms_of_pos hpos, queueWait] at hqueue
    rw [htimeout]
    exact ⟨hnonneg.mpr (hsome (.inl hpos)), by omega⟩
  · intro hmany
    rw [htimeout]
    refine ⟨hnonneg.mpr (hsome (.inr hmany)), ?_⟩
    by_cases hpast : s.markov.next < now.ms
    · have hnull := hzero.mpr (htransition hmany hpast)
      omega
    have hbound := hmerged.markov_le hmany (Int.not_lt.mp hpast)
    omega
  intro dir hmask
  rw [hp] at hmask
  rw [htimeout]
  refine ⟨hnonneg.mpr (.inr (.inl ⟨dir, hmask⟩)), ?_⟩
  by_cases hpast : (s.nextspeed dir).timeval.micros < now.timeval.micros
  · cases dir with
    | LR =>
      have hahead := inputMasked_left hmask
      omega
    | RL =>
      have hnull := hzero.mpr (hinput hmask hpast)
      omega
  have hbound := hmerged.input_le hmask (Int.not_lt.mp hpast)
  omega

end

/-- The timeout is right for every pending deadline exactly if the waits are seen. -/
theorem wakeup_iff (stale : Timeval) (now : TimeOfDay) (s : FilterTimers) :
    InTime now s (pollArgs stale now s) ↔ WaitsSeen stale now s :=
  inTime_iff (pollDelay_merged stale now s) (by rw [pollArgs]) (by rw [pollArgs])

def oneSecond : TimeOfDay := ⟨1, 0, Nat.zero_lt_succ _⟩

def overdueTimers : FilterTimers where
  queue := delayInit false
  markov := ⟨2, 0, fun _ => 50, 4, 100, 999⟩
  speed := fun _ => 0
  nextspeed := fun _ => ⟨0, 0, Nat.zero_lt_succ _⟩
  ndirs := 2

/-- The filter then sleeps until something arrives. -/
theorem overdue_sleeps : (pollArgs ⟨0, 0⟩ oneSecond overdueTimers).timeout = -1 ∧
    ¬InTime oneSecond overdueTimers (pollArgs ⟨0, 0⟩ oneSecond overdueTimers) := by
  have htimeout : (pollArgs ⟨0, 0⟩ oneSecond overdueTimers).timeout = -1 := by decide +kernel
  refine ⟨htimeout, fun h => ?_⟩
  have hnonneg := (h.markov Nat.one_lt_two).1
  rw [htimeout] at hnonneg
  exact absurd hnonneg (by decide)

end Vde
