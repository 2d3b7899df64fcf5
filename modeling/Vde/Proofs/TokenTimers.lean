import Vde.TokenTimer

/-!
# The timer of the token policy keeps up

From every bitrate of at least eight comes an interval that is not zero, and with such an interval the timer posts for
each of the intervals that are over. Smaller bitrates divide by zero.
-/

namespace Vde

def WholeIntervals (cur : TimedDequeue) (now k : Nat) : Prop :=
  (k = 0 ∨ cur.lastOut + k * cur.interval.toNat < now) ∧ now ≤ cur.lastOut + (k + 1) * cur.interval.toNat

def TimedDequeue.advance (cur : TimedDequeue) (k : Nat) : TimedDequeue :=
  { cur with lastOut := cur.lastOut + k * cur.interval.toNat }

def KeepsUp : TimedDequeue → List ClockReading → Prop
  | _, [] => True
  | cur, now :: later =>
    ∃ k, WholeIntervals cur now.micros k ∧
      Ends (fun fuel => timerCatchUp now.micros fuel cur) (cur.advance k, List.replicate k cur.q.semaphore) ∧
      KeepsUp (cur.advance k) later

structure TokenKept (alloc : Bool) (clock : ClockReading) (id : QueueId) (bitrate limit : BitVec 32)
    (later : List ClockReading) (s s' : IfaceQueues) : Prop where
  sets : tokenSetup alloc clock.micros id bitrate limit s = .ok s'
  interval : ∃ interval, (s'.queue id).policy = .token limit 0 interval ∧ 1 ≤ interval
  keepsUp : alloc = true → ∃ cur rest, s'.timedDequeue = cur :: rest ∧ cur.q = id ∧ KeepsUp cur later

section Loop

variable {cur : TimedDequeue} {posted : List Semaphore} {now : Nat}

lemma timerTurn_posts (h : cur.lastOut + cur.interval.toNat < now) (hnow : now < 2 ^ 63) (fuel : Nat) :
    timerTurn now fuel (cur, posted) = .ok (.inl (cur.advance 1, posted ++ [cur.q.semaphore])) := by
  have hfits : (cur.lastOut + cur.interval.toNat) % 2 ^ 64 = cur.lastOut + cur.interval.toNat :=
    Nat.mod_eq_of_lt (by omega)
  rw [timerTurn, hfits, if_pos h, if_neg (Nat.not_lt.mpr h.le), TimedDequeue.advance, Nat.one_mul]

lemma timerTurn_leaves (h : now ≤ cur.lastOut + cur.interval.toNat) (hlast : cur.lastOut < 2 ^ 63) (fuel : Nat) :
    timerTurn now fuel (cur, posted) = .ok (.inr (cur, posted)) := by
  have hfits : (cur.lastOut + cur.interval.toNat) % 2 ^ 64 = cur.lastOut + cur.interval.toNat :=
    Nat.mod_eq_of_lt (by have := cur.interval.isLt; omega)
  rw [timerTurn, hfits, if_neg (Nat.not_lt.mpr h)]

lemma advance_advance (cur : TimedDequeue) (j k : Nat) : (cur.advance j).advance k = cur.advance (j + k) := by
  simp only [TimedDequeue.advance, Nat.add_mul, Nat.add_assoc]

lemma advance_zero (cur : TimedDequeue) : cur.advance 0 = cur := by
  rw [TimedDequeue.advance, Nat.zero_mul, Nat.add_zero]

lemma timerLoop_ends (hlast : cur.lastOut < 2 ^ 63) (hnow : now < 2 ^ 63) {k : Nat} (h : WholeIntervals cur now k) :
    Ends (fun fuel => runLoop () (timerTurn now) fuel (cur, posted))
      (cur.advance k, posted ++ List.replicate k cur.q.semaphore) := by
  induction k generalizing cur posted with
  | zero =>
    have hover : now ≤ cur.lastOut + cur.interval.toNat := by simpa using h.2
    rw [advance_zero, List.replicate_zero, List.append_nil]
    exact runLoop_inr (ends_of_forall (timerTurn_leaves hover hlast))
  | succ k ih =>
    obtain ⟨hbefore, hafter⟩ := h
    have hbefore : cur.lastOut + (k + 1) * cur.interval.toNat < now := hbefore.resolve_left (Nat.succ_ne_zero k)
    rw [Nat.add_mul (k + 1), Nat.add_mul k] at hafter
    rw [Nat.add_mul] at hbefore
    have hturn : cur.lastOut + cur.interval.toNat < now := by omega
    have hnext : WholeIntervals (cur.advance 1) now k := by
      refine ⟨.inr ?_, ?_⟩
      · simp only [TimedDequeue.advance]
        omega
      simp only [TimedDequeue.advance]
      rw [Nat.add_mul k]
      omega
    have hends := @ih (cur.advance 1) (posted ++ [cur.q.semaphore])
      (by simp only [TimedDequeue.advance]; omega) hnext
    rw [advance_advance, Nat.add_comm 1 k, List.append_assoc] at hends
    exact (runLoop_inl (ends_of_forall (timerTurn_posts hturn hnow))).mpr hends

lemma exists_wholeIntervals (cur : TimedDequeue) (now : Nat) (h : 0 < cur.interval.toNat) :
    ∃ k, WholeIntervals cur now k := by
  by_cases hover : now ≤ cur.lastOut + cur.interval.toNat
  · exact ⟨0, .inl rfl, by simpa using hover⟩
  refine ⟨(now - cur.lastOut - 1) / cur.interval.toNat, .inr ?_, ?_⟩
  · have hle := Nat.div_mul_le_self (now - cur.lastOut - 1) cur.interval.toNat
    omega
  have hdiv := Nat.div_add_mod (now - cur.lastOut - 1) cur.interval.toNat
  have hmod := Nat.mod_lt (now - cur.lastOut - 1) h
  rw [Nat.add_mul, Nat.one_mul, Nat.mul_comm ((now - cur.lastOut - 1) / cur.interval.toNat)]
  omega

lemma keepsUp (later : List ClockReading) (hlast : cur.lastOut < 2 ^ 63) (h : 0 < cur.interval.toNat) :
    KeepsUp cur later := by
  induction later generalizing cur with
  | nil => trivial
  | cons now later ih =>
    obtain ⟨k, hk⟩ := exists_wholeIntervals cur now.micros h
    refine ⟨k, hk, timerLoop_ends hlast now.fits hk, ih ?_ h⟩
    rcases hk.1 with rfl | hbefore
    · rwa [advance_zero]
    · exact hbefore.trans now.fits

end Loop

section Setup

variable {bitrate : BitVec 32}

lemma shift_eq_zero : bitrate >>> 3 = 0 ↔ bitrate.toNat < 8 := by
  rw [← BitVec.toNat_inj, BitVec.toNat_ushiftRight, Nat.shiftRight_eq_div_pow]
  change bitrate.toNat / 2 ^ 3 = 0 ↔ bitrate.toNat < 8
  omega

lemma tokenInterval_bounds (h : ¬bitrate.toNat < 8) : 1 ≤ tokenInterval bitrate ∧ tokenInterval bitrate < 2 ^ 32 := by
  have hlt := bitrate.isLt
  rw [tokenInterval, IDEAL_PACKET_SIZE, BitVec.toNat_ushiftRight, Nat.shiftRight_eq_div_pow]
  have hpos : 0 < bitrate.toNat / 2 ^ 3 := by omega
  constructor
  · exact (Nat.one_le_div_iff hpos).mpr (by omega)
  · exact (Nat.div_le_self _ _).trans_lt (by decide)

/-- For every bitrate and limit that the command accepts, the token policy is set with an interval of at least a
microsecond, and the timer posts for each whole interval, exactly if the bitrate is at least eight. -/
theorem token_kept_iff (strtod : String → ℚ) (nextargs : List String) (bitrate limit : BitVec 32)
    (_h : queueToken strtod nextargs = .ok (some (bitrate, limit))) (alloc : Bool) (clock : ClockReading) (id : QueueId)
    (later : List ClockReading) (s : IfaceQueues) :
    (∃ s', TokenKept alloc clock id bitrate limit later s s') ↔ 8 ≤ bitrate.toNat := by
  constructor
  · rintro ⟨s', h⟩
    by_contra hsmall
    have hsets := h.sets
    rw [tokenSetup, if_pos (shift_eq_zero.mpr (by omega))] at hsets
    cases hsets
  intro hlarge
  obtain ⟨hpos, hfits⟩ := tokenInterval_bounds (Nat.not_lt.mpr hlarge)
  refine ⟨qtokenSetup alloc clock.micros id bitrate limit s, ?_, ?_, ?_⟩
  · rw [tokenSetup, if_neg (by rw [shift_eq_zero]; omega)]
  · refine ⟨tokenInterval bitrate, ?_, hpos⟩
    simp [qtokenSetup, setPolicy, IfaceQueues.setQueue]
  rintro rfl
  refine ⟨⟨clock.micros, BitVec.ofNat 32 (tokenInterval bitrate), id⟩, _, rfl, rfl, keepsUp later clock.fits ?_⟩
  rw [BitVec.toNat_ofNat, Nat.mod_eq_of_lt hfits]
  exact hpos

end Setup

def digitsValue (p : String) : ℚ := p.toList.foldl (fun n c => n * 10 + ((c.toNat - 48 : Nat) : ℚ)) 0

def clockStart : ClockReading := ⟨0, 0, by decide, by decide⟩

theorem token_kept_eight : ∃ s', TokenKept true clockStart .out 8 1000 [clockStart] ifaceQueuesStart s' :=
  (token_kept_iff digitsValue ["limit", "1000", "bitrate", "8"] 8 1000 (by decide +kernel) true clockStart .out
    [clockStart] ifaceQueuesStart).mpr (by decide)

/-- The bitrate 7 is accepted and divides by zero. -/
theorem token_small_bitrate : ¬∀ (strtod : String → ℚ) (nextargs : List String) (bitrate limit : BitVec 32),
    queueToken strtod nextargs = .ok (some (bitrate, limit)) →
    ∀ (clock : ClockReading) (id : QueueId) (later : List ClockReading) (s : IfaceQueues), ∃ s',
    TokenKept true clock id bitrate limit later s s' := by
  intro h
  obtain ⟨s', hkept⟩ := h digitsValue ["limit", "1000", "bitrate", "7"] 7 1000 (by decide +kernel) clockStart .out []
    ifaceQueuesStart
  have hsets := hkept.sets
  rw [tokenSetup, if_pos (by decide)] at hsets
  cases hsets

end Vde
