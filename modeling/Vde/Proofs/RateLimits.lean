import Vde.Proofs.Wakeups

/-!
# Speed and bandwidth limits

A value is tested for being positive as a `double`, and is a divisor as an `unsigned int`: a value below one is
zero by then, and so is one whose lower 32 bits are. The products and the carries into the seconds are right for
every packet.
-/

namespace Vde

open Function

def Divides (x : ℚ) : Prop := 1 ≤ x ∧ x < 9223372036854775808 ∧ ¬(4294967296 : Int) ∣ ⌊x⌋

/-- No copy has divided by zero, and the microseconds are less than a second. -/
structure RatesRight (s : RateState) : Prop where
  alive : s.ended ≠ some .sigfpe
  speed : ∀ dir, (s.nextspeed dir).Normal
  band : ∀ dir, (s.nextband dir).Normal

def DrawDivides (wv : Wirevalue) (r : Variate) : Prop :=
  0 < maxWirevalue wv → 0 < computeWirevalue wv r → Divides (computeWirevalue wv r)

/-- The speed of a copy that gets so far is a divisor, and if it is positive or there is no limit, so is the
bandwidth. -/
def CopyDivides (w : WireValues) (dir : Dir) (buf : List UInt8) (s : RateState) (c : CopyDraws) : Prop :=
  s.ended = none → ¬overCapacity w dir buf.length c s →
    DrawDivides (w .SPEED dir) c.speed ∧
      ((0 < maxWirevalue (w .SPEED dir) → 0 < computeWirevalue (w .SPEED dir) c.speed) →
        DrawDivides (w .BAND dir) c.band)

variable {x : ℚ} {size : Nat}

section

variable {w : WireValues} {dir : Dir} {buf : List UInt8} {c : CopyDraws} {s : RateState}

/-! ### Conversions -/

lemma toUnsigned_ne_zero (hx : 0 < x) : toUnsigned x ≠ 0 ↔ Divides x := by
  rw [toUnsigned, Divides, truncate_of_pos hx]
  by_cases hwide : x < 9223372036854775808
  · have hlow : (⌊x⌋ % 4294967296).toNat ≠ 0 ↔ ¬(4294967296 : Int) ∣ ⌊x⌋ := by omega
    rw [if_pos hwide, hlow]
    constructor
    · intro hdvd
      refine ⟨?_, hwide, hdvd⟩
      by_contra hsmall
      have hzero : ⌊x⌋ = 0 := Int.floor_eq_zero_iff.mpr ⟨hx.le, not_le.mp hsmall⟩
      rw [hzero] at hdvd
      exact hdvd (dvd_zero _)
    · exact fun h => h.2.2
  rw [if_neg hwide]
  exact ⟨fun h => absurd rfl h, fun h => absurd h.2.1 hwide⟩

lemma sizeMicros_eq (h : size ≤ 2048) : sizeMicros size = size * 1000000 := by
  rw [sizeMicros]
  omega

lemma Timeval.Normal.advance {t : Timeval} (ht : t.Normal) (n : Nat) : (t.advance n).Normal := by
  obtain ⟨h0, h1⟩ := ht
  rw [Timeval.advance, Timeval.Normal]
  dsimp only
  rw [Int.tmod_eq_emod_of_nonneg (by omega)]
  omega

/-! ### The stages -/

inductive StageOutcome (wv : Wirevalue) (r : Variate) : Except CopyEnd (Int × Timeval) → Prop where
  | passes (banddelay : Int) (next : Timeval) (hnext : next.Normal)
      (hdraw : 0 < maxWirevalue wv → 0 < computeWirevalue wv r ∧ Divides (computeWirevalue wv r)) :
      StageOutcome wv r (.ok (banddelay, next))
  | drops (hmax : 0 < maxWirevalue wv) (hdraw : computeWirevalue wv r ≤ 0) : StageOutcome wv r (.error .returned)
  | traps (hmax : 0 < maxWirevalue wv) (hpos : 0 < computeWirevalue wv r)
      (hdraw : ¬Divides (computeWirevalue wv r)) : StageOutcome wv r (.error .sigfpe)

lemma commtime_of_divides (hx : 0 < x) (h : Divides x) :
    commtime size x = .ok (sizeMicros size / toUnsigned x) := by
  rw [commtime, if_neg ((toUnsigned_ne_zero hx).mpr h)]

lemma commtime_of_not (hx : 0 < x) (h : ¬Divides x) : commtime size x = .error .sigfpe := by
  have hzero : toUnsigned x = 0 := not_not.mp (mt (toUnsigned_ne_zero hx).mp h)
  rw [commtime, if_pos hzero]

lemma StageOutcome.of_commtime {wv : Wirevalue} {r : Variate} {next : Nat → Except CopyEnd (Int × Timeval)}
    {skip : Int × Timeval} (hskip : skip.2.Normal) (hnext : ∀ t, ∃ d tv, next t = .ok (d, tv) ∧ tv.Normal) :
    StageOutcome wv r (if 0 < maxWirevalue wv then
      if computeWirevalue wv r ≤ 0 then .error .returned else commtime size (computeWirevalue wv r) >>= next
      else .ok skip) := by
  by_cases hmax : 0 < maxWirevalue wv
  · rw [if_pos hmax]
    by_cases hval : computeWirevalue wv r ≤ 0
    · rw [if_pos hval]
      exact .drops hmax hval
    have hpos := not_le.mp hval
    rw [if_neg hval]
    by_cases hdiv : Divides (computeWirevalue wv r)
    · obtain ⟨d, tv, hok, htv⟩ := hnext (sizeMicros size / toUnsigned (computeWirevalue wv r))
      rw [commtime_of_divides hpos hdiv, ok_bind, hok]
      exact .passes d tv htv (fun _ => ⟨hpos, hdiv⟩)
    rw [commtime_of_not hpos hdiv]
    exact .traps hmax hpos hdiv
  rw [if_neg hmax]
  exact .passes skip.1 skip.2 hskip (fun h => absurd h hmax)

lemma speedStage_outcome (size : Nat) {nextspeed : Timeval} (hnext : nextspeed.Normal) :
    StageOutcome (w .SPEED dir) c.speed (speedStage w dir size c nextspeed) := by
  refine StageOutcome.of_commtime hnext ?_
  intro t
  refine ⟨_, _, rfl, ?_⟩
  split
  · exact c.speedNow.normal.advance t
  · exact hnext.advance t

lemma bandStage_outcome (size : Nat) (banddelay : Int) {nextband : Timeval} (hnext : nextband.Normal) :
    StageOutcome (w .BAND dir) c.band (bandStage w dir size c banddelay nextband) := by
  refine StageOutcome.of_commtime hnext ?_
  intro t
  dsimp only
  split
  · exact ⟨_, _, rfl, c.bandNow.normal.advance t⟩
  · exact ⟨_, _, rfl, hnext.advance t⟩

lemma delayStage_keeps (banddelay : Int) : (delayStage w dir buf c banddelay s).ended = s.ended ∧
    (delayStage w dir buf c banddelay s).nextspeed = s.nextspeed ∧ (delayStage w dir buf c banddelay s).nextband =
    s.nextband := by
  rw [delayStage]
  dsimp only
  generalize (if 0 ≤ computeWirevalue (w .DELAY dir) c.delay then
    computeWirevalue (w .DELAY dir) c.delay + banddelay else (banddelay : ℚ)) = delval
  split
  · split
    · split
      · exact ⟨rfl, rfl, rfl⟩
      · exact ⟨rfl, rfl, rfl⟩
    · exact ⟨rfl, rfl, rfl⟩
  · exact ⟨rfl, rfl, rfl⟩

lemma normal_update {next : Dir → Timeval} (h : ∀ d, (next d).Normal) {t : Timeval} (ht : t.Normal) (d : Dir) :
    (update next dir t d).Normal := by
  by_cases hd : d = dir
  · rw [hd, update_self]
    exact ht
  rw [update_of_ne hd]
  exact h d

/-! ### A copy -/

lemma RatesRight.copy (hs : RatesRight s) : CopyDivides w dir buf s c ∧ RatesRight (handleCopy w dir buf s c) ∨
    ¬CopyDivides w dir buf s c ∧ (handleCopy w dir buf s c).ended = some .sigfpe := by
  rw [handleCopy]
  by_cases hended : s.ended.isSome = true
  · rw [if_pos hended]
    refine .inl ⟨?_, hs⟩
    intro hnone
    rw [hnone] at hended
    exact absurd hended Bool.false_ne_true
  have hnone : s.ended = none := Option.not_isSome_iff_eq_none.mp hended
  rw [if_neg hended]
  by_cases hover : overCapacity w dir buf.length c s
  · rw [if_pos hover]
    exact .inl ⟨fun _ h => absurd hover h, ⟨by simp, hs.speed, hs.band⟩⟩
  rw [if_neg hover]
  have hspeed := @speedStage_outcome w dir c buf.length _ (hs.speed dir)
  generalize speedStage w dir buf.length c (s.nextspeed dir) = stage at hspeed ⊢
  cases hspeed with
  | drops hmax hdraw =>
    refine .inl ⟨fun _ _ => ⟨fun _ hpos => ?_, fun h => ?_⟩, ⟨by simp, hs.speed, hs.band⟩⟩
    · exact absurd hdraw (not_le.mpr hpos)
    · exact absurd hdraw (not_le.mpr (h hmax))
  | traps hmax hpos hdraw =>
    exact .inr ⟨fun h => hdraw ((h hnone hover).1 hmax hpos), rfl⟩
  | passes banddelay nextspeed hnext hdraw =>
    have hspeeds : DrawDivides (w .SPEED dir) c.speed := fun hmax _ => (hdraw hmax).2
    have hgo : 0 < maxWirevalue (w .SPEED dir) → 0 < computeWirevalue (w .SPEED dir) c.speed :=
      fun hmax => (hdraw hmax).1
    have hnexts := @normal_update dir _ hs.speed _ hnext
    dsimp only
    have hband := @bandStage_outcome w dir c buf.length banddelay _ (hs.band dir)
    generalize bandStage w dir buf.length c banddelay (s.nextband dir) = stage at hband ⊢
    cases hband with
    | drops hmax hdraw =>
      refine .inl ⟨fun _ _ => ⟨hspeeds, fun _ _ hpos => ?_⟩, ⟨by simp, hnexts, hs.band⟩⟩
      exact absurd hdraw (not_le.mpr hpos)
    | traps hmax hpos hdraw =>
      exact .inr ⟨fun h => hdraw ((h hnone hover).2 hgo hmax hpos), rfl⟩
    | passes banddelay nextband hnext hdraw =>
      refine .inl ⟨fun _ _ => ⟨hspeeds, fun _ hmax _ => (hdraw hmax).2⟩, ?_⟩
      obtain ⟨hended', hspeed', hband'⟩ := @delayStage_keeps w dir buf c
        { s with
          nextspeed := update s.nextspeed dir nextspeed
          nextband := update s.nextband dir nextband } banddelay
      refine ⟨?_, ?_, ?_⟩
      · rw [hended']
        exact hs.alive
      · rw [hspeed']
        exact hnexts
      rw [hband']
      exact normal_update hs.band hnext

end

/-- No copy of a packet divides by zero, the product does not wrap, and the microseconds stay below a second,
exactly if the values drawn for the copies divide. -/
theorem rate_limits_iff (w : WireValues) (dir : Dir) {buf : List UInt8} (hsize : buf.length ≤ 2048) {s : RateState}
    (hs : RatesRight s) (copies : List CopyDraws) : (copyMachine w dir buf).Always RatesRight s copies ∧
    sizeMicros buf.length = buf.length * 1000000 ↔
    (copyMachine w dir buf).Along (CopyDivides w dir buf) s copies := by
  rw [and_iff_left (sizeMicros_eq hsize)]
  apply Machine.always_iff_along RatesRight (fun _ h => h) _ _ hs copies (Machine.Along.of_forall (fun _ _ => trivial) _ _)
  · intro s c hs _ hdiv
    rcases hs.copy with ⟨-, hright⟩ | ⟨hnot, -⟩
    · exact hright
    · exact absurd hdiv hnot
  intro s c hs _ hdiv hright
  rcases hs.copy with ⟨hyes, -⟩ | ⟨-, hended⟩
  · exact hdiv hyes
  · exact hright.alive hended

def plainDraws : CopyDraws where
  capacity := ⟨0, 0⟩
  speed := ⟨0, 0⟩
  band := ⟨0, 0⟩
  delay := ⟨0, 0⟩
  speedNow := oneSecond
  bandNow := oneSecond
  queueNow := oneSecond

def speedOnly (speed : ℚ) : WireValues := fun tag _ =>
  match tag with
  | .SPEED => ⟨speed, 0, .uniform⟩
  | _ => ⟨0, 0, .uniform⟩

def freshRates : RateState where
  queue := delayInit false
  nextspeed := fun _ => ⟨0, 0⟩
  nextband := fun _ => ⟨0, 0⟩
  sent := []
  ended := none

lemma freshRates_right : RatesRight freshRates := by
  have hzero : (⟨0, 0⟩ : Timeval).Normal := ⟨by decide, by decide⟩
  exact ⟨by simp [freshRates], fun _ => hzero, fun _ => hzero⟩

theorem rate_limits_thousand :
    (copyMachine (speedOnly 1000) .LR (List.replicate 60 0)).Always RatesRight freshRates [plainDraws] ∧
    sizeMicros (List.replicate 60 (0 : UInt8)).length = (List.replicate 60 (0 : UInt8)).length * 1000000 := by
  apply (rate_limits_iff (speedOnly 1000) .LR (by simp) freshRates_right [plainDraws]).mpr
  refine ⟨fun _ _ => ⟨fun _ _ => ?_, fun _ hmax => ?_⟩, trivial⟩
  · have hval : computeWirevalue (speedOnly 1000 .SPEED .LR) plainDraws.speed = 1000 := rfl
    rw [hval, Divides]
    norm_num
  · exact absurd hmax (by norm_num [maxWirevalue, speedOnly])

theorem half_speed_traps :
    ¬(copyMachine (speedOnly (1 / 2)) .LR (List.replicate 60 0)).Always RatesRight freshRates [plainDraws] := by
  intro h
  have hval : computeWirevalue (speedOnly (1 / 2) .SPEED .LR) plainDraws.speed = 1 / 2 := rfl
  rcases @RatesRight.copy (speedOnly (1 / 2)) .LR (List.replicate 60 0) plainDraws freshRates freshRates_right with
    ⟨hdiv, -⟩ | ⟨-, hended⟩
  · have hdraw := (hdiv rfl (by norm_num [overCapacity, maxWirevalue, speedOnly])).1
      (by norm_num [maxWirevalue, speedOnly]) (by rw [hval]; norm_num)
    rw [hval] at hdraw
    have hone := hdraw.1
    norm_num at hone
  · exact h.last.alive hended

end Vde
